import ParkingLot.Reader.Bus
import Mathlib.Tactic.SplitIfs

/-!
# Requesting and selecting a card

`PICC_IsNewCardPresent`, `PICC_ReadCardSerial` and what they call. `PICC_Select` runs up to three
cascade levels; each level is an anticollision loop and a SELECT, after which the UID bytes of the
level are copied to `Uid`, before the SAK is checked.

* `Uid`: the shared `RfChip.uid`; its size never exceeds its ten bytes.
* `selectStep`, `selectLoop`: the anticollision loop.
* `selectLevel`, `cascade`, `piccSelect`: the cascade levels.
-/

namespace ParkingLot

/-- `Uid`: the UID of a card, its size and the SAK byte. -/
@[ext] structure Uid where
  size : ℕ
  uidByte : Vector UInt8 10
  sak : UInt8
  size_le : size ≤ 10
  deriving DecidableEq, Repr

namespace Uid

/-- `RfChip.uid` before any card was read: static storage is zero. -/
def init : Uid := ⟨0, Vector.replicate 10 0, 0, by omega⟩

def byte (u : Uid) (i : ℕ) : UInt8 := u.uidByte[i]?.getD 0

/-- The UID proper: the first `size` bytes. -/
def bytes (u : Uid) : List UInt8 := (List.range u.size).map u.byte

/-- `uidByte[i] = b`. -/
def set (u : Uid) (i : ℕ) (b : UInt8) : Uid := { u with uidByte := u.uidByte.setIfInBounds i b }

/-- The copy loop: the bytes go to `uidByte[i]` and up. -/
def copy (u : Uid) (i : ℕ) : List UInt8 → Uid
  | [] => u
  | b :: bs => (u.set i b).copy (i + 1) bs

theorem byte_set (u : Uid) (i j : ℕ) (b : UInt8) :
    (u.set i b).byte j = if i = j ∧ j < 10 then b else u.byte j := by
  simp only [byte, set, Vector.getElem?_setIfInBounds]
  by_cases hij : i = j
  · subst hij
    by_cases hj : i < 10 <;> simp [hj]
  · simp [hij]

@[simp] theorem size_set (u : Uid) (i : ℕ) (b : UInt8) : (u.set i b).size = u.size := rfl

@[simp] theorem size_copy (u : Uid) (i : ℕ) (bs : List UInt8) : (u.copy i bs).size = u.size := by
  induction bs generalizing u i with
  | nil => rfl
  | cons b bs ih => exact ih _ _

/-- **The copy loop writes the bytes from `i` up and no others.** -/
theorem byte_copy (u : Uid) (i j : ℕ) (bs : List UInt8) (hi : i + bs.length ≤ 10) :
    (u.copy i bs).byte j = if i ≤ j ∧ j < i + bs.length then bs.getD (j - i) 0 else u.byte j := by
  induction bs generalizing u i with
  | nil => rw [if_neg (by simp)]; rfl
  | cons b bs ih =>
    rw [List.length_cons] at hi
    rw [copy, ih _ _ (by omega), byte_set, List.length_cons]
    by_cases h1 : i = j
    · subst h1
      rw [if_neg (by omega), if_pos ⟨rfl, by omega⟩, if_pos (by omega), Nat.sub_self]
      rfl
    · by_cases h2 : i + 1 ≤ j ∧ j < i + 1 + bs.length
      · obtain ⟨k, hk⟩ : ∃ k, j - i = k + 1 := ⟨j - i - 1, by omega⟩
        rw [if_pos h2, if_pos (by omega), hk, List.getD_cons_succ, show j - (i + 1) = k by omega]
      · rw [if_neg h2, if_neg (by omega), if_neg (by omega)]

end Uid

/-! ## REQA -/

/-- `PICC_REQA_or_WUPA`: the status, and the buffer for the ATQA. -/
def piccREQAorWUPA (command : UInt8) (bufferATQA : Back) : Spi (StatusCode × Back) :=
  if bufferATQA.len < 2 then pure (.noRoom, bufferATQA)
  else do
    pcdClrRegisterBits .collReg 0x80
    let x ← pcdTransceiveData [command] (some bufferATQA) (some 7) 0 false
    let back := x.back.getD bufferATQA
    if x.status ≠ .ok then pure (x.status, back)
    else if back.len ≠ 2 ∨ x.validBits ≠ some 0 then pure (.error, back)
    else pure (.ok, back)

def piccRequestA (bufferATQA : Back) : Spi (StatusCode × Back) :=
  piccREQAorWUPA piccCmdREQA bufferATQA

/-- `PICC_IsNewCardPresent`; `bufferATQA` holds what the local array holds on entry. -/
def piccIsNewCardPresent (bufferATQA : List UInt8) : Spi Bool := do
  let (result, _) ← piccRequestA ⟨bufferATQA, 2⟩
  pure (result = .ok ∨ result = .collision)

/-! ## The anticollision loop -/

/-- A finished SELECT: the buffer with the SAK and its CRC in bytes 6 to 8, the length of that
answer and the valid bits of its last byte. -/
structure Selected where
  buffer : List UInt8
  responseLength : ℕ
  txLastBits : UInt8
  deriving DecidableEq, Repr

/-- What one turn of the anticollision loop decides. -/
inductive Turn
  | done (r : Selected)
  | fail (e : Failure)
  | again (buffer : List UInt8) (known : ℕ)
  deriving DecidableEq, Repr

/-- A transmission and its answer, stored from `responseIndex` of the buffer on. -/
def transmit (buffer : List UInt8) (bufferUsed responseIndex responseLength : ℕ)
    (txLastBits : UInt8) : Spi (StatusCode × Selected) := do
  pcdWriteRegister .bitFramingReg [(txLastBits <<< 4) + txLastBits]
  let x ← pcdTransceiveData (buffer.take bufferUsed)
    (some ⟨buffer.drop responseIndex, responseLength⟩) (some txLastBits) txLastBits false
  let back := x.back.getD ⟨buffer.drop responseIndex, responseLength⟩
  pure (x.status, ⟨buffer.take responseIndex ++ back.data, back.len, x.validBits.getD 0⟩)

/-- The collision position in `CollReg`, where 0 means bit 32. -/
def collisionPos (result : UInt8) : ℕ :=
  if result &&& 0x1F = 0 then 32 else (result &&& 0x1F).toNat

/-- The turn after a collision: choose the card with the bit set. -/
def collided (buffer : List UInt8) (known : ℕ) : Spi Turn := do
  let result ← pcdReadRegister .collReg
  if result &&& 0x20 ≠ 0 then pure (.fail ⟨.collision, by decide⟩)
  else
    let pos := collisionPos result
    if pos ≤ known then pure (.fail ⟨.internalError, by decide⟩)
    else
      let count := (pos - 1) % 8
      let index := 1 + pos / 8 + if count ≠ 0 then 1 else 0
      pure (.again (buffer.set index (buffer.getD index 0 ||| (1 <<< UInt8.ofNat count))) pos)

/-- The end of a turn, by the status of its transmission. -/
def answered (known : ℕ) (onOk : Selected → Turn) (result : StatusCode) (r : Selected) : Spi Turn :=
  if result = .collision then collided r.buffer known
  else if h : result ≠ .ok then pure (.fail ⟨result, h⟩)
  else pure (onOk r)

/-- A turn with all bits of the level known: a SELECT. -/
def selectTurn (buffer : List UInt8) (known : ℕ) : Spi Turn := do
  let buffer := (buffer.set 1 0x70).set 6
    (buffer.getD 2 0 ^^^ buffer.getD 3 0 ^^^ buffer.getD 4 0 ^^^ buffer.getD 5 0)
  let crc ← pcdCalculateCRC (buffer.take 7)
  match crc with
  | .error e => pure (.fail e)
  | .ok (low, high) => do
    let (result, r) ← transmit ((buffer.set 7 low).set 8 high) 9 6 3 0
    answered known .done result r

/-- A turn with bits of the level to be found out: an ANTICOLLISION. -/
def anticollisionTurn (buffer : List UInt8) (known : ℕ) : Spi Turn := do
  let txLastBits := UInt8.ofNat (known % 8)
  let index := 2 + known / 8
  let buffer := buffer.set 1 ((UInt8.ofNat index <<< 4) + txLastBits)
  let (result, r) ← transmit buffer (index + if txLastBits ≠ 0 then 1 else 0) index (9 - index)
    txLastBits
  answered known (fun r => .again r.buffer 32) result r

def selectStep (buffer : List UInt8) (known : ℕ) : Spi Turn :=
  if 32 ≤ known then selectTurn buffer known else anticollisionTurn buffer known

/-- `while (!selectDone)`, for at most `n` turns. -/
def selectLoop : ℕ → List UInt8 → ℕ → Spi (Except Failure Selected)
  | 0, _, _ => pure (.error ⟨.internalError, by decide⟩)
  | n + 1, buffer, known => do
    let t ← selectStep buffer known
    match t with
    | .done r => pure (.ok r)
    | .fail e => pure (.error e)
    | .again buffer known => selectLoop n buffer known

/-! ## Cascade levels -/

/-- The UID bytes of one level: three behind the cascade tag, or four. -/
inductive LevelData
  | tagged (a b c : UInt8)
  | plain (a b c d : UInt8)
  deriving DecidableEq, Repr

def LevelData.bytes : LevelData → List UInt8
  | .tagged a b c => [a, b, c]
  | .plain a b c d => [a, b, c, d]

/-- How a level ends: the anticollision loop failed, or the UID bytes were copied and the check of
the SAK gave an error, or the buffer and the SAK. -/
inductive Level
  | failed (e : Failure)
  | copied (data : LevelData) (outcome : Except Failure (List UInt8 × UInt8))

def selCommand : ℕ → UInt8
  | 1 => piccCmdSelCL1
  | 2 => piccCmdSelCL2
  | _ => piccCmdSelCL3

/-- `uidIndex`: the first index in `uidByte` that a level uses. -/
def uidIndex : ℕ → ℕ
  | 1 => 0
  | 2 => 3
  | _ => 6

/-- `useCascadeTag`: the UID is known to go on after this level. -/
def useCascadeTag (u : Uid) (validBits level : ℕ) : Bool :=
  match level with
  | 1 => validBits ≠ 0 && decide (4 < u.size)
  | 2 => validBits ≠ 0 && decide (7 < u.size)
  | _ => false

/-- The UID bytes in the buffer, from byte 2 or from behind the cascade tag. -/
def levelData (buffer : List UInt8) : LevelData :=
  if buffer.getD 2 0 = piccCmdCT then
    .tagged (buffer.getD 3 0) (buffer.getD 4 0) (buffer.getD 5 0)
  else .plain (buffer.getD 2 0) (buffer.getD 3 0) (buffer.getD 4 0) (buffer.getD 5 0)

def checkSak (r : Selected) : Spi (Except Failure (List UInt8 × UInt8)) :=
  if r.responseLength ≠ 3 ∨ r.txLastBits ≠ 0 then pure (.error ⟨.error, by decide⟩)
  else do
    let sak := r.buffer.getD 6 0
    let crc ← pcdCalculateCRC [sak]
    match crc with
    | .error e => pure (.error e)
    | .ok (low, high) =>
      if low ≠ r.buffer.getD 7 0 ∨ high ≠ r.buffer.getD 8 0 then pure (.error ⟨.crcWrong, by decide⟩)
      else pure (.ok ((r.buffer.set 2 low).set 3 high, sak))

/-- The buffer and the number of known bits a level starts with. -/
def levelStart (u : Uid) (validBits level : ℕ) (buffer : List UInt8) : List UInt8 × ℕ :=
  let tag := useCascadeTag u validBits level
  let known := validBits - 8 * uidIndex level
  let buffer := buffer.set 0 (selCommand level)
  let buffer := if tag then buffer.set 2 piccCmdCT else buffer
  let index := if tag then 3 else 2
  let bytesToCopy := min (known / 8 + if known % 8 ≠ 0 then 1 else 0) (if tag then 3 else 4)
  let buffer := (List.range bytesToCopy).foldl
    (fun b count => b.set (index + count) (u.byte (uidIndex level + count))) buffer
  (buffer, if tag then known + 8 else known)

def selectLevel (u : Uid) (validBits level : ℕ) (buffer : List UInt8) : Spi Level := do
  let (buffer, known) := levelStart u validBits level buffer
  let r ← selectLoop 33 buffer known
  match r with
  | .error e => pure (.failed e)
  | .ok r =>
    let outcome ← checkSak r
    pure (.copied (levelData r.buffer) outcome)

theorem level_size_le (n : ℕ) : 3 * (3 - n) + 1 ≤ 10 := by omega

/-- `while (!uidComplete)`, with `n` levels left before `cascadeLevel` leaves its range. -/
def cascade (validBits : ℕ) : ℕ → Uid → List UInt8 → Spi (StatusCode × Uid)
  | 0, u, _ => pure (.internalError, u)
  | n + 1, u, buffer => do
    let level := 3 - n
    let l ← selectLevel u validBits level buffer
    match l with
    | .failed e => pure (e.1, u)
    | .copied data outcome =>
      let u := u.copy (uidIndex level) data.bytes
      match outcome with
      | .error e => pure (e.1, u)
      | .ok (buffer, sak) =>
        if sak &&& 0x04 ≠ 0 then cascade validBits n u buffer
        else pure (.ok, { u with sak := sak, size := 3 * level + 1, size_le := level_size_le n })

/-- `PICC_Select`; `buffer` holds what the local array holds on entry. -/
def piccSelect (u : Uid) (validBits : ℕ) (buffer : List UInt8) : Spi (StatusCode × Uid) :=
  if 80 < validBits then pure (.invalid, u)
  else do
    pcdClrRegisterBits .collReg 0x80
    cascade validBits 3 u buffer

/-- `PICC_ReadCardSerial`: could the UID be read, and `RfChip.uid` afterwards. -/
def piccReadCardSerial (u : Uid) (buffer : List UInt8) : Spi (Bool × Uid) := do
  let (result, u) ← piccSelect u 0 buffer
  pure (result = .ok, u)

/-! ## Answers of the chip -/

/-- To `PICC_RequestA`, when a card answers with ATQA `04 00`. -/
def atqaAnswers : List UInt8 := [0, 0, 0, 0x30, 0, 2, 0x04, 0x00, 0]

/-- To a command that no card answers. -/
def silence : List UInt8 := [0, 0, 0, 0x01]

/-- To `PICC_Select`, when the card with the four UID bytes `a b c d` and the SAK `08` is
selected. -/
def selectAnswers (a b c d : UInt8) : List UInt8 :=
  [0, 0, 0, 0x30, 0, 5, a, b, c, d, a ^^^ b ^^^ c ^^^ d, 0] ++ [0, 0x04, 0, 0] ++
    [0, 0, 0x30, 0, 3, 0x08, 0xB6, 0xDD, 0] ++ [0, 0x04, 0xB6, 0xDD]

end ParkingLot
