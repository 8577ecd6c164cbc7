import ParkingLot.Reader.Air
import ParkingLot.Machine.Singulate

/-!
# Cards in the field

The other side of the air: cards with UIDs of 4, 7 or 10 bytes, spread over cascade levels as the
table in `PICC_Select` has it. Every card whose first bits are those of an ANTICOLLISION frame sends
the rest of its bits, at the same time; a SELECT with all bits of a level is answered with a SAK, by
every card that has these bits there.

* `Card`, `Card.block`: a card, and its four bytes at a cascade level.
* `anticollisionFrame`, `selectFrame`: the frames that the cards understand.
* `Course`: how the anticollision loop of one level can go.
* `Cascade`: how the cascade levels can go, and the card that is singled out.
-/

namespace ParkingLot

open Machine

/-! ## Cards -/

/-- A card: a UID of 4, 7 or 10 bytes, and a SAK for each of its cascade levels. Bit 2 of a SAK says
that the UID goes on. -/
structure Card where
  uid : List UInt8
  saks : List UInt8
  length_eq : uid.length = 3 * saks.length + 1
  saks_pos : 1 ≤ saks.length
  saks_le : saks.length ≤ 3
  goes_on_iff : ∀ i < saks.length, saks.getD i 0 &&& 0x04 ≠ 0 ↔ i + 1 < saks.length
  deriving DecidableEq

namespace Card

def levels (c : Card) : ℕ := c.saks.length

/-- The four bytes at a cascade level: three behind the cascade tag, or the last four. -/
def block (c : Card) (level : ℕ) : List UInt8 :=
  if level < c.levels then piccCmdCT :: (c.uid.drop (3 * (level - 1))).take 3
  else c.uid.drop (3 * (level - 1))

/-- The SAK at a cascade level. -/
def sakAt (c : Card) (level : ℕ) : UInt8 := c.saks.getD (level - 1) 0

/-- The SAK of the complete UID. -/
def sak (c : Card) : UInt8 := c.sakAt c.levels

/-- The last four bytes begin like a cascade tag. -/
def Tagged (c : Card) : Prop := c.uid.getD (3 * (c.levels - 1)) 0 = piccCmdCT

instance (c : Card) : Decidable c.Tagged := inferInstanceAs (Decidable (_ = _))

variable {c c' : Card} {level : ℕ}

theorem length_uid (c : Card) : c.uid.length = 3 * c.levels + 1 := c.length_eq

theorem levels_pos (c : Card) : 1 ≤ c.levels := c.saks_pos

theorem levels_le (c : Card) : c.levels ≤ 3 := c.saks_le

theorem block_of_lt (h : level < c.levels) :
    c.block level = piccCmdCT :: (c.uid.drop (3 * (level - 1))).take 3 := if_pos h

theorem block_last (c : Card) : c.block c.levels = c.uid.drop (3 * (c.levels - 1)) :=
  if_neg (Nat.lt_irrefl _)

theorem length_block (h1 : 1 ≤ level) (h2 : level ≤ c.levels) : (c.block level).length = 4 := by
  have := c.length_uid
  unfold block
  split_ifs
  · simp only [List.length_cons, List.length_take, List.length_drop]
    omega
  · rw [List.length_drop]
    omega

/-- A SAK says whether the UID goes on. -/
theorem sakAt_iff (h1 : 1 ≤ level) (h2 : level ≤ c.levels) :
    c.sakAt level &&& 0x04 ≠ 0 ↔ level < c.levels := by
  have h := c.goes_on_iff (level - 1) (by unfold levels at h2; omega)
  rwa [Nat.sub_add_cancel h1] at h

end Card

/-! ## Frames -/

/-- `BitFramingReg` for `known` bits: both alignments. -/
def framing (known : ℕ) : UInt8 := (UInt8.ofNat (known % 8) <<< 4) + UInt8.ofNat (known % 8)

/-- NVB: whole bytes in the high nibble, SEL and NVB among them, and further bits in the low one. -/
def nvb (known : ℕ) : UInt8 := UInt8.ofNat (16 * (2 + known / 8) + known % 8)

/-- SEL, NVB and the known bits. -/
def anticollisionFrame (level : ℕ) (p : ℕ → Bool) (known : ℕ) : Frame :=
  airBits [selCommand level, nvb known] 0 ++ (List.range known).map p

/-- The Block Check Character. -/
def bcc (w : List UInt8) : UInt8 := w.getD 0 0 ^^^ w.getD 1 0 ^^^ w.getD 2 0 ^^^ w.getD 3 0

/-- SEL, NVB, the UID bytes of the level and the BCC. -/
def selectBytes (level : ℕ) (w : List UInt8) : List UInt8 := [selCommand level, 0x70] ++ w ++ [bcc w]

def selectFrame (crc : Checksum) (level : ℕ) (w : List UInt8) : Frame :=
  airBits (selectBytes level w ++
    [(crc (selectBytes level w)).1, (crc (selectBytes level w)).2]) 0

/-! ## One level -/

/-- The bytes that are received carry the bits `k` to `n` of `w`, where the first byte received is
the one that bit `k` is in. -/
structure Carries (k n : ℕ) (w data : List UInt8) : Prop where
  length_eq : data.length = 5 - k / 8
  bit_eq : ∀ i, k ≤ i → i < n → bitAt data (i - 8 * (k / 8)) = bitAt w i

/-- The known bits, followed by what was received. -/
def received (k : ℕ) (p : ℕ → Bool) (data : List UInt8) (i : ℕ) : Bool :=
  if i < k then p i else bitAt data (i - 8 * (k / 8))

/-- What the driver makes of the bits after a collision at bit `d`: it sets bit `d`, unless `d` is
the first or the last bit of its byte. Then it sets the same bit of the byte before or after. -/
def mark (d : ℕ) (p : ℕ → Bool) (i : ℕ) : Bool :=
  p i || decide (i + (if d % 8 = 0 then 8 else 0) = d + if d % 8 = 7 then 8 else 0)

section Level

variable (crc : Checksum) (level : ℕ) (cards : List Card)

/-- The bytes of the cards at a level. -/
def blocks : Set (List UInt8) := {w | ∃ c ∈ cards, c.block level = w}

/-- A course of the anticollision loop, from `k` known bits `p` on: the answers of the chip, the
frames sent, and the bytes and the SAK of the level when it is selected. The SAKs of several cards
collide unless they are the same, whatever `CollReg` says about the place. -/
inductive Course : ℕ → (ℕ → Bool) → List UInt8 → List Frame → Option (List UInt8 × UInt8) → Prop
  | silent {k : ℕ} {p : ℕ → Bool} {ins : List UInt8} : k < 32 →
    (∀ w ∈ blocks level cards, ¬ Agrees bitAt p k w) → Answers (framing k) .silence ins →
    Course k p ins [anticollisionFrame level p k] none
  | clear {k : ℕ} {p : ℕ → Bool} {w data ins ins' : List UInt8} {frames : List Frame}
    {o : Option (List UInt8 × UInt8)} : k < 32 → Alone bitAt (blocks level cards) p k 32 w →
    Carries k 32 w data → Answers (framing k) (.clear data) ins →
    Course 32 (received k p data) ins' frames o →
    Course k p (ins ++ ins') (anticollisionFrame level p k :: frames) o
  | collision {k d : ℕ} {p : ℕ → Bool} {w data ins ins' : List UInt8} {coll lastBits : UInt8}
    {frames : List Frame} {o : Option (List UInt8 × UInt8)} : k < 32 →
    Collision bitAt (blocks level cards) p k 32 d w → Carries k d w data →
    Answers (framing k) (.collision data lastBits) ins → coll &&& 0x20 = 0 →
    collisionPos coll = d + 1 → Course (d + 1) (mark d (received k p data)) ins' frames o →
    Course k p (ins ++ ([coll] ++ ins')) (anticollisionFrame level p k :: frames) o
  | refused {p : ℕ → Bool} {w ins ins' : List UInt8} : w.length = 4 → (∀ i < 32, bitAt w i = p i) →
    w ∉ blocks level cards → CrcAnswers crc (selectBytes level w) ins →
    Answers (framing 0) .silence ins' →
    Course 32 p (ins ++ ins') [selectFrame crc level w] none
  | selected {p : ℕ → Bool} {w ins ins' : List UInt8} {sak : UInt8} : w.length = 4 →
    (∀ i < 32, bitAt w i = p i) → w ∈ blocks level cards →
    (∀ c ∈ cards, c.block level = w → c.sakAt level = sak) →
    CrcAnswers crc (selectBytes level w) ins →
    Answers (framing 0) (.clear [sak, (crc [sak]).1, (crc [sak]).2]) ins' →
    Course 32 p (ins ++ ins') [selectFrame crc level w] (some (w, sak))
  | disputed {p : ℕ → Bool} {w data ins ins' : List UInt8} {coll lastBits : UInt8} {c c' : Card} :
    w.length = 4 → (∀ i < 32, bitAt w i = p i) → c ∈ cards → c' ∈ cards → c.block level = w →
    c'.block level = w → c.sakAt level ≠ c'.sakAt level → CrcAnswers crc (selectBytes level w) ins →
    data.length ≤ 3 → Answers (framing 0) (.collision data lastBits) ins' →
    Course 32 p (ins ++ (ins' ++ [coll])) [selectFrame crc level w] none

end Level

/-! ## The cascade -/

/-- The cards that are selected with the bytes `w`. -/
def chosen (level : ℕ) (w : List UInt8) (cards : List Card) : List Card :=
  cards.filter fun c => c.block level = w

/-- How the cascade can go with the cards in the field, from a level on. -/
inductive Cascade (crc : Checksum) :
    ℕ → List Card → List UInt8 → List Frame → Option Card → Prop
  | lost {level : ℕ} {cards : List Card} {p : ℕ → Bool} {ins : List UInt8} {frames : List Frame} :
    Course crc level cards 0 p ins frames none → Cascade crc level cards ins frames none
  | last {level : ℕ} {cards : List Card} {p : ℕ → Bool} {w ins ins' : List UInt8} {sak : UInt8}
    {frames : List Frame} {c : Card} :
    Course crc level cards 0 p ins frames (some (w, sak)) → c ∈ chosen level w cards →
    sak &&& 0x04 = 0 → CrcAnswers crc [sak] ins' →
    Cascade crc level cards (ins ++ ins') frames (some c)
  | deeper {level : ℕ} {cards : List Card} {p : ℕ → Bool} {w ins ins' ins'' : List UInt8}
    {sak : UInt8} {frames frames' : List Frame} {o : Option Card} :
    Course crc level cards 0 p ins frames (some (w, sak)) → sak &&& 0x04 ≠ 0 →
    CrcAnswers crc [sak] ins' → Cascade crc (level + 1) (chosen level w cards) ins'' frames' o →
    Cascade crc level cards (ins ++ (ins' ++ ins'')) (frames ++ frames') o

end ParkingLot
