import ParkingLot.Card
import ParkingLot.Reader.Levels
import Mathlib.Tactic.IntervalCases

/-!
# Bytes of an earlier card

`RfChip.uid` outlives the read that filled it. A level whose bytes start with the cascade tag
copies three bytes, any other level four; when the last level is tagged the last byte of the UID is
not written.

* `store_same`: two reads of one card over different `Uid`s agree but for that byte.
* `scan`, `uidAfter`, `decision`: one look for a card, the `Uid` after earlier reads, and what main
  does with the string.
* **`ownAnswer_iff`**: the answer depends on the present card alone exactly when the last level is
  not tagged.
-/

namespace ParkingLot

/-! ## Two reads of one card -/

/-- The bytes stood behind the cascade tag. -/
def LevelData.isTagged : LevelData → Bool
  | .tagged .. => true
  | .plain .. => false

/-- The last level of a completed select starts with the cascade tag. -/
def endsInTag : ℕ → List Level → Bool
  | n + 1, .copied data (.ok (_, sak)) :: ls =>
    if sak &&& 0x04 ≠ 0 then endsInTag n ls
    else data.isTagged
  | _, _ => false

theorem uidIndex_level {n : ℕ} (hn : n < 3) : uidIndex (3 - n) = 3 * (2 - n) := by
  interval_cases n <;> rfl

theorem length_data_bytes (data : LevelData) :
    data.bytes.length = if data.isTagged = true then 3 else 4 := by
  cases data <;> rfl

theorem length_data_le (data : LevelData) : 3 ≤ data.bytes.length ∧ data.bytes.length ≤ 4 := by
  rw [length_data_bytes]
  split_ifs <;> omega

theorem byte_copy_level {n : ℕ} (hn : n < 3) (data : LevelData) {u v : Uid}
    (h : ∀ j, j + 3 * n < 6 → u.byte j = v.byte j) {j : ℕ}
    (hj : j + 3 * n < 6 + data.bytes.length) :
    (u.copy (uidIndex (3 - n)) data.bytes).byte j = (v.copy (uidIndex (3 - n)) data.bytes).byte j := by
  have hlen := length_data_le data
  rw [uidIndex_level hn, Uid.byte_copy _ _ _ _ (by omega), Uid.byte_copy _ _ _ _ (by omega)]
  split_ifs with hc
  · rfl
  · exact h j (by omega)

theorem byte_copy_of_le {n : ℕ} (hn : n < 3) (data : LevelData) (u : Uid) {j : ℕ}
    (hj : 6 + data.bytes.length ≤ j + 3 * n) :
    (u.copy (uidIndex (3 - n)) data.bytes).byte j = u.byte j := by
  have hlen := length_data_le data
  rw [uidIndex_level hn, Uid.byte_copy _ _ _ _ (by omega), if_neg (by omega)]

/-- Reads of one card that led from `u` to `u'` and from `v` to `v'`. -/
structure SameRead (tagged : Bool) (u v u' v' : Uid) : Prop where
  size : u'.size = v'.size
  front : ∀ j, j + 1 < u'.size → u'.byte j = v'.byte j
  stale : tagged = true → ∀ j, j + 1 = u'.size → u'.byte j = u.byte j ∧ v'.byte j = v.byte j
  last : tagged = false → ∀ j, j + 1 = u'.size → u'.byte j = v'.byte j

theorem store_status (n : ℕ) (ls : List Level) (u v : Uid) :
    (store n u ls).1 = (store n v ls).1 := by
  induction n generalizing ls u v with
  | zero => rfl
  | succ n ih =>
    match ls with
    | [] => rfl
    | .failed e :: ls => rfl
    | .copied data (.error e) :: ls => rfl
    | .copied data (.ok (buffer, sak)) :: ls =>
      simp only [store]
      split_ifs
      · exact ih ls _ _
      · rfl

theorem store_size {n : ℕ} (hn : n ≤ 3) {ls : List Level} {u : Uid} (h : (store n u ls).1 = .ok) :
    13 ≤ (store n u ls).2.size + 3 * n := by
  induction n generalizing ls u with
  | zero => cases h
  | succ n ih =>
    match ls with
    | [] => cases h
    | .failed e :: ls => exact absurd h e.2
    | .copied data (.error e) :: ls => exact absurd h e.2
    | .copied data (.ok (buffer, sak)) :: ls =>
      simp only [store] at h ⊢
      split_ifs at h ⊢ with hs
      · have := ih (by omega) h
        omega
      · simp only
        omega

theorem store_ok_of_endsInTag {n : ℕ} {ls : List Level} {u : Uid} (h : endsInTag n ls = true) :
    (store n u ls).1 = .ok := by
  induction n generalizing ls u with
  | zero => simp [endsInTag] at h
  | succ n ih =>
    match ls with
    | [] => simp [endsInTag] at h
    | .failed e :: ls => simp [endsInTag] at h
    | .copied data (.error e) :: ls => simp [endsInTag] at h
    | .copied data (.ok (buffer, sak)) :: ls =>
      simp only [store, endsInTag] at h ⊢
      split_ifs at h ⊢
      · exact ih h
      · rfl

/-- **Two reads of one card.** Over two `Uid`s that agree on the bytes of the levels before, the
same levels give two UIDs that agree on all bytes but the last. Without a tag on the last level
they agree on that too; with a tag it is the byte that was there before. -/
theorem store_same {n : ℕ} (hn : n ≤ 3) {ls : List Level} {u v : Uid}
    (h : ∀ j, j + 3 * n < 9 → u.byte j = v.byte j) (hok : (store n u ls).1 = .ok) :
    SameRead (endsInTag n ls) u v (store n u ls).2 (store n v ls).2 := by
  induction n generalizing ls u v with
  | zero => cases hok
  | succ n ih =>
    match ls with
    | [] => cases hok
    | .failed e :: ls => exact absurd hok e.2
    | .copied data (.error e) :: ls => exact absurd hok e.2
    | .copied data (.ok (buffer, sak)) :: ls =>
      have hlen := length_data_bytes data
      have hle := length_data_le data
      have hcopy := fun j (hj : j + 3 * n < 6 + data.bytes.length) =>
        byte_copy_level (by omega : n < 3) data (fun j hj => h j (by omega)) hj
      simp only [store, endsInTag] at hok ⊢
      by_cases hs : sak &&& 0x04 ≠ 0
      · rw [if_pos hs] at hok
        simp only [if_pos hs]
        have hsize := store_size (by omega) hok
        obtain ⟨h1, h2, h3, h4⟩ := ih (by omega) (fun j hj => hcopy j (by omega)) hok
        refine ⟨h1, h2, fun ht j hj => ?_, h4⟩
        rw [(h3 ht j hj).1, (h3 ht j hj).2]
        exact ⟨byte_copy_of_le (by omega) data u (by omega), byte_copy_of_le (by omega) data v (by omega)⟩
      · simp only [if_neg hs]
        refine ⟨rfl, fun j hj => ?_, fun ht j hj => ?_, fun ht j hj => ?_⟩ <;> simp only at hj
        · exact hcopy j (by omega)
        · rw [if_pos ht] at hlen
          exact ⟨byte_copy_of_le (by omega) _ u (by omega), byte_copy_of_le (by omega) _ v (by omega)⟩
        · rw [if_neg (by simp [ht])] at hlen
          exact hcopy j (by omega)

/-! ## The string of a card -/

theorem cardIDUpTo_congr {u v : Uid} {i : ℕ} (h : ∀ j < i, u.byte j = v.byte j) :
    cardIDUpTo u i = cardIDUpTo v i := by
  induction i with
  | zero => rfl
  | succ i ih =>
    rw [cardIDUpTo_succ, cardIDUpTo_succ, ih fun j hj => h j (by omega), h i (by omega)]

theorem SameRead.getCardID_eq {u v u' v' : Uid} (h : SameRead false u v u' v') :
    getCardID u' = getCardID v' := by
  unfold getCardID
  rw [← h.size]
  refine cardIDUpTo_congr fun j hj => ?_
  by_cases hj' : j + 1 = u'.size
  · exact h.last rfl j hj'
  · exact h.front j (by omega)

theorem SameRead.getCardID_ne {u v u' v' : Uid} (h : SameRead true u v u' v') {k : ℕ}
    (hk : u'.size = k + 1) (hne : sprintfX (u.byte k) ≠ sprintfX (v.byte k)) :
    getCardID u' ≠ getCardID v' := by
  unfold getCardID
  rw [← h.size, hk, cardIDUpTo_succ, cardIDUpTo_succ, (h.stale rfl k hk.symm).1,
    (h.stale rfl k hk.symm).2, cardIDUpTo_congr fun j hj => h.front j (by omega)]
  intro hc
  rw [← String.toList_inj, String.toList_append, String.toList_append] at hc
  exact hne (String.toList_inj.mp (List.append_cancel_left hc))

/-! ## One look for a card -/

/-- `PICC_IsNewCardPresent`, and `PICC_ReadCardSerial` if a card is there: was a UID read, and
`RfChip.uid` afterwards. -/
def scan (bufferATQA buffer : List UInt8) (u : Uid) : Spi (Bool × Uid) := do
  let present ← piccIsNewCardPresent bufferATQA
  if present then piccReadCardSerial u buffer else pure (false, u)

/-- An earlier `PICC_ReadCardSerial`: the contents of its local buffer and the answers it got. -/
structure Reading where
  buffer : List UInt8
  responses : List UInt8

/-- `RfChip.uid` after earlier reads. -/
def uidAfter (h : List Reading) : Uid :=
  h.foldl (fun u r => (piccReadCardSerial u r.buffer (Bus.of r.responses)).1.2) Uid.init

inductive Decision
  | grant | full | deny
  deriving DecidableEq, Repr

/-- `checkList` in main, and the guard of `openProcedure`. -/
def decision (cardID : String) (idList : List String) (avaliableSpots : ℤ) : Decision :=
  if checkList cardID idList then if 0 < avaliableSpots then .grant else .full else .deny

/-- **The answer to a card depends on that card only**: after any two histories the same answers of
the chip give the same success, and then the same string and the same decisions. -/
def OwnAnswer (bufferATQA buffer responses : List UInt8) : Prop :=
  ∀ h₁ h₂ : List Reading,
    let r₁ := (scan bufferATQA buffer (uidAfter h₁) (Bus.of responses)).1
    let r₂ := (scan bufferATQA buffer (uidAfter h₂) (Bus.of responses)).1
    r₁.1 = r₂.1 ∧ (r₁.1 = true → getCardID r₁.2 = getCardID r₂.2 ∧
      ∀ idList avaliableSpots, decision (getCardID r₁.2) idList avaliableSpots =
        decision (getCardID r₂.2) idList avaliableSpots)

/-- A card answers REQA, and its select is completed at a level whose UID bytes start with the
cascade tag. -/
def LastLevelTagged (bufferATQA buffer responses : List UInt8) : Prop :=
  let (present, b) := piccIsNewCardPresent bufferATQA (Bus.of responses)
  present = true ∧ endsInTag 3 (levels 3 buffer (pcdClrRegisterBits .collReg 0x80 b).2).1 = true

theorem piccReadCardSerial_eq (u : Uid) (buffer : List UInt8) (b : Bus) :
    (piccReadCardSerial u buffer b).1 =
      (decide ((store 3 u (levels 3 buffer (pcdClrRegisterBits .collReg 0x80 b).2).1).1 = .ok),
        (store 3 u (levels 3 buffer (pcdClrRegisterBits .collReg 0x80 b).2).1).2) := by
  simp only [piccReadCardSerial, piccSelect, spi_bind, spi_pure]
  rw [if_neg (by omega), spi_bind, cascade_eq]

def tenBytes : Reading where
  buffer := List.replicate 9 0
  responses :=
    let level (b : UInt8) (sak : UInt8) : List UInt8 :=
      [0, 0, 0x30, 0, 5, b, 0x11, 0x11, 0x11, 0, 0] ++ [0, 0x04, 0, 0] ++
        [0, 0, 0x30, 0, 3, sak, 0xA0, 0x0A, 0] ++ [0, 0x04, 0xA0, 0x0A]
    [0] ++ level 0x88 0x04 ++ level 0x88 0x04 ++ level 0x11 0x00

theorem byte_tenBytes : ∀ j < 10, (uidAfter [tenBytes]).byte j = 0x11 := by decide +kernel

/-- **When the answer is the card's own.** -/
theorem ownAnswer_iff (bufferATQA buffer responses : List UInt8) :
    OwnAnswer bufferATQA buffer responses ↔ ¬ LastLevelTagged bufferATQA buffer responses := by
  unfold OwnAnswer LastLevelTagged
  simp only [scan, spi_bind]
  generalize piccIsNewCardPresent bufferATQA (Bus.of responses) = x
  obtain ⟨present, b⟩ := x
  cases present with
  | false => simp [spi_pure]
  | true =>
    simp only [if_true, true_and, piccReadCardSerial_eq, decide_eq_true_eq]
    generalize (levels 3 buffer (pcdClrRegisterBits .collReg 0x80 b).2).1 = ls
    have hsame : ∀ u v, (store 3 u ls).1 = .ok →
        SameRead (endsInTag 3 ls) u v (store 3 u ls).2 (store 3 v ls).2 :=
      fun u v => store_same le_rfl fun j hj => by omega
    constructor
    · intro h ht
      -- compare with no earlier card and with a card that filled all ten bytes
      rw [ht] at hsame
      have hok : (store 3 Uid.init ls).1 = .ok := store_ok_of_endsInTag ht
      have hsize := store_size le_rfl hok
      have hle := (store 3 Uid.init ls).2.size_le
      obtain ⟨k, hk⟩ : ∃ k, (store 3 Uid.init ls).2.size = k + 1 :=
        ⟨_, (Nat.succ_pred_eq_of_pos (by omega)).symm⟩
      refine (hsame Uid.init (uidAfter [tenBytes]) hok).getCardID_ne hk ?_ ((h [] [tenBytes]).2 hok).1
      rw [byte_tenBytes k (by omega)]
      have : ∀ j < 10, Uid.init.byte j = 0 := by decide
      rw [this k (by omega)]
      decide
    · intro ht h₁ h₂
      refine ⟨by rw [store_status 3 ls (uidAfter h₁) (uidAfter h₂)], fun hok => ?_⟩
      rw [Bool.eq_false_iff.mpr ht] at hsame
      have hid := (hsame (uidAfter h₁) (uidAfter h₂) hok).getCardID_eq
      exact ⟨hid, fun _ _ => by rw [hid]⟩

/-- A card that answers the first cascade level with `88 11 22 33` and a SAK without cascade bit. -/
def taggedCard : List UInt8 :=
  [0, 0, 0, 0x30, 0, 2, 0x44, 0x00, 0] ++
    [0, 0, 0, 0x30, 0, 5, 0x88, 0x11, 0x22, 0x33, 0, 0] ++ [0, 0x04, 0, 0] ++
    [0, 0, 0x30, 0, 3, 0x08, 0xA0, 0x0A, 0] ++ [0, 0x04, 0xA0, 0x0A]

/-- **The string of this card ends in a byte of the card before it.** -/
theorem taggedCard_not_own : ¬ OwnAnswer [0, 0] (List.replicate 9 0) taggedCard := by
  intro h
  exact absurd ((h [] [tenBytes]).2 (by decide +kernel)).1 (by decide +kernel)

end ParkingLot
