import ParkingLot.Radix.Spell
import ParkingLot.Reader.Select
import Mathlib.Data.List.GetD
import Mathlib.Data.Set.Insert

/-!
# The textual ID of a card

`getCardID` writes the bytes of the UID with `"%X"`, without padding, and `checkList` compares the
resulting strings.

* `sprintfX`, `getCardID`, `checkList`: the functions of `main.cpp`.
* `checkList_iff`: the scan finds exactly the entries of the list.
* `getCardID_eq_iff`: two UIDs have one ID when their bytes are spelled alike in base 16.
* **`getCardID_unique_iff`**: the UIDs that no other UID shares its ID with.
-/

namespace ParkingLot

open Spell

def masterID : String := "1589AB"

/-- A hexadecimal digit as `"%X"` prints it. -/
def hexDigit (n : ℕ) : Char :=
  if n < 10 then Char.ofNat (48 + n) else Char.ofNat (55 + n)

/-- `sprintf(buffer, "%X", b)`: one digit below 16, two from there on. -/
def sprintfX (b : UInt8) : String :=
  if b.toNat < 16 then String.ofList [hexDigit b.toNat]
  else String.ofList [hexDigit (b.toNat / 16), hexDigit (b.toNat % 16)]

/-- The string after `i` turns of the loop of `getCardID`. -/
def cardIDUpTo (u : Uid) (i : ℕ) : String :=
  (List.range i).foldl (fun currentCardID i => currentCardID ++ sprintfX (u.byte i)) ""

def getCardID (u : Uid) : String := cardIDUpTo u u.size

/-- The loop of `checkList` from index `i`, with `n` turns left. -/
def checkListFrom (cardID : String) (idList : List String) : ℕ → ℕ → Bool
  | 0, _ => false
  | n + 1, i => if cardID = idList.getD i "" then true else checkListFrom cardID idList n (i + 1)

def checkList (cardID : String) (idList : List String) : Bool :=
  checkListFrom cardID idList idList.length 0

theorem checkListFrom_iff (cardID : String) (l : List String) : ∀ n i, i + n = l.length →
    (checkListFrom cardID l n i = true ↔ cardID ∈ l.drop i)
  | 0, i, h => by
    rw [List.drop_eq_nil_of_le (by omega)]
    simp [checkListFrom]
  | n + 1, i, h => by
    have hi : i < l.length := by omega
    rw [checkListFrom, List.drop_eq_getElem_cons hi, List.mem_cons, List.getD_eq_getElem _ _ hi,
      ← checkListFrom_iff cardID l n (i + 1) (by omega)]
    split_ifs with hc <;> simp [hc]

/-- **The scan finds exactly the entries.** -/
@[simp] theorem checkList_iff {cardID : String} {idList : List String} :
    checkList cardID idList = true ↔ cardID ∈ idList := by
  rw [checkList, checkListFrom_iff cardID idList _ 0 (by omega), List.drop_zero]

/-! ## The ID as a spelling -/

theorem hexDigit_inj : ∀ a < 16, ∀ b < 16, hexDigit a = hexDigit b → a = b := by decide

theorem map_hexDigit_inj : ∀ {s t : List ℕ}, (∀ d ∈ s, d < 16) → (∀ d ∈ t, d < 16) →
    s.map hexDigit = t.map hexDigit → s = t
  | [], [], _, _, _ => rfl
  | [], b :: t, _, _, h => by simp at h
  | a :: s, [], _, _, h => by simp at h
  | a :: s, b :: t, hs, ht, h => by
    obtain ⟨hab, hst⟩ := List.cons.inj h
    rw [hexDigit_inj a (hs a (by simp)) b (ht b (by simp)) hab,
      map_hexDigit_inj (fun d hd => hs d (by simp [hd])) (fun d hd => ht d (by simp [hd])) hst]

theorem toList_sprintfX (b : UInt8) : (sprintfX b).toList = (digits 16 b.toNat).map hexDigit := by
  unfold sprintfX digits
  split_ifs <;> simp

theorem cardIDUpTo_succ (u : Uid) (i : ℕ) :
    cardIDUpTo u (i + 1) = cardIDUpTo u i ++ sprintfX (u.byte i) := by
  simp [cardIDUpTo, List.range_succ]

def nats (u : Uid) : List ℕ := u.bytes.map UInt8.toNat

theorem length_nats (u : Uid) : (nats u).length = u.size := by simp [nats, Uid.bytes]

theorem fits_nats (u : Uid) : Fits 16 (nats u) := by
  intro a ha
  obtain ⟨b, -, rfl⟩ := List.mem_map.mp ha
  exact b.toNat_lt

/-- **The ID is the spelling of the bytes.** -/
theorem toList_getCardID (u : Uid) : (getCardID u).toList = (spell 16 (nats u)).map hexDigit := by
  have h : ∀ i, (cardIDUpTo u i).toList =
      (spell 16 (((List.range i).map u.byte).map UInt8.toNat)).map hexDigit := by
    intro i
    induction i with
    | zero => rfl
    | succ i ih =>
      rw [cardIDUpTo_succ, String.toList_append, ih, toList_sprintfX, List.range_succ]
      simp
  exact h u.size

theorem getCardID_eq_iff (u v : Uid) :
    getCardID u = getCardID v ↔ spell 16 (nats u) = spell 16 (nats v) := by
  rw [← String.toList_inj, toList_getCardID, toList_getCardID]
  constructor
  · exact map_hexDigit_inj (digit_lt_of_mem_spell (by omega) (fits_nats u))
      (digit_lt_of_mem_spell (by omega) (fits_nats v))
  · exact congrArg _

theorem nats_inj {u v : Uid} : nats u = nats v ↔ u.bytes = v.bytes :=
  List.map_inj_right fun _ _ h => UInt8.toNat_inj.mp h

/-! ## UIDs of the legal sizes -/

def LegalSize (u : Uid) : Prop := u.size = 4 ∨ u.size = 7 ∨ u.size = 10

instance (u : Uid) : Decidable (LegalSize u) := inferInstanceAs (Decidable (_ ∨ _ ∨ _))

def Uid.ofBytes (l : List UInt8) (h : l.length ≤ 10) : Uid :=
  { Uid.init.copy 0 l with size := l.length, size_le := h }

theorem bytes_ofBytes (l : List UInt8) (h : l.length ≤ 10) : (Uid.ofBytes l h).bytes = l := by
  refine List.ext_getElem (by simp [Uid.bytes, Uid.ofBytes]) fun i h1 h2 => ?_
  have hb : (Uid.ofBytes l h).byte i = (Uid.init.copy 0 l).byte i := rfl
  simp only [Uid.bytes, List.getElem_map, List.getElem_range, hb]
  rw [Uid.byte_copy _ _ _ _ (by omega), if_pos (by omega), Nat.sub_zero, List.getD_eq_getElem _ _ h2]

/-- **UIDs with an ID of their own.** At most two bytes from `0x10` on, unless there are ten bytes;
and each one-digit byte stands apart from its neighbours, or all bytes have one digit and, from
seven bytes on, fewer than three disjoint neighbouring pairs start with a nonzero byte. -/
def Identifying (bytes : List UInt8) : Prop :=
  let d := bytes.map UInt8.toNat
  (bytes.length = 10 ∨ wides 16 d < 3) ∧
    (Rigid 16 d ∨ wides 16 d = 0 ∧ (bytes.length = 4 ∨ pairs d < 3))

instance (bytes : List UInt8) : Decidable (Identifying bytes) :=
  inferInstanceAs (Decidable ((_ ∨ _ < _) ∧ (_ ∨ _ = _ ∧ (_ ∨ _ < _))))

theorem unambiguous_iff {u : Uid} (hu : LegalSize u) :
    Unambiguous 16 {4, 7, 10} (nats u) ↔ Identifying u.bytes := by
  have hlen : u.bytes.length = u.size := by simp [Uid.bytes]
  simp only [Unambiguous, Identifying, length_nats, hlen, Set.mem_insert_iff, Set.mem_singleton_iff,
    forall_eq_or_imp, forall_eq]
  change _ ↔ (u.size = 10 ∨ wides 16 (nats u) < 3) ∧
    (Rigid 16 (nats u) ∨ wides 16 (nats u) = 0 ∧ (u.size = 4 ∨ pairs (nats u) < 3))
  have hpairs : wides 16 (nats u) = 0 → 2 * pairs (nats u) ≤ u.size := by
    intro _
    rw [← length_nats]
    exact two_mul_pairs_le _
  refine and_congr ?_ (or_congr Iff.rfl (and_congr_right fun h0 => ?_))
  · rcases hu with h | h | h <;> omega
  · have := hpairs h0
    rcases hu with h | h | h <;> omega

/-- **When a string stands for one card.** Among the UIDs of the legal sizes, `u` is the only one
with its ID exactly when its bytes are `Identifying`. -/
theorem getCardID_unique_iff (u : Uid) (hu : LegalSize u) :
    (∀ v : Uid, LegalSize v → getCardID u = getCardID v → u.bytes = v.bytes) ↔
      Identifying u.bytes := by
  rw [← unambiguous_iff hu, ← spell_unique_iff (by omega) {4, 7, 10} (fits_nats u)
    (by rw [length_nats]; exact hu)]
  constructor
  · intro h v hv hvS hs
    -- the list of numbers as a UID
    obtain ⟨w, hw⟩ : ∃ w : Uid, nats w = v := by
      have hlen : (v.map UInt8.ofNat).length ≤ 10 := by
        simp only [Set.mem_insert_iff, Set.mem_singleton_iff] at hvS
        rw [List.length_map]
        omega
      refine ⟨Uid.ofBytes (v.map UInt8.ofNat) hlen, ?_⟩
      rw [nats, bytes_ofBytes, List.map_map]
      refine (List.map_congr_left fun a ha => ?_).trans (List.map_id v)
      exact Nat.mod_eq_of_lt (hv a ha)
    subst hw
    rw [length_nats] at hvS
    exact nats_inj.mpr (h w hvS ((getCardID_eq_iff u w).mpr hs))
  · intro h v hv hs
    refine nats_inj.mp (h (nats v) (fits_nats v) ?_ ((getCardID_eq_iff u v).mp hs))
    rw [length_nats]
    exact hv

theorem getCardID_unique_single :
    LegalSize (Uid.ofBytes [0x12, 0x30, 0x00, 0x0A] (by decide)) ∧
      ∀ v : Uid, LegalSize v →
        getCardID (Uid.ofBytes [0x12, 0x30, 0x00, 0x0A] (by decide)) = getCardID v →
          (Uid.ofBytes [0x12, 0x30, 0x00, 0x0A] (by decide)).bytes = v.bytes :=
  ⟨by decide, (getCardID_unique_iff _ (by decide)).mpr (by decide)⟩

/-- **Two UIDs are read as the master card.** -/
theorem exists_two_masters : ∃ u v : Uid, LegalSize u ∧ LegalSize v ∧
    getCardID u = masterID ∧ getCardID v = masterID ∧ u.bytes ≠ v.bytes :=
  ⟨Uid.ofBytes [0x15, 0x89, 0x0A, 0x0B] (by decide),
    Uid.ofBytes [0x01, 0x58, 0x9A, 0x0B] (by decide), by decide⟩

end ParkingLot
