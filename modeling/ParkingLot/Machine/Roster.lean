import ParkingLot.Machine.Run
import Mathlib.Data.List.Nodup

/-!
# An append-only register

A register of entries that starts with a founder, never repeats an entry and never loses one. The
laws of its lists are fields, so a register cannot be without its founder.

* `Roster`, `Roster.enrol`: the register, and enrolment of an entry that is not there yet.
* **`Roster.mem_run`**: after any enrolments an entry was there before or is one of them.
* **`Roster.prefix_run`**: no enrolment disturbs the earlier entries.
-/

open Machine

variable {α : Type*}

/-- A list without repetitions whose first entry is `founder`. -/
@[ext] structure Roster (founder : α) where
  entries : List α
  head_eq : entries.head? = some founder
  nodup : entries.Nodup

namespace Roster

variable {founder : α}

def found (founder : α) : Roster founder := ⟨[founder], rfl, List.nodup_singleton _⟩

/-- Earlier and later states of a register. -/
instance : Preorder (Roster founder) where
  le R S := R.entries <+: S.entries
  le_refl R := List.prefix_refl _
  le_trans _ _ _ := List.IsPrefix.trans

variable [DecidableEq α]

/-- Add `x` at the end, unless it is there. -/
def enrol (R : Roster founder) (x : α) : Roster founder :=
  if h : x ∈ R.entries then R
  else
    { entries := R.entries ++ [x]
      head_eq := by
        rw [List.head?_append, R.head_eq]
        rfl
      nodup := R.nodup.append (List.nodup_singleton x) (by simpa using h) }

theorem entries_enrol (R : Roster founder) (x : α) :
    (R.enrol x).entries = if x ∈ R.entries then R.entries else R.entries ++ [x] := by
  unfold enrol
  split_ifs <;> rfl

theorem le_enrol (R : Roster founder) (x : α) : R ≤ R.enrol x := by
  show R.entries <+: (R.enrol x).entries
  rw [entries_enrol]
  split_ifs
  · exact List.prefix_refl _
  · exact List.prefix_append _ _

/-- **Entries stay where they are.** -/
theorem prefix_run (R : Roster founder) (xs : List α) :
    R.entries <+: (run enrol R xs).entries :=
  run_rel (fun S : Roster founder => S) le_enrol R xs

/-- **Where an entry comes from.** -/
theorem mem_run {R : Roster founder} {x : α} {xs : List α} :
    x ∈ (run enrol R xs).entries ↔ x ∈ R.entries ∨ x ∈ xs := by
  induction xs generalizing R with
  | nil => simp
  | cons y ys ih =>
    rw [run_cons, ih, entries_enrol]
    split_ifs with h
    · rw [List.mem_cons]
      constructor
      · rintro (hx | hx)
        · exact Or.inl hx
        · exact Or.inr (Or.inr hx)
      · rintro (hx | rfl | hx)
        · exact Or.inl hx
        · exact Or.inl h
        · exact Or.inr hx
    · rw [List.mem_append, List.mem_singleton, List.mem_cons, or_assoc]

end Roster
