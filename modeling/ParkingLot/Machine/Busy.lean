import Mathlib.Data.List.Pairwise
import Mathlib.Order.Lattice

/-!
# Busy intervals

Handlers that do not nest execute in intervals of time that do not overlap. What becomes due
meanwhile waits for the end of the interval; the foreground waits for a free instant.

* `Slot`, `Schedule`: the intervals, in their order.
* `Schedule.handled`: when an event is handled. `Schedule.resume`: when the foreground goes on.
* **`handled_mono`**: events are handled in their order.
* **`handled_le_iff`**: before a free instant an event is handled exactly if it occurs before it.
-/

namespace Machine

variable {α : Type*} [LinearOrder α]

/-- The instants from `start` up to `stop`, the latter left out. -/
structure Slot (α : Type*) [LT α] where
  start : α
  stop : α
  lt : start < stop

namespace Slot

def Has (i : Slot α) (t : α) : Prop := i.start ≤ t ∧ t < i.stop

instance (i : Slot α) (t : α) : Decidable (i.Has t) := inferInstanceAs (Decidable (_ ∧ _))

def Before (i j : Slot α) : Prop := i.stop ≤ j.start

instance (i j : Slot α) : Decidable (i.Before j) := inferInstanceAs (Decidable (_ ≤ _))

end Slot

/-- Intervals that do not overlap, in their order. -/
structure Schedule (α : Type*) [LinearOrder α] where
  list : List (Slot α)
  apart : list.Pairwise Slot.Before

namespace Schedule

/-- Nothing executes. -/
def none : Schedule α := ⟨[], List.Pairwise.nil⟩

/-- An event at `t` is handled at once, or when the interval it falls into ends. -/
def handled (s : Schedule α) (t : α) : α :=
  match s.list.find? fun i => i.Has t with
  | some i => i.stop
  | Option.none => t

/-- The first instant from `t` on that is in no interval. -/
def resume (s : Schedule α) (t : α) : α :=
  s.list.foldl (fun u i => if i.Has u then i.stop else u) t

/-- No interval has the instant. -/
def Free (s : Schedule α) (t : α) : Prop := ∀ i ∈ s.list, ¬ i.Has t

@[simp] theorem handled_none (t : α) : (none : Schedule α).handled t = t := rfl

@[simp] theorem resume_none (t : α) : (none : Schedule α).resume t = t := rfl

/-- **When an event is handled.** -/
theorem handled_cases (s : Schedule α) (t : α) :
    (∃ i ∈ s.list, i.Has t ∧ s.handled t = i.stop) ∨ s.Free t ∧ s.handled t = t := by
  unfold handled
  cases h : s.list.find? fun i => i.Has t with
  | some i =>
    exact Or.inl ⟨i, List.mem_of_find?_eq_some h, by simpa using List.find?_some h, rfl⟩
  | none =>
    refine Or.inr ⟨fun i hi => ?_, rfl⟩
    simpa using List.find?_eq_none.mp h i hi

theorem le_handled (s : Schedule α) (t : α) : t ≤ s.handled t := by
  rcases s.handled_cases t with ⟨i, -, hi, h⟩ | ⟨-, h⟩
  · exact h ▸ hi.2.le
  · exact h.ge

/-- Two intervals of a schedule are the same, or one ends before the other starts. -/
theorem eq_or_before (s : Schedule α) {i j : Slot α} (hi : i ∈ s.list) (hj : j ∈ s.list) :
    i = j ∨ i.Before j ∨ j.Before i := by
  refine List.Pairwise.forall_of_forall_of_flip (R := fun i j => i = j ∨ i.Before j ∨ j.Before i)
    (fun _ _ => Or.inl rfl) (s.apart.imp ?_) (s.apart.imp ?_) hi hj
  · exact fun h => Or.inr (Or.inl h)
  · exact fun h => Or.inr (Or.inr h)

/-- **Events are handled in their order.** -/
theorem handled_mono (s : Schedule α) {t u : α} (h : t ≤ u) : s.handled t ≤ s.handled u := by
  rcases s.handled_cases t with ⟨i, his, hi, ht⟩ | ⟨-, ht⟩
  · rw [ht]
    rcases s.handled_cases u with ⟨j, hjs, hj, hu⟩ | ⟨hfree, hu⟩
    · rw [hu]
      rcases s.eq_or_before his hjs with rfl | hij | hji
      · exact le_rfl
      · exact (hij.trans hj.1).trans hj.2.le
      · exact absurd (hji.trans (hi.1.trans h)) (not_le.mpr hj.2)
    · rw [hu]
      exact not_lt.mp fun hlt => hfree i his ⟨hi.1.trans h, hlt⟩
  · rw [ht]
    exact h.trans (s.le_handled u)

/-- **What is handled before a free instant.** -/
theorem handled_le_iff {s : Schedule α} {t u : α} (hu : s.Free u) : s.handled t ≤ u ↔ t ≤ u := by
  refine ⟨(s.le_handled t).trans, fun h => ?_⟩
  rcases s.handled_cases t with ⟨i, his, hi, ht⟩ | ⟨-, ht⟩
  · rw [ht]
    exact not_lt.mp fun hlt => hu i his ⟨hi.1.trans h, hlt⟩
  · rwa [ht]

/-! ## The foreground -/

theorem le_foldl (l : List (Slot α)) (t : α) :
    t ≤ l.foldl (fun u i => if i.Has u then i.stop else u) t := by
  induction l generalizing t with
  | nil => exact le_rfl
  | cons i l ih =>
    rw [List.foldl_cons]
    split_ifs with h
    · exact h.2.le.trans (ih _)
    · exact ih t

theorem foldl_of_lt {l : List (Slot α)} {t : α} (h : ∀ i ∈ l, t < i.start) :
    l.foldl (fun u i => if i.Has u then i.stop else u) t = t := by
  induction l with
  | nil => rfl
  | cons i l ih =>
    rw [List.foldl_cons, if_neg fun hi => absurd hi.1 (not_le.mpr (h i List.mem_cons_self))]
    exact ih fun j hj => h j (List.mem_cons_of_mem i hj)

theorem free_foldl {l : List (Slot α)} (hl : l.Pairwise Slot.Before) (t : α) :
    ∀ i ∈ l, ¬ i.Has (l.foldl (fun u i => if i.Has u then i.stop else u) t) := by
  induction l generalizing t with
  | nil => exact fun i hi => absurd hi List.not_mem_nil
  | cons i l ih =>
    obtain ⟨hi, hl⟩ := List.pairwise_cons.mp hl
    rw [List.foldl_cons]
    intro j hj
    rcases List.mem_cons.mp hj with rfl | hj
    · -- behind the head nothing leads back into it
      by_cases h : j.Has t
      · rw [if_pos h]
        exact fun hc => absurd hc.2 (not_lt.mpr (le_foldl l _))
      · rw [if_neg h]
        rcases lt_or_ge t j.start with hlt | hge
        · rwa [foldl_of_lt fun k hk => hlt.trans (j.lt.trans_le (hi k hk))]
        · have hstop : j.stop ≤ t := not_lt.mp fun hlt => h ⟨hge, hlt⟩
          exact fun hc => absurd hc.2 (not_lt.mpr (hstop.trans (le_foldl l t)))
    · exact ih hl _ j hj

theorem le_resume (s : Schedule α) (t : α) : t ≤ s.resume t := le_foldl _ t

/-- **The foreground goes on at a free instant.** -/
theorem free_resume (s : Schedule α) (t : α) : s.Free (s.resume t) := free_foldl s.apart t

end Schedule

end Machine
