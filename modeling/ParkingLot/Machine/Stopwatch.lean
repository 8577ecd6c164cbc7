import Mathlib.Algebra.Group.Basic

/-!
# Stopwatches

A stopwatch accumulates the lengths of the slices of time in which it runs.

* `Stopwatch`, `elapsed`: the watch, and what it shows.
* `Idle`: it stands at zero. `Since`: it has run from zero since an instant.
* **`Since.elapsed`**: a watch that has run from zero shows the time in between.
-/

namespace Machine

/-- Is it running, since when, and what earlier slices left on it. -/
structure Stopwatch (α : Type*) where
  running : Bool
  since : α
  kept : α

namespace Stopwatch

variable {α : Type*} [AddMonoid α] [Sub α]

/-- What the watch shows at `t`. -/
def elapsed (w : Stopwatch α) (t : α) : α := w.kept + if w.running then t - w.since else 0

/-- Starting a running watch has no effect. -/
def start (w : Stopwatch α) (t : α) : Stopwatch α :=
  if w.running then w else { w with running := true, since := t }

def stop (w : Stopwatch α) (t : α) : Stopwatch α :=
  { w with running := false, kept := w.elapsed t }

/-- A running watch goes on from zero. -/
def reset (w : Stopwatch α) (t : α) : Stopwatch α := { w with since := t, kept := 0 }

/-- The watch stands at zero. -/
structure Idle (w : Stopwatch α) : Prop where
  stopped : w.running = false
  zero : w.kept = 0

/-- The watch has been running from zero since `t`. -/
structure Since (w : Stopwatch α) (t : α) : Prop where
  running : w.running = true
  zero : w.kept = 0
  since : w.since = t

variable {w : Stopwatch α} {t u : α}

omit [Sub α] in
theorem Idle.start (h : w.Idle) (t : α) : (w.start t).Since t := by
  have hs : w.start t = { w with running := true, since := t } := by
    rw [Stopwatch.start, h.stopped]
    rfl
  rw [hs]
  exact ⟨rfl, h.zero, rfl⟩

omit [Sub α] in
theorem Since.reset (h : w.Since t) (u : α) : (w.reset u).Since u := ⟨h.running, rfl, rfl⟩

theorem Since.elapsed (h : w.Since t) (u : α) : w.elapsed u = u - t := by
  rw [Stopwatch.elapsed, h.running, h.zero, h.since, if_pos rfl, zero_add]

@[simp] theorem elapsed_stop (w : Stopwatch α) (t u : α) : (w.stop t).elapsed u = w.elapsed t :=
  add_zero _

theorem idle_stop_reset (w : Stopwatch α) (t u : α) : ((w.stop t).reset u).Idle := ⟨rfl, rfl⟩

end Stopwatch

end Machine
