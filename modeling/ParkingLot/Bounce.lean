import ParkingLot.Accounting
import ParkingLot.Machine.Debounce
import Mathlib.Algebra.Order.Field.Basic
import Mathlib.Tactic.Positivity

/-!
# Exits that bounce

`fish_ISR` waits for 0.1 s after a rising edge and counts an exit if the pin is high then.

* `fishRuns`: the executions of `fish_ISR` on a pin that bounces.
* **`exits_counted_once`**: each passage is counted exactly once, up to the capacity.
-/

namespace ParkingLot

open Machine

section Field

variable {α : Type*} [Field α] [LinearOrder α]

/-- The executions of `fish_ISR`, each with the level of the pin at its test. -/
def fishRuns (w : Waveform (1 / 10 : α)) : List (α × Bool) :=
  handlerRuns (1 / 10) none false w.toggles

/-- The shared variables after some executions. -/
def fishISRs (g : Globals) (rs : List (α × Bool)) : Globals := run (fun g r => fishISR r.2 g) g rs

omit [Field α] [LinearOrder α] in
/-- **High samples are counted up to the capacity.** -/
theorem fishISRs_avaliableSpots {g : Globals} (hg : g.avaliableSpots ≤ numberOfParkSpots)
    (rs : List (α × Bool)) :
    (fishISRs g rs).avaliableSpots =
      min numberOfParkSpots (g.avaliableSpots + rs.countP Prod.snd) := by
  induction rs generalizing g with
  | nil => simpa [fishISRs] using hg
  | cons r rs ih =>
    obtain ⟨t, pin⟩ := r
    change (fishISRs (fishISR pin g) rs).avaliableSpots = _
    rw [fishISR_eq]
    cases pin with
    | false =>
      rw [if_neg fun h => Bool.false_ne_true h.1, ih hg, List.countP_cons]
      simp
    | true =>
      by_cases hlt : g.avaliableSpots < numberOfParkSpots
      · rw [if_pos ⟨rfl, hlt⟩, ih (Int.add_one_le_iff.mpr hlt), List.countP_cons]
        simp only [if_true]
        push_cast
        omega
      · rw [if_neg fun h => hlt h.2, ih hg, List.countP_cons]
        simp only [if_true]
        push_cast
        omega

variable [IsStrictOrderedRing α]

/-- **Each passage is counted exactly once.** From any state of the system and for any pin that
bounces for less than 0.1 s and is steady for at least 0.2 s: `fish_ISR` finds the pin high once for
each passage, when it starts at the first edge, and low if it starts again at the end of the
passage. -/
theorem exits_counted_once (s : LotEntry) (as : List Label) (w : Waveform (1 / 10 : α)) :
    let g := (run next s.state as).2
    fishRuns w = w.passages.flatMap passageRuns ∧
      (fishRuns w).countP Prod.snd = w.passages.length ∧
      (fishISRs g (fishRuns w)).avaliableSpots =
        min numberOfParkSpots (g.avaliableSpots + w.passages.length) := by
  have hruns : fishRuns w = w.passages.flatMap passageRuns := handlerRuns_eq (by positivity) w
  have hcount : (fishRuns w).countP Prod.snd = w.passages.length := by
    rw [hruns, countP_passageRuns]
  refine ⟨hruns, hcount, ?_⟩
  rw [fishISRs_avaliableSpots (inBounds_run s as).le, hcount]

end Field

/-- A car passes for one second, and the pin bounces at both ends. -/
def bouncingCar : Waveform (1 / 10 : ℚ) where
  passages :=
    [(⟨0, [1 / 100, 3 / 100], by decide +kernel, by decide +kernel, by decide⟩,
      ⟨1, [101 / 100, 105 / 100], by decide +kernel, by decide +kernel, by decide⟩)]
  steady := by decide +kernel

theorem bouncingCar_counted :
    fishRuns bouncingCar = [(0, true), (101 / 100, false)] :=
  (exits_counted_once (LotEntry.boot { distance := 100 }) [] bouncingCar).1.trans (by decide +kernel)

end ParkingLot
