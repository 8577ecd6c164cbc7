import ParkingLot.System
import Mathlib.Order.Interval.Set.Defs

/-!
# The barrier and the cars

Runs whose steps take place at instants of a linear order, with a timeline of a car being in the
gateway.

* `Watch`: the system, the time, and the instant of the last distance reading of `openProcedure`.
* `Exact`, `Closes`: the sensor reads the timeline; the gate goes from open to closed.
* **`gate_clear_of_car`**: the gate is never closed on a car, in the runs in which no car comes in
  between the last reading and the closing.
-/

namespace ParkingLot

open Machine

/-- The points at which the gate can be open. -/
def PC.Raised : PC → Prop
  | .openLcd _ | .openDist | .openTimer | .openNear | .openRead | .openIf | .openBlue _ | .openLoad
  | .openStore | .openCount | .openStop | .afterOpen | .closeLed _ | .closeGate => True
  | _ => False

/-- The points between a reading and the end of the loop that waits for the car. -/
def PC.Waiting : PC → Prop
  | .openTimer | .openNear | .openRead | .openIf | .openBlue _ | .openLoad | .openStore
  | .openCount => True
  | _ => False

/-- The points between that loop and the closing of the gate. -/
def PC.Leaving : PC → Prop
  | .openStop | .afterOpen | .closeLed _ | .closeGate => True
  | _ => False

instance (p : PC) : Decidable p.Raised := by
  apply PC.casesOn (motive := fun p => Decidable p.Raised) p <;> intros <;>
    first | exact instDecidableTrue | exact instDecidableFalse

instance (p : PC) : Decidable p.Waiting := by
  apply PC.casesOn (motive := fun p => Decidable p.Waiting) p <;> intros <;>
    first | exact instDecidableTrue | exact instDecidableFalse

instance (p : PC) : Decidable p.Leaving := by
  apply PC.casesOn (motive := fun p => Decidable p.Leaving) p <;> intros <;>
    first | exact instDecidableTrue | exact instDecidableFalse

theorem flow_raised : ∀ p : PC, p.Raised → ∀ q ∈ p.flow, q.Raised ∨ p = .closeGate := by
  decide +kernel

theorem flow_openGate : ∀ q ∈ PC.openGate.flow, q.Raised := by decide

theorem flow_waiting : ∀ p : PC, ∀ q ∈ p.flow, q.Waiting → p.Waiting ∨ p.Reads := by decide +kernel

theorem flow_leaving : ∀ p : PC, p.Raised → ∀ q ∈ p.flow, q.Leaving →
    p.Leaving ∨ p = .openNear ∧ q = .openStop := by decide +kernel

section Timed

variable {T : Type*} [LinearOrder T]

/-- The system, the time of the last step, and the instant of the last reading of
`openProcedure`. -/
structure Watch (T : Type*) where
  sys : Main × Globals
  now : T
  reading : T

namespace Watch

/-- A step at the instant `a.1`. -/
def next (w : Watch T) (a : T × Label) : Watch T where
  sys := ParkingLot.next w.sys a.2
  now := a.1
  reading := if a.2.isLeft ∧ w.sys.1.pc.Reads then a.1 else w.reading

def start (s : LoopEntry) (t : T) : Watch T := ⟨s.state, t, t⟩

variable (car : T → Prop)

/-- Time does not run backwards, and a reading is below the baseline if and only if a car is in the
gateway at that instant. -/
def Exact (w : Watch T) (a : T × Label) : Prop :=
  w.now ≤ a.1 ∧
    match a.2 with
    | .inl e => w.sys.1.pc.Reads → (e.distance < w.sys.1.gateDistanceCm ↔ car a.1)
    | .inr _ => True

def Closes (w : Watch T) (a : T × Label) : Prop :=
  w.sys.2.gate = .opened ∧ (w.next a).sys.2.gate = .closed

/-- No car comes in between the last reading and the closing of the gate. -/
def Unoccupied (w : Watch T) (a : T × Label) : Prop :=
  w.Closes a → ¬ car w.reading → ∀ u ∈ Set.Icc w.reading a.1, ¬ car u

instance (w : Watch T) (a : T × Label) : Decidable (w.Closes a) :=
  inferInstanceAs (Decidable (_ ∧ _))

instance [DecidablePred car] (w : Watch T) (a : T × Label) : Decidable (w.Exact car a) := by
  unfold Exact
  obtain ⟨t, e | h⟩ := a <;> infer_instance

/-! ## What main knows about the gateway -/

/-- What main knows: where the gate can be open, what it read, and that it read no car when it
leaves the loop. -/
structure Aware (w : Watch T) : Prop where
  past : w.reading ≤ w.now
  raised : w.sys.2.gate = .opened → w.sys.1.pc.Raised
  waiting : w.sys.1.pc.Waiting → (w.sys.1.distanceCm < w.sys.1.gateDistanceCm ↔ car w.reading)
  leaving : w.sys.2.gate = .opened → w.sys.1.pc.Leaving → ¬ car w.reading

variable {car}

theorem opened_of_mainStep {m : Main} {g : Globals} {e : Env}
    (h : (mainStep m g e).2.gate = .opened) :
    m.pc = .openGate ∨ g.gate = .opened ∧ m.pc ≠ .closeGate := by
  rw [mainStep_gate] at h
  revert h
  cases m.pc <;> simp

theorem aware_main {m : Main} {g : Globals} {now r t : T} {e : Env}
    (hx : Exact car ⟨(m, g), now, r⟩ (t, .inl e)) (hw : Aware car ⟨(m, g), now, r⟩) :
    Aware car (next ⟨(m, g), now, r⟩ (t, .inl e)) := by
  obtain ⟨hpast, hraised, hwait, hleave⟩ := hw
  have hflow := mainStep_flow m g e
  have hnext : next ⟨(m, g), now, r⟩ (t, .inl e) =
      ⟨mainStep m g e, t, if m.pc.Reads then t else r⟩ := by
    simp [next]
  rw [hnext]
  refine ⟨?_, fun hg => ?_, fun hpc => ?_, fun hg hpc => ?_⟩
  · show (if m.pc.Reads then t else r) ≤ t
    split_ifs
    · exact le_rfl
    · exact hpast.trans hx.1
  · rcases opened_of_mainStep hg with h | ⟨h, hne⟩
    · rw [h] at hflow
      exact flow_openGate _ hflow
    · exact (flow_raised _ (hraised h) _ hflow).resolve_right hne
  · have hinit : m.pc ≠ .initDist := by
      intro h
      rcases flow_waiting _ _ hflow hpc with h' | h' <;> rw [h] at h'
      · exact h'
      · exact absurd h' (by decide)
    show (mainStep m g e).1.distanceCm < (mainStep m g e).1.gateDistanceCm ↔
      car (if m.pc.Reads then t else r)
    rw [mainStep_gateDistanceCm, if_neg hinit, mainStep_distanceCm]
    by_cases hr : m.pc.Reads
    · rw [if_pos hr, if_pos hr]
      exact hx.2 hr
    · rw [if_neg hr, if_neg hr]
      exact hwait ((flow_waiting _ _ hflow hpc).resolve_right hr)
  · show ¬ car (if m.pc.Reads then t else r)
    rcases opened_of_mainStep hg with h | ⟨h, -⟩
    · rw [h] at hflow
      rw [List.mem_singleton.mp hflow] at hpc
      exact hpc.elim
    · rcases flow_leaving m.pc (hraised h) _ hflow hpc with hl | ⟨hnear, hstop⟩
      · have hr : ¬ m.pc.Reads := by
          rintro (h' | h') <;> rw [h'] at hl <;> exact hl
        rw [if_neg hr]
        exact hleave h hl
      · -- the loop ends on a reading at or above the baseline
        rw [if_neg (by rw [hnear]; decide)]
        have hge : ¬ m.distanceCm < m.gateDistanceCm := by simpa [mainStep_pc, hnear] using hstop
        exact fun hcar => hge ((hwait (hnear ▸ trivial)).mpr hcar)

theorem aware_next (w : Watch T) (a : T × Label) (hx : w.Exact car a) (hw : w.Aware car) :
    (w.next a).Aware car := by
  obtain ⟨⟨m, g⟩, now, r⟩ := w
  obtain ⟨t, e | h⟩ := a
  · exact aware_main hx hw
  · have hgate : (handle g h).gate = g.gate := handle_gate g h
    have hnext : next ⟨(m, g), now, r⟩ (t, .inr h) = ⟨(m, handle g h), t, r⟩ := by simp [next]
    rw [hnext]
    exact ⟨hw.past.trans hx.1, fun hg => hw.raised (hgate.symm.trans hg), hw.waiting,
      fun hg => hw.leaving (hgate.symm.trans hg)⟩

theorem aware_start (s : LoopEntry) (t : T) : (start s t).Aware car := by
  refine ⟨le_rfl, fun hg => ?_, fun hpc => ?_, fun hg => ?_⟩
  · exact absurd (s.gate_eq.symm.trans hg) (by decide)
  · change s.m.pc.Waiting at hpc
    rw [s.pc_eq] at hpc
    exact hpc.elim
  · exact absurd (s.gate_eq.symm.trans hg) (by decide)

theorem leaving_of_closes {w : Watch T} {a : T × Label} (hw : w.Aware car) (h : w.Closes a) :
    w.sys.1.pc.Leaving := by
  obtain ⟨⟨m, g⟩, now, r⟩ := w
  obtain ⟨t, e | h'⟩ := a
  · obtain ⟨h1, h2⟩ := h
    have hr : m.pc.Raised := hw.raised h1
    change g.gate = .opened at h1
    change (ParkingLot.next (m, g) (.inl e)).2.gate = .closed at h2
    show m.pc.Leaving
    rw [next_main, mainStep_gate] at h2
    revert hr h2
    cases m.pc <;> simp [h1, PC.Raised, PC.Leaving]
  · obtain ⟨h1, h2⟩ := h
    change (handle g h').gate = .closed at h2
    rw [handle_gate] at h2
    exact absurd (h1.symm.trans h2) (by decide)

end Watch

/-- **The gate is never closed on a car**, when no car comes in between the last reading of
`openProcedure` and the closing: in every run from the loop entry with an exact sensor, whatever the
handlers do and however long anything takes. -/
theorem gate_clear_of_car (car : T → Prop) (s : LoopEntry) (t : T) (as : List (T × Label))
    (hx : Legal Watch.next (Watch.Exact car) (Watch.start s t) as)
    (hu : Legal Watch.next (Watch.Unoccupied car) (Watch.start s t) as) :
    Legal Watch.next (fun w a => w.Closes a → ¬ car a.1) (Watch.start s t) as := by
  have hboth : Legal Watch.next (fun w a => w.Exact car a ∧ w.Unoccupied car a)
      (Watch.start s t) as := fun p hp => ⟨hx p hp, hu p hp⟩
  refine legal_of_legal (I := fun w => w.Aware car) (fun w a ha => Watch.aware_next w a ha.1) ?_
    (Watch.aware_start s t) hboth
  intro w a ⟨hx, hu⟩ hw hc
  have hclear := hw.leaving hc.1 (Watch.leaving_of_closes hw hc)
  exact hu hc hclear a.1 ⟨hw.past.trans hx.1, le_rfl⟩

end Timed

def during (t : ℚ) (as : List Label) : List (ℚ × Label) := as.map fun a => (t, a)

/-- A car drives through the gateway between the second and the sixth second; the gate is closed at
eight and a half. -/
def drivesThrough : List (ℚ × Label) :=
  during 1 approach ++ during 2 enter ++ during 7 (stay 10 5 100) ++ during (17 / 2) (stay 8 5 100)

theorem gate_clear_of_one_car :
    Legal Watch.next (fun w a => w.Closes a → ¬ (2 ≤ a.1 ∧ a.1 ≤ 6))
      (Watch.start (LoopEntry.boot { distance := 100 }) (0 : ℚ)) drivesThrough := by
  refine gate_clear_of_car (fun t => 2 ≤ t ∧ t ≤ 6) _ 0 drivesThrough (by decide +kernel) ?_
  have h : Legal Watch.next (fun w a => w.Closes a → 6 < w.reading)
      (Watch.start (LoopEntry.boot { distance := 100 }) (0 : ℚ)) drivesThrough := by decide +kernel
  exact fun p hp hc _ u hu hcar => absurd (hu.1.trans hcar.2) (not_le.mpr (h p hp hc))

/-- **The gate is closed on a car** that comes in while main waits a second before
`closeProcedure`. -/
theorem gate_closes_on_car : ¬ ∀ (car : ℚ → Prop) (s : LoopEntry) (t : ℚ) (as : List (ℚ × Label)),
    Legal Watch.next (Watch.Exact car) (Watch.start s t) as →
      Legal Watch.next (fun w a => w.Closes a → ¬ car a.1) (Watch.start s t) as := by
  intro h
  have h' := h (fun t => 2 ≤ t ∧ t ≤ 6 ∨ 15 / 2 ≤ t) (LoopEntry.boot { distance := 100 }) 0
    drivesThrough (by decide +kernel)
  revert h'
  decide +kernel

end ParkingLot
