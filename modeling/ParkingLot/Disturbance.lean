import ParkingLot.Sensor

/-!
# Measurements under the other handlers

`fish_ISR` and `register_ISR` hold up the handlers of the two edges of an echo pulse, each by an
amount of its own, and `get_distance_cm` until they return.

* `Executions`: the intervals in which the two handlers execute.
* `Harmless`: what they may do to a pulse.
* **`undisturbed_iff`**: a call returns what it returns without handlers exactly if they are
  harmless.
-/

namespace ParkingLot

open Machine

/-- An execution of `fish_ISR`, which waits for 0.1 s, or of `register_ISR`. -/
structure Execution where
  ofFish : Bool
  span : Slot ℕ
  wait_le : ofFish = true → span.start + 100000 ≤ span.stop

/-- Executions that do not overlap. -/
structure Executions where
  list : List Execution
  apart : (list.map Execution.span).Pairwise Slot.Before

def Executions.schedule (x : Executions) : Schedule ℕ := ⟨x.list.map Execution.span, x.apart⟩

/-- The product that `isr_fall` divides lies in the centimetre `cm`. -/
def Pulse.In (p : Pulse) (cm : ℕ) : Prop :=
  20000 * cm ≤ p.length * 343 % 2 ^ 32 ∧ p.length * 343 % 2 ^ 32 < 20000 * (cm + 1)

instance (p : Pulse) (cm : ℕ) : Decidable (p.In cm) := inferInstanceAs (Decidable (_ ∧ _))

theorem Pulse.in_iff {p : Pulse} {cm : ℕ} : p.In cm ↔ p.length * 343 % 2 ^ 32 / 20000 = cm := by
  unfold Pulse.In
  omega

/-- A pulse that ends within the wait of a call at `t` is held up so that its length stays in the
same centimetre. One that ends only in the time by which the handlers prolong the wait has, as they
see it, the length of the distance of earlier. -/
def Harmless {T : Timer} (b : Schedule ℕ) (t : ℕ) (p : Pulse) (s : HCSR04 T) : Prop :=
  (p.fall ≤ waitEnd .none t → (p.handled b).In p.distance) ∧
    (waitEnd .none t < p.fall → p.fall ≤ waitEnd b t → (p.handled b).In s.distanceCm.toNat)

instance {T : Timer} (b : Schedule ℕ) (t : ℕ) (p : Pulse) (s : HCSR04 T) :
    Decidable (Harmless b t p s) := inferInstanceAs (Decidable ((_ → _) ∧ (_ → _ → _)))

theorem waitEnd_none_le (b : Schedule ℕ) (t : ℕ) : waitEnd .none t ≤ waitEnd b t := by
  have h1 := b.le_resume (t + 10)
  have h2 := b.le_resume (b.resume (t + 10) + 300000)
  rw [waitEnd_none, waitEnd]
  omega

section Pulses

variable {T : Timer}

theorem idle_run_measure (hT : T.Lawful) (ps : List Pulse) :
    (run HCSR04.measure (HCSR04.init T) ps).Idle :=
  run_induction (fun s p _ => HCSR04.idle_measure hT s p) (HCSR04.idle_init hT) ps

/-- **When the other handlers disturb no measurement.** After any earlier pulses, a call whose echo
is `p` returns what it returns when no handler executes if and only if the handlers are harmless. -/
theorem undisturbed_iff (hT : T.Lawful) (before : List Pulse) (x : Executions) (t : ℕ) (p : Pulse)
    (hp : t ≤ p.rise) :
    let s := run HCSR04.measure (HCSR04.init T) before
    (getDistanceCm x.schedule t p.edges s).1 = (getDistanceCm .none t p.edges s).1 ↔
      Harmless x.schedule t p s := by
  intro s
  have hs : s.Idle := idle_run_measure hT before
  have hend := waitEnd_none_le x.schedule t
  rw [← UInt32.toNat_inj, getDistanceCm_pulse hT hs, getDistanceCm_pulse hT hs, Harmless]
  by_cases hin : p.fall ≤ waitEnd .none t
  · -- the pulse ends within the wait
    have hlen := Pulse.length_le hp hin
    have hown : (p.handled .none).length * 343 % 2 ^ 32 / 20000 = p.distance :=
      congrArg (· / 20000) (Nat.mod_eq_of_lt (by omega : p.length * 343 < 2 ^ 32))
    rw [if_pos (hin.trans hend), if_pos hin, hown, ← Pulse.in_iff]
    exact ⟨fun h => ⟨fun _ => h, fun hlt => absurd hin (not_le.mpr hlt)⟩, fun h => h.1 hin⟩
  · have hlt := not_le.mp hin
    rw [if_neg hin]
    by_cases hlate : p.fall ≤ waitEnd x.schedule t
    · -- it ends within the prolonged wait
      rw [if_pos hlate, ← Pulse.in_iff]
      exact ⟨fun h => ⟨fun hc => absurd hc hin, fun _ _ => h⟩, fun h => h.2 hlt hlate⟩
    · rw [if_neg hlate]
      exact iff_of_true rfl ⟨fun hc => absurd hc hin, fun _ hc => absurd hc hlate⟩

end Pulses

/-- A car leaves, and `fish_ISR` executes from `t` to `t + 100000`. -/
def carLeaves (t : ℕ) : Executions where
  list := [⟨true, ⟨t, t + 100000, by omega⟩, fun _ => le_rfl⟩]
  apart := List.pairwise_singleton _ _

theorem undisturbed_after : (getDistanceCm (carLeaves 4000).schedule 0
      (⟨500, 3416, by decide⟩ : Pulse).edges (HCSR04.init Timer.ideal)).1 =
    (getDistanceCm .none 0 (⟨500, 3416, by decide⟩ : Pulse).edges (HCSR04.init Timer.ideal)).1 :=
  (undisturbed_iff Timer.ideal_lawful [] (carLeaves 4000) 0 ⟨500, 3416, by decide⟩ (by decide)).mpr
    (by decide +kernel)

/-- **A car that leaves hides a car that enters.** At 50 cm the echo falls while `fish_ISR`
executes, and the call returns 1757 cm. -/
theorem fish_disturbs : ¬ ∀ (T : Timer) (before : List Pulse) (x : Executions) (t : ℕ) (p : Pulse),
    T.Lawful → t ≤ p.rise →
      (getDistanceCm x.schedule t p.edges (run HCSR04.measure (HCSR04.init T) before)).1 =
        (getDistanceCm .none t p.edges (run HCSR04.measure (HCSR04.init T) before)).1 := by
  intro h
  have h' := h Timer.ideal [] (carLeaves 3000) 0 ⟨500, 3416, by decide⟩ Timer.ideal_lawful (by decide)
  revert h'
  decide +kernel

end ParkingLot
