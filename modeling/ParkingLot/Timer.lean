import ParkingLot.Machine.Stopwatch
import Mathlib.Algebra.Order.Ring.Nat
import Mathlib.Data.Int.ModEq

/-!
# The timers of mbed

Only the header of `Timer` is in the repository. A timer is a parameter, and what its header
documents is a hypothesis; instants are microseconds.

* `Timer`: the functions, and the fields of the header as a `Stopwatch`.
* `Timer.Lawful`: the functions do on the fields what is documented.
* `Timer.ideal`: the timer that consists of these fields.
-/

namespace ParkingLot

open Machine

/-- `mbed::Timer`. -/
structure Timer where
  State : Type
  init : State
  start : State → ℕ → State
  stop : State → ℕ → State
  reset : State → ℕ → State
  readMs : State → ℕ → Int32
  readUs : State → ℕ → Int32
  /-- `_running`, `_start` and `_time`. -/
  fields : State → Stopwatch ℕ

/-- What the header documents. The time passed is a `us_timestamp_t`, of 64 bits; `read_ms` and
`read_us` return an `int`, of 32 bits. -/
structure Timer.Lawful (T : Timer) : Prop where
  fields_init : (T.fields T.init).Idle
  fields_start : ∀ s t, T.fields (T.start s t) = (T.fields s).start t
  fields_stop : ∀ s t, T.fields (T.stop s t) = (T.fields s).stop t
  fields_reset : ∀ s t, T.fields (T.reset s t) = (T.fields s).reset t
  readMs_eq : ∀ s t, T.readMs s t = Int32.ofNat ((T.fields s).elapsed t % 2 ^ 64 / 1000)
  readUs_eq : ∀ s t, T.readUs s t = Int32.ofNat ((T.fields s).elapsed t % 2 ^ 64)

def Timer.ideal : Timer where
  State := Stopwatch ℕ
  init := ⟨false, 0, 0⟩
  start := Stopwatch.start
  stop := Stopwatch.stop
  reset := Stopwatch.reset
  readMs w t := Int32.ofNat (w.elapsed t % 2 ^ 64 / 1000)
  readUs w t := Int32.ofNat (w.elapsed t % 2 ^ 64)
  fields := id

theorem Timer.ideal_lawful : Timer.ideal.Lawful where
  fields_init := ⟨rfl, rfl⟩
  fields_start _ _ := rfl
  fields_stop _ _ := rfl
  fields_reset _ _ := rfl
  readMs_eq _ _ := rfl
  readUs_eq _ _ := rfl

/-- The microseconds as an `unsigned int`. -/
theorem Timer.Lawful.toNat_readUs {T : Timer} (hT : T.Lawful) (s : T.State) (t : ℕ) :
    (T.readUs s t).toUInt32.toNat = (T.fields s).elapsed t % 2 ^ 32 := by
  rw [hT.readUs_eq]
  refine (UInt32.toNat_ofNat' ..).trans ?_
  exact Nat.mod_mod_of_dvd _ (by decide)

end ParkingLot
