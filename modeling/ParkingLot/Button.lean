import ParkingLot.Isr
import ParkingLot.Machine.Run
import ParkingLot.Timer

/-!
# The registration button over the whole uptime

The first guard of `register_ISR` compares `debounce.read_ms()`, an `int`, with 100. The timer runs
from the start-up on, and each press that passes the guard resets it when it ends.

* `Press`, `press`: an edge of the button, and what the handler does with the timer.
* `Button.next`: the runs, with the instant of the last reset.
* `starts_iff`: when an edge starts a session, by the time since the last reset.
* **`button_works_iff`**: the button works exactly as long as that time fits into an `int` of
  milliseconds.
-/

namespace ParkingLot

open Machine

/-- A rising edge that starts `register_ISR`, with what the handler reads, and the instant at which
it resets the timer if it gets there. -/
structure Press where
  start : ℕ
  pressed : Bool
  pressedAgain : Bool
  masterPolls : List Poll
  newPolls : List Poll
  done : ℕ

section Timed

variable {T : Timer}

/-- The session of an edge, when `debounce` is the timer. -/
def Press.session (p : Press) (debounce : T.State) : Session where
  debounceMs := (T.readMs debounce p.start).toInt
  pressed := p.pressed
  pressedAgain := p.pressedAgain
  masterPolls := p.masterPolls
  newPolls := p.newPolls

/-- What `register_ISR` does with the timer. -/
def press (debounce : T.State) (p : Press) : T.State :=
  if (p.session debounce).Handled then T.reset debounce p.done else debounce

/-- When the timer was last reset. -/
def lastReset (t : ℕ) (debounce : T.State) (p : Press) : ℕ :=
  if (p.session debounce).Handled then p.done else t

/-- The timer, with the instant of its last reset. -/
def Button.next : ℕ × T.State → Press → ℕ × T.State := ghost press lastReset

variable (T) in
/-- After `debounce.start()` at `t`. -/
def Button.boot (t : ℕ) : ℕ × T.State := (t, T.start T.init t)

/-- The timer has been running from zero since its last reset. -/
def Button.Runs (b : ℕ × T.State) : Prop := (T.fields b.2).Since b.1

theorem Button.runs_boot (hT : T.Lawful) (t : ℕ) : Button.Runs (Button.boot T t) := by
  unfold Button.Runs Button.boot
  rw [hT.fields_start]
  exact hT.fields_init.start t

theorem Button.runs_next (hT : T.Lawful) (b : ℕ × T.State) (p : Press) (hb : Button.Runs b) :
    Button.Runs (Button.next b p) := by
  unfold Button.Runs Button.next ghost press lastReset
  dsimp only
  split_ifs
  · rw [hT.fields_reset]
    exact Stopwatch.Since.reset hb p.done
  · exact hb

/-! ## The guard -/

/-- The milliseconds that have elapsed, as they fit into an `int`. -/
def shownMs (us : ℕ) : ℕ := us % 2 ^ 64 / 1000 % 2 ^ 32

/-- **The comparison with 100**, of an `int` that is negative in the upper half of its range. -/
theorem readMs_iff (hT : T.Lawful) {b : ℕ × T.State} (hb : Button.Runs b) (t : ℕ) :
    100 < (T.readMs b.2 t).toInt ↔ 100 < shownMs (t - b.1) ∧ shownMs (t - b.1) < 2 ^ 31 := by
  rw [hT.readMs_eq, hb.elapsed, Int32.toInt_ofNat', shownMs]
  generalize (t - b.1) % 2 ^ 64 / 1000 = ms
  rw [Int.bmod_def, Int32.size]
  split_ifs <;> omega

/-- An edge that is high at its start and after the wait. -/
def Press.Held (p : Press) : Prop := p.pressed ∧ p.pressedAgain

instance (p : Press) : Decidable p.Held := inferInstanceAs (Decidable (_ ∧ _))

theorem starts_iff (hT : T.Lawful) {b : ℕ × T.State} (hb : Button.Runs b) {p : Press}
    (hp : p.Held) :
    (p.session b.2).Starts ↔
      100 < shownMs (p.start - b.1) ∧ shownMs (p.start - b.1) < 2 ^ 31 := by
  rw [← readMs_iff hT hb]
  exact ⟨fun h => h.1.1, fun h => ⟨⟨h, hp.1⟩, hp.2⟩⟩

/-- A held edge starts a session exactly if more than 100 ms have elapsed since the last reset. -/
def Works (b : ℕ × T.State) (p : Press) : Prop :=
  p.Held → ((p.session b.2).Starts ↔ 100000 < p.start - b.1)

/-- A held edge comes at most 100 ms after the last reset, or the milliseconds since then are more
than 100 and fit into an `int`. -/
def InTime (b : ℕ × T.State) (p : Press) : Prop :=
  p.Held → p.start - b.1 ≤ 100000 ∨
    100 < shownMs (p.start - b.1) ∧ shownMs (p.start - b.1) < 2 ^ 31

theorem works_iff (hT : T.Lawful) {b : ℕ × T.State} (hb : Button.Runs b) (p : Press) :
    Works b p ↔ InTime b p := by
  refine imp_congr_right fun hp => ?_
  rw [starts_iff hT hb hp]
  generalize p.start - b.1 = us
  by_cases hus : us ≤ 100000
  · -- so soon that the milliseconds are at most 100
    have hms : ¬ 100 < shownMs us := by
      unfold shownMs
      omega
    exact iff_of_true (iff_of_false (fun h => hms h.1) (not_lt.mpr hus)) (Or.inl hus)
  · exact ⟨fun h => Or.inr (h.mpr (not_le.mp hus)),
      fun h => iff_of_true (h.resolve_left hus) (not_le.mp hus)⟩

/-- **When the button works.** In a history of edges from the start-up on, the held edges start
sessions exactly if more than 100 ms have elapsed since the last reset, if and only if each of them
comes while the elapsed milliseconds fit into an `int`. -/
theorem button_works_iff (hT : T.Lawful) (boot : ℕ) (ps : List Press) :
    Legal Button.next Works (Button.boot T boot) ps ↔
      Legal Button.next InTime (Button.boot T boot) ps :=
  legal_congr (I := Button.Runs) (Button.runs_next hT) (fun _ p hb => works_iff hT hb p)
    (Button.runs_boot hT boot) ps

instance (b : ℕ × T.State) (p : Press) : Decidable (Works b p) :=
  inferInstanceAs (Decidable (_ → (_ ↔ _)))

instance (b : ℕ × T.State) (p : Press) : Decidable (InTime b p) :=
  inferInstanceAs (Decidable (_ → _ ∨ _ ∧ _))

end Timed

/-- The button is held at `t`, and the session ends after ten seconds. -/
def holdAt (t : ℕ) : Press := ⟨t, true, true, [], [], t + 10000000⟩

/-- A press after an hour, a bounce when its session has ended, and a press after another hour. -/
theorem button_works_twice :
    Legal Button.next Works (Button.boot Timer.ideal 0)
      [holdAt 3600000000, holdAt 3610000500, holdAt 7200000000] :=
  (button_works_iff Timer.ideal_lawful 0 _).mpr (by decide +kernel)

/-- **Twenty-five days without a press disable the button.** -/
theorem button_fails : ¬ ∀ (T : Timer) (boot : ℕ) (ps : List Press), T.Lawful →
    Legal Button.next Works (Button.boot T boot) ps := by
  intro h
  have h' := h Timer.ideal 0 [holdAt (25 * 24 * 3600 * 1000000)] Timer.ideal_lawful
  revert h'
  decide +kernel

end ParkingLot
