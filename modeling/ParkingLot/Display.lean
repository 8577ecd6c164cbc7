import ParkingLot.System

/-!
# What a session leaves on the display

`register_ISR` writes the LED and the display of the program it interrupts, and puts back the idle
display, not what it found.

* **`register_display`**: what main finds on the LED and on the display when the handler returns,
  and when that is what it left there.
-/

namespace ParkingLot

open Machine

/-- The display that `lcd_welcome` leaves, whatever it showed before. -/
def welcomeScreen (avaliableSpots : ℤ) : TextLCD := (lcdWelcome avaliableSpots).write .blank

theorem handle_register_led (g : Globals) (s : Session) :
    (handle g (.register s)).led = if g.cardRise ∧ s.Starts then ledRed else g.led := by
  rw [handle]
  by_cases hc : g.cardRise = true
  · simp only [hc, if_true, true_and]
    exact registerISR_led s g
  · rw [if_neg hc, if_neg fun h => hc h.1]

theorem handle_register_lcd (g : Globals) (s : Session) :
    (handle g (.register s)).lcd =
      if g.cardRise ∧ s.Handled then welcomeScreen g.avaliableSpots else g.lcd := by
  rw [handle]
  by_cases hc : g.cardRise = true
  · simp only [hc, if_true, true_and]
    exact registerISR_lcd s g
  · rw [if_neg hc, if_neg fun h => hc h.1]

/-- **What main finds when `register_ISR` returns.** Its own variables, the gate and the free spots
are as they were. The LED is as it was, or red after a session; the display is as it was, or the
welcome screen after a press that was handled. So main finds what it left exactly when the idle
display was there. -/
theorem register_display (t : Main × Globals) (s : Session) :
    let u := next t (.inr (.register s))
    u.1 = t.1 ∧ u.2.gate = t.2.gate ∧ u.2.avaliableSpots = t.2.avaliableSpots ∧
      u.2.led = (if t.2.cardRise ∧ s.Starts then ledRed else t.2.led) ∧
      u.2.lcd = (if t.2.cardRise ∧ s.Handled then welcomeScreen t.2.avaliableSpots else t.2.lcd) ∧
      (u.2.led = t.2.led ∧ u.2.lcd = t.2.lcd ↔
        (t.2.cardRise ∧ s.Starts → t.2.led = ledRed) ∧
        (t.2.cardRise ∧ s.Handled → t.2.lcd = welcomeScreen t.2.avaliableSpots)) := by
  obtain ⟨m, g⟩ := t
  rw [next_handler]
  refine ⟨rfl, handle_gate g _, handle_register_spots g s, handle_register_led g s,
    handle_register_lcd g s, ?_⟩
  simp only [handle_register_led, handle_register_lcd]
  refine and_congr ?_ ?_
  · split_ifs with h
    · exact ⟨fun he _ => he.symm, fun he => (he h).symm⟩
    · exact iff_of_true rfl fun h' => absurd h' h
  · split_ifs with h
    · exact ⟨fun he _ => he.symm, fun he => (he h).symm⟩
    · exact iff_of_true rfl fun h' => absurd h' h

/-- A session in which nobody shows a card. -/
def timedOut : Session where
  debounceMs := 5000
  pressed := true
  pressedAgain := true
  masterPolls := []
  newPolls := []

/-- **The handler is not transparent**: a session under an open gate leaves the LED red and the
welcome screen on the display. -/
theorem register_not_transparent : ¬ ∀ (s : LoopEntry) (as : List Label) (r : Session),
    (next (run next s.state as) (.inr (.register r))).2.led = (run next s.state as).2.led ∧
      (next (run next s.state as) (.inr (.register r))).2.lcd = (run next s.state as).2.lcd := by
  intro h
  have h' := (h (LoopEntry.boot { distance := 100 }) (approach ++ stay 5 0 0) timedOut).1
  revert h'
  decide +kernel

end ParkingLot
