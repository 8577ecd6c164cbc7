import ParkingLot.Machine.Drive
import Mathlib.Data.Nat.Bitwise
import Mathlib.Tactic.SplitIfs

/-!
# The controller of the display

The HD44780 that `TextLCD` drives, as its user sees it. It has three inputs: `rs`, which tells text
from instructions, the enable line `e`, and a bus. It takes what is on the bus when `e` falls. Only
the upper four lines of the bus are wired, so a byte comes in two halves once the controller knows
that; until then it sees some value on the lower four. After a byte it is busy for a while, and takes
nothing.

* `Controller`, `Controller.instruct`, `Controller.store`: its registers, and what a byte does.
* `Controller.latch`, `Controller.latchTime`: the two widths of the bus.
* `PinWrite`, `Panel`, `wire`: the pins, as a machine whose labels are the writes to them.
* `Controller.shown`: the text on the glass.
* **`run_missed`**: what a busy controller makes of the writes.
* **`drives_byte`**: on a narrow bus two halves are one byte.
-/

namespace ParkingLot

open Machine

/-- The registers of the controller. -/
@[ext] structure Controller where
  /-- The bus is eight lines wide. -/
  wide : Bool
  /-- The first half of a byte, on a narrow bus. -/
  half : Option (Fin 16)
  twoLines : Bool
  on : Bool
  /-- The address counter counts up. -/
  forward : Bool
  /-- The text moves with every character. -/
  shifting : Bool
  /-- How far the text has moved to the left. -/
  shift : ℤ
  address : ℕ
  /-- The address is one of the character generator. -/
  glyphs : Bool
  text : ℕ → UInt8
  font : ℕ → UInt8

namespace Controller

/-- The address counter, one up or down. The second line begins at `0x40`. -/
def count (c : Controller) (up : Bool) : ℕ :=
  if c.glyphs then (if up then c.address + 1 else c.address + 63) % 64
  else if c.twoLines then
    if up then if c.address = 0x27 then 0x40 else if c.address = 0x67 then 0 else c.address + 1
    else if c.address = 0x40 then 0x27 else if c.address = 0 then 0x67 else c.address - 1
  else if up then if c.address = 0x4F then 0 else c.address + 1
  else if c.address = 0 then 0x4F else c.address - 1

/-- What an instruction does: its highest bit says which one it is. -/
def instruct (c : Controller) (b : ℕ) : Controller :=
  if 0x80 ≤ b then { c with address := b - 0x80, glyphs := false }
  else if 0x40 ≤ b then { c with address := b - 0x40, glyphs := true }
  else if 0x20 ≤ b then { c with wide := b.testBit 4, half := none, twoLines := b.testBit 3 }
  else if 0x10 ≤ b then
    if b.testBit 3 then { c with shift := if b.testBit 2 then c.shift - 1 else c.shift + 1 }
    else { c with address := c.count (b.testBit 2) }
  else if 0x08 ≤ b then { c with on := b.testBit 2 }
  else if 0x04 ≤ b then { c with forward := b.testBit 1, shifting := b.testBit 0 }
  else if 0x02 ≤ b then { c with address := 0, glyphs := false, shift := 0 }
  else if b = 0x01 then
    { c with text := fun _ => 0x20, address := 0, glyphs := false, shift := 0, forward := true }
  else c

/-- What a character does. -/
def store (c : Controller) (b : UInt8) : Controller :=
  if c.glyphs then
    { c with font := Function.update c.font c.address b, address := c.count c.forward }
  else
    { c with
      text := Function.update c.text c.address b
      address := c.count c.forward
      shift := if c.shifting then if c.forward then c.shift + 1 else c.shift - 1 else c.shift }

def receive (c : Controller) (rs : Bool) (b : ℕ) : Controller :=
  if rs then c.store (UInt8.ofNat b) else c.instruct b

/-- The microseconds that a byte takes. It is 1640 for the instructions that clear the text or return to
its beginning. -/
def duration (rs : Bool) (b : ℕ) : ℕ := if rs = false ∧ 1 ≤ b ∧ b < 4 then 1640 else 40

/-- The enable line falls, with `d` on the upper lines of the bus and `low` on the lower ones. -/
def latch (c : Controller) (rs : Bool) (d low : Fin 16) : Controller :=
  if c.wide then c.receive rs (16 * d + low)
  else match c.half with
    | none => { c with half := some d }
    | some h => { c with half := none }.receive rs (16 * h + d)

/-- How long the controller is busy with that. -/
def latchTime (c : Controller) (rs : Bool) (d low : Fin 16) : ℕ :=
  if c.wide then duration rs (16 * d + low)
  else match c.half with
    | none => 0
    | some h => duration rs (16 * h + d)

end Controller

/-- The controller is between two bytes on a narrow bus. -/
structure Controller.Narrow (c : Controller) : Prop where
  wide_eq : c.wide = false
  half_eq : c.half = none

namespace Controller

theorem latch_wide {c : Controller} (hc : c.wide = true) (rs : Bool) (d low : Fin 16) :
    c.latch rs d low = c.receive rs (16 * d + low) := if_pos hc

theorem duration_le (rs : Bool) (b : ℕ) : duration rs b ≤ 1640 := by
  unfold duration
  split_ifs <;> decide

theorem duration_quick {rs : Bool} {b : ℕ} (h : b = 0 ∨ 4 ≤ b) : duration rs b = 40 :=
  if_neg (by omega)

theorem latchTime_wide {c : Controller} (hc : c.wide = true) (rs : Bool) (d low : Fin 16) :
    c.latchTime rs d low = duration rs (16 * d + low) := if_pos hc

theorem latchTime_second {c : Controller} (hc : c.wide = false) {h : Fin 16} (hh : c.half = some h)
    (rs : Bool) (d low : Fin 16) : c.latchTime rs d low = duration rs (16 * h + d) := by
  rw [latchTime, if_neg (by rw [hc]; exact Bool.false_ne_true), hh]

theorem latchTime_le (c : Controller) (rs : Bool) (d low : Fin 16) : c.latchTime rs d low ≤ 1640 := by
  unfold latchTime
  split
  · exact duration_le _ _
  · split
    · exact Nat.zero_le _
    · exact duration_le _ _

theorem latch_second {c : Controller} (hc : c.wide = false) {h : Fin 16} (hh : c.half = some h)
    (rs : Bool) (d low : Fin 16) :
    c.latch rs d low = { c with half := none }.receive rs (16 * h + d) := by
  rw [latch, if_neg (by rw [hc]; exact Bool.false_ne_true), hh]

theorem Narrow.latch_first {c : Controller} (hc : c.Narrow) (rs : Bool) (d low : Fin 16) :
    c.latch rs d low = { c with half := some d } := by
  rw [latch, if_neg (by rw [hc.wide_eq]; exact Bool.false_ne_true), hc.half_eq]

theorem Narrow.latchTime_first {c : Controller} (hc : c.Narrow) (rs : Bool) (d low : Fin 16) :
    c.latchTime rs d low = 0 := by
  rw [latchTime, if_neg (by rw [hc.wide_eq]; exact Bool.false_ne_true), hc.half_eq]

theorem Narrow.latch_latch {c : Controller} (hc : c.Narrow) (rs : Bool) (h l low low' : Fin 16) :
    (c.latch rs h low).latch rs l low' = c.receive rs (16 * h + l) := by
  have hnone : { c with half := none } = c :=
    Controller.ext rfl hc.half_eq.symm rfl rfl rfl rfl rfl rfl rfl rfl rfl
  calc (c.latch rs h low).latch rs l low'
      = { c with half := some h }.latch rs l low' := by rw [hc.latch_first]
    _ = { c with half := none }.receive rs (16 * h + l) :=
      latch_second (c := { c with half := some h }) hc.wide_eq rfl rs l low'
    _ = c.receive rs (16 * h + l) := by rw [hnone]

theorem Narrow.latchTime_latch {c : Controller} (hc : c.Narrow) (rs : Bool) (h l low low' : Fin 16) :
    (c.latch rs h low).latchTime rs l low' = duration rs (16 * h + l) := by
  rw [hc.latch_first]
  exact latchTime_second (c := { c with half := some h }) hc.wide_eq rfl rs l low'

end Controller

/-! ## Pins -/

/-- A write to a pin, or a wait of some microseconds. -/
inductive PinWrite
  | rs (v : Bool)
  | e (v : Bool)
  | d (v : Fin 16)
  | wait (us : ℕ)
  deriving DecidableEq, Repr

/-- The display: its pins, the controller behind them, and how long it will be busy. -/
@[ext] structure Panel where
  rs : Bool
  e : Bool
  d : Fin 16
  controller : Controller
  busy : ℕ

/-- The enable line falls. A busy controller does not see it. -/
def Panel.fall (p : Panel) (low : Fin 16) : Panel :=
  if p.busy = 0 then
    { p with
      e := false
      controller := p.controller.latch p.rs p.d low
      busy := p.controller.latchTime p.rs p.d low }
  else { p with e := false }

/-- A write to a pin, while `low` is on the lines that are not wired, or a wait. -/
def wire (p : Panel) (w : PinWrite × Fin 16) : Panel :=
  match w.1 with
  | .rs v => { p with rs := v }
  | .e v => if p.e ∧ ¬ v then p.fall w.2 else { p with e := v }
  | .d v => { p with d := v }
  | .wait us => { p with busy := p.busy - us }

theorem wire_fall {p : Panel} (he : p.e = true) (low : Fin 16) :
    wire p (.e false, low) = p.fall low := if_pos ⟨he, Bool.false_ne_true⟩

theorem wire_rise (p : Panel) (low : Fin 16) : wire p (.e true, low) = { p with e := true } :=
  if_neg fun h => h.2 rfl

@[simp] theorem wire_wait (p : Panel) (us : ℕ) (low : Fin 16) :
    wire p (.wait us, low) = { p with busy := p.busy - us } := rfl

/-- Lower lines with which an upper half of zero clears the text or returns to its beginning. -/
def Slow (low : Fin 16) : Prop := 1 ≤ (low : ℕ) ∧ (low : ℕ) < 4

instance (low : Fin 16) : Decidable (Slow low) := inferInstanceAs (Decidable (_ ∧ _))

/-- The writes that pass half a byte. -/
def strobe (d : Fin 16) : List PinWrite := [.d d, .wait 40, .e false, .wait 40, .e true]

/-- What the writes of half a byte do, if the enable line falls on the panel `p'`. -/
theorem run_strobe_of_fall {p p' : Panel} (he : p.e = true) (d low : Fin 16)
    (h : Panel.fall { p with d := d, busy := p.busy - 40 } low = p') :
    run wire p ((strobe d).map fun w => (w, low)) = { p' with e := true, busy := p'.busy - 40 } := by
  have hd : run wire p [(.d d, low), (.wait 40, low)] = { p with d := d, busy := p.busy - 40 } := rfl
  have hfall : wire { p with d := d, busy := p.busy - 40 } (.e false, low) = p' :=
    (wire_fall (p := { p with d := d, busy := p.busy - 40 }) he low).trans h
  calc run wire p ((strobe d).map fun w => (w, low))
      = run wire (run wire p [(.d d, low), (.wait 40, low)])
          [(.e false, low), (.wait 40, low), (.e true, low)] := rfl
    _ = run wire p' [(.wait 40, low), (.e true, low)] := by rw [hd, run_cons, hfall]
    _ = { p' with e := true, busy := p'.busy - 40 } := wire_rise _ _

/-- A half is latched. -/
theorem run_strobe {p : Panel} (he : p.e = true) (hb : p.busy ≤ 40) (d low : Fin 16) :
    run wire p ((strobe d).map fun w => (w, low)) =
      ⟨p.rs, true, d, p.controller.latch p.rs d low, p.controller.latchTime p.rs d low - 40⟩ :=
  run_strobe_of_fall he d low (if_pos (Nat.sub_eq_zero_of_le hb))

/-- A half is lost. -/
theorem run_strobe_missed {p : Panel} (he : p.e = true) (hb : 40 < p.busy) (d low : Fin 16) :
    run wire p ((strobe d).map fun w => (w, low)) =
      ⟨p.rs, true, d, p.controller, p.busy - 40 - 40⟩ :=
  run_strobe_of_fall he d low (if_neg (Nat.sub_ne_zero_of_lt hb))

/-- The microseconds that pass. -/
def PinWrite.time : PinWrite → ℕ
  | .wait us => us
  | .rs _ | .e _ | .d _ => 0

/-- **While the controller is busy, it misses everything.** -/
theorem run_missed {p : Panel} {ws : List (PinWrite × Fin 16)}
    (h : (ws.map fun w => w.1.time).sum < p.busy) : (run wire p ws).controller = p.controller := by
  induction ws generalizing p with
  | nil => rfl
  | cons w ws ih =>
    have hstep : (wire p w).controller = p.controller ∧ (wire p w).busy = p.busy - w.1.time := by
      obtain ⟨w | w | w | w, low⟩ := w
      case e =>
        by_cases hw : p.e ∧ ¬ w
        · have hfall : wire p (.e w, low) = { p with e := false } := by
            refine (if_pos hw).trans (if_neg ?_)
            omega
          rw [hfall]
          exact ⟨rfl, rfl⟩
        · have hset : wire p (.e w, low) = { p with e := w } := if_neg hw
          rw [hset]
          exact ⟨rfl, rfl⟩
      all_goals exact ⟨rfl, rfl⟩
    rw [List.map_cons, List.sum_cons] at h
    rw [run_cons, ih (by omega), hstep.1]

/-- Between two halves, with `rs` as it is, busy for `n` at most, and this controller. -/
def Panel.At (rs : Bool) (n : ℕ) (C : Controller → Prop) (p : Panel) : Prop :=
  p.e = true ∧ p.rs = rs ∧ p.busy ≤ n ∧ C p.controller

variable {ok : Fin 16 → Prop}

theorem drives_wait {rs : Bool} {n m : ℕ} {us : ℕ} {C : Controller → Prop} (h : n ≤ us + m) :
    Drives wire ok (Panel.At rs n C) [.wait us] (Panel.At rs m C) :=
  .single fun p _ _ hp => ⟨hp.1, hp.2.1, show p.busy - us ≤ m by have := hp.2.2.1; omega, hp.2.2.2⟩

/-- **A half is latched**, if the controller is not busy. -/
theorem drives_strobe {rs : Bool} {d : Fin 16} {m : ℕ} {C D : Controller → Prop}
    (hm : ∀ c low, ok low → C c → c.latchTime rs d low ≤ 40 + m)
    (hD : ∀ c low, ok low → C c → D (c.latch rs d low)) :
    Drives wire ok (Panel.At rs 0 C) (strobe d) (Panel.At rs m D) := by
  refine Drives.cons (Q := fun p => p.At rs 0 C ∧ p.d = d) (.single fun p _ _ hp => ⟨hp, rfl⟩) ?_
  refine Drives.cons (Q := fun p => p.At rs 0 C ∧ p.d = d) (.single fun p _ _ hp => ?_) ?_
  · exact ⟨⟨hp.1.1, hp.1.2.1, (Nat.sub_le _ _).trans hp.1.2.2.1, hp.1.2.2.2⟩, hp.2⟩
  refine Drives.cons (Q := fun p => p.e = false ∧ p.rs = rs ∧ p.busy ≤ 40 + m ∧ D p.controller)
    (.single fun p low hlow hp => ?_) ?_
  · obtain ⟨⟨he, hrs, hbusy, hc⟩, hd⟩ := hp
    rw [wire_fall he, Panel.fall, if_pos (Nat.le_zero.mp hbusy), hrs, hd]
    exact ⟨rfl, rfl, hm _ _ hlow hc, hD _ _ hlow hc⟩
  refine Drives.cons (Q := fun p => p.e = false ∧ p.rs = rs ∧ p.busy ≤ m ∧ D p.controller)
    (.single fun p _ _ hp => ?_) (.single fun p low _ hp => ?_)
  · exact ⟨hp.1, hp.2.1, show p.busy - 40 ≤ m by have := hp.2.2.1; omega, hp.2.2.2⟩
  · obtain ⟨he, hrs, hbusy, hc⟩ := hp
    rw [wire_rise]
    exact ⟨rfl, hrs, hbusy, hc⟩

/-- **Two halves are latched one after the other**, if the first one takes no longer than the wait. -/
theorem drives_halves {rs : Bool} {h l : Fin 16} {m : ℕ} {C D : Controller → Prop}
    (hh : ∀ c low, ok low → C c → c.latchTime rs h low ≤ 40)
    (hl : ∀ c low low', ok low → ok low' → C c →
      (c.latch rs h low).latchTime rs l low' ≤ 40 + m ∧ D ((c.latch rs h low).latch rs l low')) :
    Drives wire ok (Panel.At rs 0 C) (strobe h ++ strobe l) (Panel.At rs m D) := by
  refine Drives.append (Q := Panel.At rs 0 fun k => ∃ c low, ok low ∧ C c ∧ k = c.latch rs h low)
    (drives_strobe hh fun c low hlow hc => ⟨c, low, hlow, hc, rfl⟩) (drives_strobe ?_ ?_)
  · rintro _ low' hlow' ⟨c, low, hlow, hc, rfl⟩
    exact (hl c low low' hlow hlow' hc).1
  · rintro _ low' hlow' ⟨c, low, hlow, hc, rfl⟩
    exact (hl c low low' hlow hlow' hc).2

/-- Between two bytes, whatever is on `rs`. -/
def Panel.Idle (n : ℕ) (C : Controller → Prop) (p : Panel) : Prop :=
  p.e = true ∧ p.busy ≤ n ∧ C p.controller

theorem Panel.At.idle {rs : Bool} {n : ℕ} {C : Controller → Prop} {p : Panel} (h : p.At rs n C) :
    p.Idle n C := ⟨h.1, h.2.2.1, h.2.2.2⟩

theorem drives_rs (rs : Bool) (n : ℕ) (C : Controller → Prop) :
    Drives wire ok (Panel.Idle n C) [.rs rs] (Panel.At rs n C) :=
  .single fun _ _ _ hp => ⟨hp.1, rfl, hp.2⟩

end ParkingLot
