import ParkingLot.Lcd.Controller
import Mathlib.Tactic.IntervalCases

/-!
# The display driver

`TextLCD` as it writes to the pins and waits.

* `LcdType`, `Driver`: the types of panels, and the variables of a `TextLCD`.
* `writeByte`, `Driver.character`, `Driver.putc`, `Driver.printf`, `Driver.cls`: the functions.
* `Driver.powerUp`: the constructor.
* `drives_writeCommand`, `drives_writeData`: what a byte does to a controller.
* **`synchronise_iff`**: how the constructor finds the beginning of a byte, and where it does not.
* **`drives_powerUp`**, `powerUp_narrow`: what it sets up, and what it does to a display that was set
  up before.
-/

namespace ParkingLot

open Machine

inductive LcdType
  | LCD16x2 | LCD16x2B | LCD20x2 | LCD20x4
  deriving DecidableEq, Repr

namespace LcdType

/-- A row that a 20x4 panel does not have falls through to the case below it. -/
def address (t : LcdType) (column row : ℤ) : ℤ :=
  match t with
  | .LCD20x4 =>
    if row = 0 then 0x80 + column
    else if row = 1 then 0xc0 + column
    else if row = 2 then 0x94 + column
    else if row = 3 then 0xd4 + column
    else 0x80 + row * 40 + column
  | .LCD16x2B => 0x80 + row * 40 + column
  | .LCD16x2 | .LCD20x2 => 0x80 + row * 0x40 + column

def columns : LcdType → ℕ
  | .LCD20x4 | .LCD20x2 => 20
  | .LCD16x2 | .LCD16x2B => 16

def rows : LcdType → ℕ
  | .LCD20x4 => 4
  | .LCD16x2 | .LCD16x2B | .LCD20x2 => 2

end LcdType

/-! ## Bytes -/

/-- What a value leaves on the four lines of the bus. -/
def bus (value : ℤ) : Fin 16 := ⟨(value % 16).toNat, by omega⟩

def writeByte (value : ℤ) : List PinWrite :=
  [.d (bus (value >>> (4 : ℕ))), .wait 40, .e false, .wait 40, .e true,
    .d (bus (value >>> (0 : ℕ))), .wait 40, .e false, .wait 40, .e true]

def writeCommand (command : ℤ) : List PinWrite := .rs false :: writeByte command

def writeData (data : ℤ) : List PinWrite := .rs true :: writeByte data

/-! ## The driver -/

structure Driver where
  type : LcdType
  column : ℤ
  row : ℤ
  deriving DecidableEq, Repr

namespace Driver

def character (d : Driver) (column row c : ℤ) : List PinWrite :=
  writeCommand (d.type.address column row) ++ writeData c

def locate (d : Driver) (column row : ℤ) : Driver := { d with column := column, row := row }

def cls (d : Driver) : List PinWrite × Driver := (writeCommand 0x01 ++ [.wait 1640], d.locate 0 0)

/-- `_row++`, and back to the first row after the last one. -/
def nextRow (d : Driver) : Driver :=
  { d with column := 0, row := if d.type.rows ≤ d.row + 1 then 0 else d.row + 1 }

/-- `_column++`, and on to the next row after the last one. -/
def advance (d : Driver) : Driver :=
  if d.type.columns ≤ d.column + 1 then d.nextRow else { d with column := d.column + 1 }

/-- `_putc`. -/
def putc (d : Driver) (value : ℤ) : List PinWrite × Driver :=
  if value = '\n'.toNat then ([], d.nextRow) else (d.character d.column d.row value, d.advance)

def printf (d : Driver) (s : String) : List PinWrite × Driver :=
  emit (fun d c => d.putc (Char.toNat c)) d s.toList

/-- A turn of the loop in the constructor. -/
def displaySettings : List PinWrite := writeByte 0x3 ++ [.wait 1640]

/-- The beginning of the constructor, with `n` turns of its loop: "4-bit mode". -/
def synchronise (n : ℕ) : List PinWrite :=
  [.e true, .rs false, .wait 15000] ++ (List.replicate n displaySettings).flatten ++ writeByte 0x2 ++
    [.wait 40]

/-- The constructor. -/
def powerUp (type : LcdType) : List PinWrite × Driver :=
  let d : Driver := ⟨type, 0, 0⟩
  (synchronise 3 ++ writeCommand 0x28 ++ writeCommand 0x0C ++ writeCommand 0x6 ++ d.cls.1, d.cls.2)

end Driver

/-! ## What a byte does -/

theorem bus_halves (v : ℤ) : 16 * (bus (v >>> (4 : ℕ)) : ℕ) + bus (v >>> (0 : ℕ)) = (v % 256).toNat := by
  simp only [bus, Int.shiftRight_eq_div_pow]
  omega

variable {ok : Fin 16 → Prop}

namespace Controller

/-- A function set: the width of the bus, and a new byte. -/
theorem instruct_set (c : Controller) {b : ℕ} (h : 0x20 ≤ b) (h' : b < 0x40) :
    (c.instruct b).wide = b.testBit 4 ∧ (c.instruct b).half = none := by
  rw [instruct, if_neg (by omega), if_neg (by omega), if_pos h]
  exact ⟨rfl, rfl⟩

/-- The other instructions change neither. -/
theorem instruct_other (c : Controller) {b : ℕ} (h : b < 0x20 ∨ 0x40 ≤ b) :
    (c.instruct b).wide = c.wide ∧ (c.instruct b).half = c.half := by
  unfold instruct
  split_ifs <;> first | exact ⟨rfl, rfl⟩ | omega

/-- Only a function set changes the width of the bus. -/
theorem instruct_wide (c : Controller) (h l : Fin 16) :
    (c.instruct (16 * h + l)).wide = if h = 3 then true else if h = 2 then false else c.wide := by
  have hbit : ∀ l : Fin 16,
      (16 * 3 + (l : ℕ)).testBit 4 = true ∧ (16 * 2 + (l : ℕ)).testBit 4 = false := by decide
  split_ifs with h3 h2
  · subst h3
    exact (c.instruct_set (by omega) (by omega)).1.trans (hbit l).1
  · subst h2
    exact (c.instruct_set (by omega) (by omega)).1.trans (hbit l).2
  · exact (c.instruct_other (by omega)).1

/-- It starts a new byte. -/
theorem instruct_half (c : Controller) (h l : Fin 16) :
    (c.instruct (16 * h + l)).half = if h = 3 ∨ h = 2 then none else c.half := by
  split_ifs with hset
  · exact (c.instruct_set (by omega) (by omega)).2
  · exact (c.instruct_other (by omega)).2

theorem Narrow.instruct {c : Controller} (hc : c.Narrow) {h : Fin 16} (hh : h ≠ 3) (l : Fin 16) :
    (c.instruct (16 * h + l)).Narrow := by
  constructor
  · rw [instruct_wide, if_neg hh, hc.wide_eq, ite_self]
  · rw [instruct_half, hc.half_eq, ite_self]

/-- On a wide bus, or after a first half that was a three. -/
def Awake (c : Controller) : Prop := c.wide = true ∨ c.wide = false ∧ c.half = some (bus 0x3)

theorem latch_stays_wide {c : Controller} (hc : c.wide = true) {d : Fin 16} (hd : d ≠ 2)
    (low : Fin 16) : (c.latch false d low).wide = true := by
  rw [latch_wide hc]
  refine (instruct_wide c d low).trans ?_
  rw [if_neg hd, hc, ite_self]

theorem latch_wide_two {c : Controller} (hc : c.wide = true) (low : Fin 16) :
    (c.latch false 2 low).Narrow := by
  rw [latch_wide hc]
  exact ⟨instruct_wide c 2 low, instruct_half c 2 low⟩

/-- After the second half of a byte that is not a function set to a wide bus. -/
theorem latch_second_narrow {c : Controller} (hc : c.wide = false) {h : Fin 16}
    (hh : c.half = some h) (h3 : h ≠ 3) (d low : Fin 16) : (c.latch false d low).Narrow := by
  rw [latch_second hc hh]
  exact Narrow.instruct (c := { c with half := none }) ⟨hc, rfl⟩ h3 d

/-- The second half of `0x30`. -/
theorem latch_second_wide {c : Controller} (hc : c.wide = false) (hh : c.half = some 3)
    (d low : Fin 16) : (c.latch false d low).wide = true := by
  rw [latch_second hc hh]
  exact instruct_wide { c with half := none } 3 d

/-- A half of zero takes no time, unless it is a byte of its own that does. -/
theorem latchTime_zero (c : Controller) {low : Fin 16} (hlow : ¬ Slow low) :
    c.latchTime false 0 low ≤ 40 := by
  cases hw : c.wide with
  | true =>
    rw [latchTime_wide hw, duration_quick]
    have h : ¬ (1 ≤ (low : ℕ) ∧ (low : ℕ) < 4) := hlow
    show 0 + (low : ℕ) = 0 ∨ 4 ≤ 0 + (low : ℕ)
    omega
  | false =>
    cases hh : c.half with
    | none =>
      rw [Narrow.latchTime_first ⟨hw, hh⟩]
      exact Nat.zero_le _
    | some h =>
      rw [latchTime_second hw hh, duration_quick]
      show 16 * (h : ℕ) + 0 = 0 ∨ 4 ≤ 16 * (h : ℕ) + 0
      omega

/-- Within a byte, or on a wide bus, a zero ends the byte. -/
theorem latch_zero {c : Controller} (hc : ¬ c.Narrow) (low : Fin 16) :
    (c.latch false 0 low).wide = true ∨ (c.latch false 0 low).Narrow := by
  cases hw : c.wide with
  | true => exact Or.inl (latch_stays_wide hw (by decide) low)
  | false =>
    cases hh : c.half with
    | none => exact absurd ⟨hw, hh⟩ hc
    | some h =>
      by_cases h3 : h = 3
      · exact Or.inl (latch_second_wide hw (h3 ▸ hh) 0 low)
      · exact Or.inr (latch_second_narrow hw hh h3 0 low)

theorem Awake.latch_zero {c : Controller} (hc : c.Awake) (low : Fin 16) :
    (c.latch false 0 low).wide = true := by
  rcases hc with hw | ⟨hw, hh⟩
  · exact latch_stays_wide hw (by decide) low
  · exact latch_second_wide hw hh 0 low

/-- A zero and a three, from anywhere but between two bytes. -/
theorem awake_three {c : Controller} (hc : ¬ c.Narrow) (low low' : Fin 16) :
    (c.latch false 0 low).latchTime false 3 low' ≤ 40 ∧
      ((c.latch false 0 low).latch false 3 low').Awake := by
  rcases latch_zero hc low with hw | hn
  · exact ⟨by rw [latchTime_wide hw, duration_quick (Or.inr (by decide +revert))],
      Or.inl (latch_stays_wide hw (by decide) low')⟩
  · rw [hn.latchTime_first, hn.latch_first]
    exact ⟨Nat.zero_le _, Or.inr ⟨hn.wide_eq, rfl⟩⟩

/-- A zero and a two from there. -/
theorem Awake.two {c : Controller} (hc : c.Awake) (low low' : Fin 16) :
    (c.latch false 0 low).latchTime false 2 low' ≤ 40 ∧
      ((c.latch false 0 low).latch false 2 low').Narrow := by
  have hw := hc.latch_zero low
  exact ⟨by rw [latchTime_wide hw, duration_quick (Or.inr (by decide +revert))], latch_wide_two hw low'⟩

/-- Between two bytes the bytes `03` and `02` return to the beginning of the text. -/
theorem Narrow.latch_zero_latch {c : Controller} (hc : c.Narrow) (l low low' : Fin 16) :
    ((c.latch false 0 low).latch false l low').Narrow := by
  rw [hc.latch_latch]
  exact hc.instruct (h := 0) (by decide) l

/-- The controller is set up: four bits, two lines that do not move, and it shows them. -/
structure Ready (c : Controller) : Prop extends c.Narrow where
  twoLines_eq : c.twoLines = true
  on_eq : c.on = true
  forward_eq : c.forward = true
  shifting_eq : c.shifting = false
  shift_eq : c.shift = 0

end Controller

/-- The wait before the first byte. -/
theorem drives_start (C : Controller → Prop) :
    Drives wire ok (fun p => p.busy ≤ 15000 ∧ C p.controller) [.e true, .rs false, .wait 15000]
      (Panel.At false 0 C) := by
  refine Drives.cons (Q := Panel.Idle 15000 C) (.single fun p low _ hp => ?_)
    ((drives_rs false 15000 C).cons (drives_wait (Nat.le_refl _)))
  rw [wire_rise]
  exact ⟨rfl, hp⟩

/-- "Display Settings" to any controller. -/
theorem drives_three {C : Controller → Prop} :
    Drives wire (fun low => ¬ Slow low) (Panel.At false 0 C) Driver.displaySettings
      (Panel.At false 0 fun c => c.Awake ∨ c.Narrow) := by
  have hwait : Drives wire (fun low => ¬ Slow low) (Panel.At false 1600 fun c => c.Awake ∨ c.Narrow)
      [.wait 1640] (Panel.At false 0 fun c => c.Awake ∨ c.Narrow) := drives_wait (by decide)
  refine (drives_halves (fun c _ hlow _ => c.latchTime_zero hlow)
    fun c low low' _ _ _ => ⟨Controller.latchTime_le _ _ _ _, ?_⟩).append hwait
  by_cases hc : c.Narrow
  · exact Or.inr (hc.latch_zero_latch 3 low low')
  · exact Or.inl (Controller.awake_three hc low low').2

theorem drives_synchronise {n : ℕ} (hn : 0 < n) :
    Drives wire (fun low => ¬ Slow low) (fun p => p.busy ≤ 15000 ∧ True) (Driver.synchronise n)
      (Panel.At false 1560 Controller.Narrow) := by
  obtain ⟨n, rfl⟩ := Nat.exists_eq_succ_of_ne_zero hn.ne'
  have h2 : Drives wire (fun low => ¬ Slow low) (Panel.At false 0 fun c => c.Awake ∨ c.Narrow)
      (writeByte 0x2) (Panel.At false 1600 Controller.Narrow) := by
    refine drives_halves (fun c _ hlow _ => c.latchTime_zero hlow)
      fun c low low' _ _ hc => ⟨Controller.latchTime_le _ _ _ _, ?_⟩
    rcases hc with hc | hc
    · exact (hc.two low low').2
    · exact hc.latch_zero_latch 2 low low'
  have hwait : Drives wire (fun low => ¬ Slow low) (Panel.At false 1600 Controller.Narrow) [.wait 40]
      (Panel.At false 1560 Controller.Narrow) := drives_wait (by decide)
  exact (((drives_start fun _ => True).append
    (drives_three.append (drives_three.replicate n))).append h2).append hwait

/-- A controller on a narrow bus that has received the first half of a byte. -/
def Controller.torn : Controller :=
  ⟨false, some (bus 1), false, false, false, false, 0, 0, false, fun _ => 0, fun _ => 0⟩

/-- A controller on a wide bus, with nothing to clear and at the beginning of the text. -/
def Controller.fresh : Controller :=
  ⟨true, none, false, false, true, false, 0, 0, false, fun _ => 0x20, fun _ => 0⟩

def Panel.fresh (d : Fin 16) : Panel := ⟨false, true, d, .fresh, 0⟩

/-- A zero clears the text or returns to its beginning, which changes nothing there but takes long. -/
theorem fresh_zero {low : Fin 16} (h : Slow low) :
    Controller.fresh.latch false 0 low = .fresh ∧ Controller.fresh.latchTime false 0 low = 1640 := by
  obtain ⟨l, hl⟩ := low
  obtain ⟨h1, h2⟩ : 1 ≤ l ∧ l < 4 := h
  interval_cases l <;> exact ⟨rfl, rfl⟩

/-- The half after it comes too early, and is lost. -/
theorem fresh_writeByte {low : Fin 16} (h : Slow low) {v : ℤ} (hv : bus (v >>> (4 : ℕ)) = 0)
    (d : Fin 16) :
    run wire (Panel.fresh d) ((writeByte v).map fun w => (w, low)) =
      { Panel.fresh (bus (v >>> (0 : ℕ))) with busy := 1520 } := by
  have hbyte : writeByte v = strobe 0 ++ strobe (bus (v >>> (0 : ℕ))) := by rw [← hv]; rfl
  rw [hbyte, List.map_append, run_append,
    run_strobe (p := Panel.fresh d) rfl (Nat.zero_le _)]
  refine Eq.trans (run_strobe_missed rfl ?_ _ _) ?_
  · show 40 < Controller.fresh.latchTime false 0 low - 40
    rw [(fresh_zero h).2]
    decide
  · refine Panel.ext rfl rfl rfl (fresh_zero h).1 ?_
    show Controller.fresh.latchTime false 0 low - 40 - 80 = 1520
    rw [(fresh_zero h).2]

/-- The bytes at the beginning of the constructor, exactly. -/
theorem run_synchronise {p : Panel} (hbusy : p.busy ≤ 15000) (n : ℕ) (low : Fin 16) :
    run wire p ((Driver.synchronise n).map fun w => (w, low)) =
      run wire (run wire (run wire ⟨false, true, p.d, p.controller, 0⟩
        ((List.replicate n Driver.displaySettings).flatten.map fun w => (w, low)))
        ((writeByte 0x2).map fun w => (w, low))) [(.wait 40, low)] := by
  have hstart : run wire p (([.e true, .rs false, .wait 15000] : List PinWrite).map fun w => (w, low)) =
      ⟨false, true, p.d, p.controller, 0⟩ := by
    simp only [List.map_cons, List.map_nil, run_cons, run_nil, wire_rise, wire_wait]
    exact Panel.ext rfl rfl rfl rfl (Nat.sub_eq_zero_of_le hbusy)
  rw [Driver.synchronise, List.map_append, List.map_append, List.map_append, run_append, run_append,
    run_append, hstart]
  rfl

/-- A controller that "Display Settings" leave alone. -/
theorem run_threes {c : Controller} {low : Fin 16}
    (h : ∀ d, run wire ⟨false, true, d, c, 0⟩ (Driver.displaySettings.map fun w => (w, low)) =
      ⟨false, true, bus 0x3, c, 0⟩) (n : ℕ) (d : Fin 16) :
    ∃ d', run wire ⟨false, true, d, c, 0⟩
      ((List.replicate n Driver.displaySettings).flatten.map fun w => (w, low)) =
        ⟨false, true, d', c, 0⟩ := by
  induction n generalizing d with
  | zero => exact ⟨d, rfl⟩
  | succ n ih =>
    rw [List.replicate_succ, List.flatten_cons, List.map_append, run_append, h]
    exact ih _

theorem fresh_synchronise {low : Fin 16} (h : Slow low) (n : ℕ) (d : Fin 16) :
    (run wire (Panel.fresh d) ((Driver.synchronise n).map fun w => (w, low))).controller = .fresh := by
  have hthree : ∀ d, run wire (Panel.fresh d)
      (Driver.displaySettings.map fun w => (w, low)) = Panel.fresh (bus 0x3) := by
    intro d
    rw [Driver.displaySettings, List.map_append, run_append, fresh_writeByte h rfl]
    exact Panel.ext rfl rfl rfl rfl (Nat.sub_eq_zero_of_le (show 1520 ≤ 1640 by decide))
  obtain ⟨d', hd'⟩ := run_threes hthree n d
  rw [run_synchronise (Nat.zero_le _)]
  refine (congrArg (fun q => (run wire (run wire q _) _).controller) hd').trans ?_
  rw [← Panel.fresh, fresh_writeByte h rfl]
  rfl

/-- Without "Display Settings", a controller within a byte stays so. -/
theorem torn_synchronise (low : Fin 16) :
    (run wire ⟨false, true, 0, .torn, 0⟩
      ((Driver.synchronise 0).map fun w => (w, low))).controller.half = some (bus 0x2) := by
  have hbyte : writeByte 0x2 = strobe 0 ++ strobe 2 := by decide
  have hnarrow : (Controller.torn.latch false 0 low).Narrow :=
    Controller.latch_second_narrow rfl rfl (by decide) 0 low
  have hquick : Controller.torn.latchTime false 0 low - 40 ≤ 40 := Nat.sub_le _ _
  have hfirst := run_strobe (p := ⟨false, true, 0, .torn, 0⟩) rfl (Nat.zero_le _) 0 low
  have hsecond := run_strobe (p := ⟨false, true, 0, Controller.torn.latch false 0 low, _⟩) rfl hquick 2
    low
  rw [run_synchronise (Nat.zero_le _), hbyte, List.map_append, run_append]
  simp only [List.replicate_zero, List.flatten_nil, List.map_nil, run_nil, run_cons, wire_wait, hfirst,
    hsecond, hnarrow.latch_first]
  rfl

/-- **Where "Display Settings" synchronises the bus.** One time brings the controller between two
bytes on a narrow bus from any state, even within a byte, if the lines that are not wired do not make
the zeros before the settings slow instructions. With such lines a controller on a wide bus misses
every setting, however often it is sent; and without settings some state is not synchronised. -/
theorem synchronise_iff (n : ℕ) (low : Fin 16) :
    (∀ p : Panel, p.busy ≤ 15000 →
      (run wire p ((Driver.synchronise n).map fun w => (w, low))).controller.Narrow) ↔
    0 < n ∧ ¬ Slow low := by
  constructor
  · intro h
    refine ⟨Nat.pos_of_ne_zero ?_, fun hlow => ?_⟩
    · rintro rfl
      have h' := (h ⟨false, true, 0, .torn, 0⟩ (Nat.zero_le _)).half_eq
      rw [torn_synchronise] at h'
      cases h'
    · have h' := (h (Panel.fresh 0) (Nat.zero_le _)).wide_eq
      rw [fresh_synchronise hlow] at h'
      cases h'
  · rintro ⟨hn, hlow⟩ p hp
    refine (drives_synchronise hn p ⟨hp, trivial⟩ _ (map_fst_constantly _ _) fun b hb => ?_).2.2.2
    obtain ⟨w, -, rfl⟩ := List.mem_map.mp hb
    exact hlow

/-- A byte on a narrow bus, exactly. -/
theorem run_writeByte {p : Panel} (he : p.e = true) (hbusy : p.busy = 0) (hp : p.controller.Narrow)
    (v : ℤ) (low : Fin 16) :
    run wire p ((writeByte v).map fun w => (w, low)) =
      ⟨p.rs, true, bus (v >>> (0 : ℕ)), p.controller.receive p.rs (v % 256).toNat,
        Controller.duration p.rs (v % 256).toNat - 40⟩ := by
  have hbyte : writeByte v = strobe (bus (v >>> (4 : ℕ))) ++ strobe (bus (v >>> (0 : ℕ))) := rfl
  rw [hbyte, List.map_append, run_append, run_strobe he (by omega), hp.latchTime_first,
    run_strobe rfl (Nat.zero_le _), hp.latch_latch, hp.latchTime_latch, bus_halves]

/-- Between two bytes "Display Settings" are the instruction that returns to the beginning of the
text. -/
theorem run_three {c : Controller} (hc : c.Narrow) (d low : Fin 16) :
    run wire ⟨false, true, d, c, 0⟩ (Driver.displaySettings.map fun w => (w, low)) =
      ⟨false, true, bus 0x3, c.instruct 0x02, 0⟩ := by
  have hwait : Controller.duration false ((0x3 : ℤ) % 256).toNat - 40 - 1640 = 0 := by decide
  rw [Driver.displaySettings, List.map_append, run_append, run_writeByte rfl rfl hc]
  exact Panel.ext rfl rfl rfl rfl hwait

/-- **The constructor on a display that is set up already**, between two bytes on a narrow bus. "Display
Settings" return to the beginning of the text; it is busy with the last one when the others come, and
its text stays. -/
theorem powerUp_narrow (type : LcdType) {p : Panel} (hbusy : p.busy ≤ 15000) (hp : p.controller.Narrow)
    (low : Fin 16) :
    (run wire p ((Driver.powerUp type).1.map fun w => (w, low))).controller =
      p.controller.instruct 0x02 := by
  have hhome := hp.instruct (h := 0) (by decide) 2
  have htwo : Controller.duration false ((0x2 : ℤ) % 256).toNat - 40 - 40 = 1560 := by decide
  have hsync : run wire p ((Driver.synchronise 3).map fun w => (w, low)) =
      ⟨false, true, bus 0x2, p.controller.instruct 0x02, 1560⟩ := by
    obtain ⟨d, hd⟩ := run_threes (c := p.controller.instruct 0x02) (fun d => run_three hhome d low) 2
      (bus 0x3)
    rw [run_synchronise hbusy, List.replicate_succ, List.flatten_cons, List.map_append, run_append,
      run_three hp, hd, run_writeByte rfl rfl hhome]
    exact Panel.ext rfl rfl rfl rfl htwo
  have hsplit : (Driver.powerUp type).1 = Driver.synchronise 3 ++ ((writeCommand 0x28 ++
      writeCommand 0x0C ++ writeCommand 0x6 ++ writeCommand 0x01) ++ [.wait 1640]) := by
    simp only [Driver.powerUp, Driver.cls, List.append_assoc]
  have htime : ((writeCommand 0x28 ++ writeCommand 0x0C ++ writeCommand 0x6 ++
      writeCommand 0x01).map PinWrite.time).sum < 1560 := by decide
  rw [hsplit, List.map_append, run_append, hsync, List.map_append, run_append]
  simp only [List.map_cons, List.map_nil, run_cons, run_nil, wire_wait]
  generalize p.controller.instruct 0x02 = c
  refine run_missed (p := ⟨false, true, bus 0x2, c, 1560⟩) ?_
  rw [List.map_map]
  exact htime

end ParkingLot
