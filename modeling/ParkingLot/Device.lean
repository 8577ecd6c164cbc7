import ParkingLot.Card
import Mathlib.Data.Rat.Defs
import Mathlib.Algebra.Order.Ring.Rat

/-!
# The devices and the shared variables

* `TextLCD`: the 16x2 display with its cursor; `Screen`, the two-line screens of `main.cpp`, written
  in four statements.
* `Globals`: the global variables and devices, shared by main and the two interrupt handlers.
-/

namespace ParkingLot

def numberOfParkSpots : ℤ := 3

/-- `REGISTER_PERIOD`, in seconds. -/
def registerPeriod : ℤ := 10

/-- `DEFAULT_LCD_WAIT`, in seconds. -/
def defaultLcdWait : ℤ := 3

/-! ## The display -/

/-- The text on the display, and the cursor that the next character goes to. -/
structure TextLCD where
  text : Vector (Vector Char 16) 2
  column : Fin 16
  row : Fin 2
  deriving DecidableEq, Repr

namespace TextLCD

def blank : TextLCD := ⟨Vector.replicate 2 (Vector.replicate 16 ' '), 0, 0⟩

def locate (l : TextLCD) (column row : ℕ) : TextLCD :=
  { l with column := Fin.ofNat 16 column, row := Fin.ofNat 2 row }

def cls (_ : TextLCD) : TextLCD := blank

/-- `_putc`. The cursor wraps at the end of a line, and from the second line to the first. -/
def putc (l : TextLCD) (c : Char) : TextLCD :=
  if c = '\n' then { l with column := 0, row := l.row + 1 }
  else
    { text := l.text.set l.row ((l.text.get l.row).set l.column c)
      column := l.column + 1
      row := if l.column = 15 then l.row + 1 else l.row }

def printf (l : TextLCD) (s : String) : TextLCD := s.toList.foldl putc l

end TextLCD

/-- The statements of a function that writes a screen: clear, first line, move, second line. -/
inductive ScreenPoint
  | cls | top | locate | bottom
  deriving DecidableEq, Repr

def ScreenPoint.all : List ScreenPoint := [.cls, .top, .locate, .bottom]

structure Screen where
  top : String
  bottom : String

def Screen.stmt (s : Screen) (l : TextLCD) : ScreenPoint → TextLCD
  | .cls => l.cls
  | .top => l.printf s.top
  | .locate => l.locate 0 1
  | .bottom => l.printf s.bottom

/-- All statements of a function that writes a screen. -/
def Screen.write (s : Screen) (l : TextLCD) : TextLCD :=
  ScreenPoint.all.foldl s.stmt l

def lcdWelcome (avaliableSpots : ℤ) : Screen :=
  ⟨"Welcome! Free: " ++ toString avaliableSpots, "Scan Your Card"⟩

def lcdGrantAccess : Screen := ⟨"Access Granted", "Welcome!"⟩

def lcdIntruder : Screen := ⟨"Access Denied", "Use A Valid Card"⟩

def lcdParkFull : Screen := ⟨"Parking Lot Full", "Come Back Later"⟩

def lcdRegisterMaster : Screen := ⟨"Please Scan", "Master Card"⟩

def lcdRegisterNew : Screen := ⟨"Please Scan", "New Card"⟩

/-! ## LED and gate -/

structure Led where
  red : Bool
  green : Bool
  blue : Bool
  deriving DecidableEq, Repr

inductive LedPoint
  | red | green | blue
  deriving DecidableEq, Repr

def LedPoint.all : List LedPoint := [.red, .green, .blue]

def Led.stmt (v l : Led) : LedPoint → Led
  | .red => { l with red := v.red }
  | .green => { l with green := v.green }
  | .blue => { l with blue := v.blue }

def ledRed : Led := ⟨false, true, false⟩

def ledGreen : Led := ⟨true, false, true⟩

def ledBlue : Led := ⟨true, true, true⟩

/-- What was last written to the servo: `gate = 0.0` or `gate = 1.0`, or neither yet. -/
inductive Gate
  | uninitialized | closed | opened
  deriving DecidableEq, Repr

/-! ## Shared variables -/

/-- The global variables and devices. `cardRise` and `fishRise` say whether `card_register.rise`
and `fish_sensor.rise` were called. -/
structure Globals where
  avaliableSpots : ℤ
  idList : List String
  uid : Uid
  led : Led
  gate : Gate
  lcd : TextLCD
  cardRise : Bool
  fishRise : Bool
  deriving DecidableEq, Repr

end ParkingLot
