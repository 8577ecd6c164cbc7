import ParkingLot.Isr

/-!
# main, statement by statement

`PC` has one point for each statement of `main` and of the functions it calls, from the start-up on:
a handler can run between any two of them. `avaliableSpots--` is a load and a store, and the loops
of `getCardID` and `checkList` are taken apart, since both work on shared variables.

* `PC`, `Main`, `Env`: the program points, the locals, and what a step reads from outside.
* `mainStep`: the step function.
* `PC.flow`, `mainStep_flow`: the control flow.
* `mainStep_idList`, `mainStep_avaliableSpots`, `mainStep_gate`, `mainStep_fishRise`: which
  points write a shared variable.
-/

namespace ParkingLot

/-- The program points of main, each standing before its statement. -/
inductive PC
  -- lines 56 to 65
  | initDist | initSpots | initDebounce | initCardRise | initFishRise | initMaster | initReader
  | initLed (p : LedPoint) | initLcd (p : ScreenPoint) | gateCalibrate | gateWait | gateInitClose
  -- the loop: lines 69 to 82
  | loopLcd (p : ScreenPoint) | newCard | pollWait | readCard
  -- `getCardID`
  | idClear | idTest | idSprintf | idAppend | idIncr
  -- `checkList`
  | scanInit | scanTest | scanCompare | scanIncr
  -- `openProcedure`
  | openGuard | openCountInit | openReset | openStart | openLed (p : LedPoint) | openGate
  | openLcd (p : ScreenPoint) | openDist | openTimer | openNear | openRead | openIf
  | openBlue (p : LedPoint) | openLoad | openStore | openCount | openStop
  | fullLcd (p : ScreenPoint) | fullWait
  -- `wait(1)` and `closeProcedure`
  | afterOpen | closeLed (p : LedPoint) | closeGate | closeLcd (p : ScreenPoint)
  -- `intruderProcedure`
  | denyLed (p : LedPoint) | denyGate | denyLcd (p : ScreenPoint) | denyWait
  | denyWelcome (p : ScreenPoint)
  deriving DecidableEq, Repr

/-- The locals of main and of the functions it calls: `i` is the loop variable of `getCardID` and
of `checkList`, `loaded` the value between the load and the store of `avaliableSpots--`. -/
structure Main where
  pc : PC
  currentCardID : String
  gateDistanceCm : ℤ
  i : ℕ
  buffer : String
  distanceCm : ℤ
  count : ℤ
  loaded : ℤ
  deriving DecidableEq, Repr

/-- What a step of main reads: the answers of the chip and the contents of the reader's buffers, the
gate timer, and the distance. -/
structure Env where
  responses : List UInt8 := []
  bufferATQA : List UInt8 := []
  buffer : List UInt8 := []
  timerGate : ℚ := 0
  distance : ℤ := 0
  deriving DecidableEq, Repr

/-! ## Statements -/

/-- The point after a statement of `setLED`, which `exit` follows. -/
def LedPoint.next (k : LedPoint → PC) (exit : PC) : LedPoint → PC
  | .red => k .green
  | .green => k .blue
  | .blue => exit

def ScreenPoint.next (k : ScreenPoint → PC) (exit : PC) : ScreenPoint → PC
  | .cls => k .top
  | .top => k .locate
  | .locate => k .bottom
  | .bottom => exit

namespace Main

def goto (m : Main) (pc : PC) : Main := { m with pc := pc }

def setLED (v : Led) (k : LedPoint → PC) (exit : PC) (p : LedPoint) (m : Main) (g : Globals) :
    Main × Globals :=
  (m.goto (p.next k exit), { g with led := v.stmt g.led p })

def write (s : Screen) (k : ScreenPoint → PC) (exit : PC) (p : ScreenPoint) (m : Main)
    (g : Globals) : Main × Globals :=
  (m.goto (p.next k exit), { g with lcd := s.stmt g.lcd p })

/-- `lcd_welcome()`: the number of free spots is read where it is printed. -/
def welcome (k : ScreenPoint → PC) (exit : PC) (p : ScreenPoint) (m : Main) (g : Globals) :
    Main × Globals :=
  write (lcdWelcome g.avaliableSpots) k exit p m g

end Main

def mainStep (m : Main) (g : Globals) (e : Env) : Main × Globals :=
  match m.pc with
  | .initDist => ({ m.goto .initSpots with gateDistanceCm := e.distance }, g)
  | .initSpots => (m.goto .initDebounce, { g with avaliableSpots := numberOfParkSpots })
  | .initDebounce => (m.goto .initCardRise, g)
  | .initCardRise => (m.goto .initFishRise, { g with cardRise := true })
  | .initFishRise => (m.goto .initMaster, { g with fishRise := true })
  | .initMaster => (m.goto .initReader, { g with idList := g.idList ++ [masterID] })
  | .initReader => (m.goto (.initLed .red), g)
  | .initLed p => m.setLED ledRed .initLed (.initLcd .cls) p g
  | .initLcd p => m.welcome .initLcd .gateCalibrate p g
  | .gateCalibrate => (m.goto .gateWait, g)
  | .gateWait => (m.goto .gateInitClose, g)
  | .gateInitClose => (m.goto (.loopLcd .cls), { g with gate := .closed })
  | .loopLcd p => m.welcome .loopLcd .newCard p g
  | .newCard =>
    let present := (piccIsNewCardPresent e.bufferATQA (Bus.of e.responses)).1
    (m.goto (if present then .readCard else .pollWait), g)
  | .pollWait => (m.goto (.loopLcd .cls), g)
  | .readCard =>
    let read := (piccReadCardSerial g.uid e.buffer (Bus.of e.responses)).1
    (m.goto (if read.1 then .idClear else .pollWait), { g with uid := read.2 })
  | .idClear => ({ m.goto .idTest with currentCardID := "", i := 0 }, g)
  | .idTest => (m.goto (if m.i < g.uid.size then .idSprintf else .scanInit), g)
  | .idSprintf => ({ m.goto .idAppend with buffer := sprintfX (g.uid.byte m.i) }, g)
  | .idAppend => ({ m.goto .idIncr with currentCardID := m.currentCardID ++ m.buffer }, g)
  | .idIncr => ({ m.goto .idTest with i := m.i + 1 }, g)
  | .scanInit => ({ m.goto .scanTest with i := 0 }, g)
  | .scanTest => (m.goto (if m.i < g.idList.length then .scanCompare else .denyLed .red), g)
  | .scanCompare =>
    (m.goto (if m.currentCardID = g.idList.getD m.i "" then .openGuard else .scanIncr), g)
  | .scanIncr => ({ m.goto .scanTest with i := m.i + 1 }, g)
  | .openGuard => (m.goto (if 0 < g.avaliableSpots then .openCountInit else .fullLcd .cls), g)
  | .openCountInit => ({ m.goto .openReset with count := 0 }, g)
  | .openReset => (m.goto .openStart, g)
  | .openStart => (m.goto (.openLed .red), g)
  | .openLed p => m.setLED ledGreen .openLed .openGate p g
  | .openGate => (m.goto (.openLcd .cls), { g with gate := .opened })
  | .openLcd p => m.write lcdGrantAccess .openLcd .openDist p g
  | .openDist => ({ m.goto .openTimer with distanceCm := e.distance }, g)
  | .openTimer => (m.goto (if e.timerGate < defaultLcdWait then .openRead else .openNear), g)
  | .openNear => (m.goto (if m.distanceCm < m.gateDistanceCm then .openRead else .openStop), g)
  | .openRead => ({ m.goto .openIf with distanceCm := e.distance }, g)
  | .openIf =>
    (m.goto (if m.count = 0 ∧ m.distanceCm < m.gateDistanceCm then .openBlue .red else .openTimer), g)
  | .openBlue p => m.setLED ledBlue .openBlue .openLoad p g
  | .openLoad => ({ m.goto .openStore with loaded := g.avaliableSpots }, g)
  | .openStore => (m.goto .openCount, { g with avaliableSpots := m.loaded - 1 })
  | .openCount => ({ m.goto .openTimer with count := m.count + 1 }, g)
  | .openStop => (m.goto .afterOpen, g)
  | .fullLcd p => m.write lcdParkFull .fullLcd .fullWait p g
  | .fullWait => (m.goto .afterOpen, g)
  | .afterOpen => (m.goto (.closeLed .red), g)
  | .closeLed p => m.setLED ledRed .closeLed .closeGate p g
  | .closeGate => (m.goto (.closeLcd .cls), { g with gate := .closed })
  | .closeLcd p => m.welcome .closeLcd (.loopLcd .cls) p g
  | .denyLed p => m.setLED ledRed .denyLed .denyGate p g
  | .denyGate => (m.goto (.denyLcd .cls), { g with gate := .closed })
  | .denyLcd p => m.write lcdIntruder .denyLcd .denyWait p g
  | .denyWait => (m.goto (.denyWelcome .cls), g)
  | .denyWelcome p => m.welcome .denyWelcome (.loopLcd .cls) p g

/-! ## Control flow -/

/-- The points that can follow a point. -/
def PC.flow : PC → List PC
  | .initDist => [.initSpots]
  | .initSpots => [.initDebounce]
  | .initDebounce => [.initCardRise]
  | .initCardRise => [.initFishRise]
  | .initFishRise => [.initMaster]
  | .initMaster => [.initReader]
  | .initReader => [.initLed .red]
  | .initLed p => [p.next .initLed (.initLcd .cls)]
  | .initLcd p => [p.next .initLcd .gateCalibrate]
  | .gateCalibrate => [.gateWait]
  | .gateWait => [.gateInitClose]
  | .gateInitClose => [.loopLcd .cls]
  | .loopLcd p => [p.next .loopLcd .newCard]
  | .newCard => [.readCard, .pollWait]
  | .pollWait => [.loopLcd .cls]
  | .readCard => [.idClear, .pollWait]
  | .idClear => [.idTest]
  | .idTest => [.idSprintf, .scanInit]
  | .idSprintf => [.idAppend]
  | .idAppend => [.idIncr]
  | .idIncr => [.idTest]
  | .scanInit => [.scanTest]
  | .scanTest => [.scanCompare, .denyLed .red]
  | .scanCompare => [.openGuard, .scanIncr]
  | .scanIncr => [.scanTest]
  | .openGuard => [.openCountInit, .fullLcd .cls]
  | .openCountInit => [.openReset]
  | .openReset => [.openStart]
  | .openStart => [.openLed .red]
  | .openLed p => [p.next .openLed .openGate]
  | .openGate => [.openLcd .cls]
  | .openLcd p => [p.next .openLcd .openDist]
  | .openDist => [.openTimer]
  | .openTimer => [.openRead, .openNear]
  | .openNear => [.openRead, .openStop]
  | .openRead => [.openIf]
  | .openIf => [.openBlue .red, .openTimer]
  | .openBlue p => [p.next .openBlue .openLoad]
  | .openLoad => [.openStore]
  | .openStore => [.openCount]
  | .openCount => [.openTimer]
  | .openStop => [.afterOpen]
  | .fullLcd p => [p.next .fullLcd .fullWait]
  | .fullWait => [.afterOpen]
  | .afterOpen => [.closeLed .red]
  | .closeLed p => [p.next .closeLed .closeGate]
  | .closeGate => [.closeLcd .cls]
  | .closeLcd p => [p.next .closeLcd (.loopLcd .cls)]
  | .denyLed p => [p.next .denyLed .denyGate]
  | .denyGate => [.denyLcd .cls]
  | .denyLcd p => [p.next .denyLcd .denyWait]
  | .denyWait => [.denyWelcome .cls]
  | .denyWelcome p => [p.next .denyWelcome (.loopLcd .cls)]

def PC.single : List PC :=
  [.initDist, .initSpots, .initDebounce, .initCardRise, .initFishRise, .initMaster, .initReader,
    .gateCalibrate, .gateWait, .gateInitClose, .newCard, .pollWait, .readCard, .idClear, .idTest,
    .idSprintf, .idAppend, .idIncr, .scanInit, .scanTest, .scanCompare, .scanIncr, .openGuard,
    .openCountInit, .openReset, .openStart, .openGate, .openDist, .openTimer, .openNear, .openRead,
    .openIf, .openLoad, .openStore, .openCount, .openStop, .fullWait, .afterOpen, .closeGate,
    .denyGate, .denyWait]

def PC.all : List PC :=
  PC.single.append <| List.append
    (LedPoint.all.flatMap fun p => [.initLed p, .openLed p, .openBlue p, .closeLed p, .denyLed p])
    (ScreenPoint.all.flatMap fun p =>
      [.initLcd p, .loopLcd p, .openLcd p, .fullLcd p, .closeLcd p, .denyLcd p, .denyWelcome p])

theorem PC.mem_all (p : PC) : p ∈ PC.all := by
  cases p <;> first | decide | (rename_i p; cases p <;> decide)

instance {P : PC → Prop} [DecidablePred P] : Decidable (∀ p, P p) :=
  decidable_of_iff (PC.all.all (fun p => decide (P p)) = true) <| by
    simp only [List.all_eq_true, decide_eq_true_eq]
    exact ⟨fun h p => h p p.mem_all, fun h p _ => h p⟩

instance {p : PC} {P : PC → Prop} [DecidablePred P] : Decidable (∀ q ∈ p.flow, P q) :=
  decidable_of_iff (p.flow.all (fun q => decide (P q)) = true) (by simp)

/-- **A statement follows the control flow.** -/
theorem mainStep_flow (m : Main) (g : Globals) (e : Env) :
    (mainStep m g e).1.pc ∈ m.pc.flow := by
  unfold mainStep PC.flow
  cases m.pc <;> first
    | exact List.mem_singleton.mpr rfl
    | (simp only [Main.goto]
       split_ifs <;> simp)

theorem mainStep_pc (m : Main) (g : Globals) (e : Env) :
    (mainStep m g e).1.pc =
      match m.pc with
      | .newCard =>
        if (piccIsNewCardPresent e.bufferATQA (Bus.of e.responses)).1 then .readCard else .pollWait
      | .readCard =>
        if (piccReadCardSerial g.uid e.buffer (Bus.of e.responses)).1.1 then .idClear else .pollWait
      | .idTest => if m.i < g.uid.size then .idSprintf else .scanInit
      | .scanTest => if m.i < g.idList.length then .scanCompare else .denyLed .red
      | .scanCompare => if m.currentCardID = g.idList.getD m.i "" then .openGuard else .scanIncr
      | .openGuard => if 0 < g.avaliableSpots then .openCountInit else .fullLcd .cls
      | .openTimer => if e.timerGate < defaultLcdWait then .openRead else .openNear
      | .openNear => if m.distanceCm < m.gateDistanceCm then .openRead else .openStop
      | .openIf =>
        if m.count = 0 ∧ m.distanceCm < m.gateDistanceCm then .openBlue .red else .openTimer
      | p => p.flow.headD p := by
  unfold mainStep
  cases m.pc <;> rfl

/-- A set of points that the control flow does not leave. -/
theorem mainStep_keeps {I : PC → Prop} (hI : ∀ p, I p → ∀ q ∈ p.flow, I q) {m : Main} (g : Globals)
    (e : Env) (h : I m.pc) : I (mainStep m g e).1.pc :=
  hI _ h _ (mainStep_flow m g e)

/-! ## What a statement writes -/

theorem mainStep_idList (m : Main) (g : Globals) (e : Env) :
    (mainStep m g e).2.idList =
      if m.pc = .initMaster then g.idList ++ [masterID] else g.idList := by
  unfold mainStep
  cases m.pc <;> rfl

theorem mainStep_avaliableSpots (m : Main) (g : Globals) (e : Env) :
    (mainStep m g e).2.avaliableSpots =
      match m.pc with
      | .initSpots => numberOfParkSpots
      | .openStore => m.loaded - 1
      | _ => g.avaliableSpots := by
  unfold mainStep
  cases m.pc <;> rfl

theorem mainStep_avaliableSpots_of_ne {m : Main} (g : Globals) (e : Env) (h1 : m.pc ≠ .initSpots)
    (h2 : m.pc ≠ .openStore) : (mainStep m g e).2.avaliableSpots = g.avaliableSpots := by
  rw [mainStep_avaliableSpots]
  split
  · contradiction
  · contradiction
  · rfl

theorem mainStep_loaded (m : Main) (g : Globals) (e : Env) :
    (mainStep m g e).1.loaded = if m.pc = .openLoad then g.avaliableSpots else m.loaded := by
  unfold mainStep
  cases m.pc <;> rfl

theorem mainStep_gate (m : Main) (g : Globals) (e : Env) :
    (mainStep m g e).2.gate =
      match m.pc with
      | .openGate => .opened
      | .gateInitClose | .closeGate | .denyGate => .closed
      | _ => g.gate := by
  unfold mainStep
  cases m.pc <;> rfl

theorem mainStep_currentCardID (m : Main) (g : Globals) (e : Env) :
    (mainStep m g e).1.currentCardID =
      match m.pc with
      | .idClear => ""
      | .idAppend => m.currentCardID ++ m.buffer
      | _ => m.currentCardID := by
  unfold mainStep
  cases m.pc <;> rfl

theorem mainStep_i (m : Main) (g : Globals) (e : Env) :
    (mainStep m g e).1.i =
      match m.pc with
      | .idClear | .scanInit => 0
      | .idIncr | .scanIncr => m.i + 1
      | _ => m.i := by
  unfold mainStep
  cases m.pc <;> rfl

/-- The points at which `openProcedure` reads the distance. -/
def PC.Reads (p : PC) : Prop := p = .openDist ∨ p = .openRead

instance (p : PC) : Decidable p.Reads := inferInstanceAs (Decidable (_ ∨ _))

theorem mainStep_gateDistanceCm (m : Main) (g : Globals) (e : Env) :
    (mainStep m g e).1.gateDistanceCm =
      if m.pc = .initDist then e.distance else m.gateDistanceCm := by
  unfold mainStep
  cases m.pc <;> rfl

theorem mainStep_distanceCm (m : Main) (g : Globals) (e : Env) :
    (mainStep m g e).1.distanceCm =
      if m.pc.Reads then e.distance else m.distanceCm := by
  unfold mainStep PC.Reads
  cases m.pc <;> rfl

theorem mainStep_uid (m : Main) (g : Globals) (e : Env) :
    (mainStep m g e).2.uid =
      if m.pc = .readCard then (piccReadCardSerial g.uid e.buffer (Bus.of e.responses)).1.2
      else g.uid := by
  unfold mainStep
  cases m.pc <;> rfl

theorem mainStep_fishRise (m : Main) (g : Globals) (e : Env) :
    (mainStep m g e).2.fishRise = (m.pc = .initFishRise || g.fishRise) := by
  unfold mainStep
  cases m.pc <;> rfl

end ParkingLot
