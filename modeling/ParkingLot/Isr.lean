import ParkingLot.Card
import ParkingLot.Device
import ParkingLot.Machine.Preempt
import ParkingLot.Machine.Roster
import Mathlib.Order.Lattice

/-!
# The interrupt handlers

A handler runs to completion. What it reads from timers, pins and the reader is an input.

* `fishISR`: the exit counter.
* `Session`, `registerISR`: a registration session, with the log of what it did.
* `fishISR_eq`: the exit counter writes the free spots and nothing else.
* `registerISR_frame`: a session changes neither the free spots nor the gate.
* `registerISR_led`, `registerISR_lcd`: what it leaves on the LED and on the display.
* **`registerISR_sound`**: on the list a session is a sequence of enrolments in a `Roster`, all of
  them after a successful read of the master ID.
-/

namespace ParkingLot

open Machine

/-- `fish_ISR`, with the level of the pin after the wait. -/
def fishISR (pin : Bool) (g : Globals) : Globals :=
  if pin then
    if g.avaliableSpots < numberOfParkSpots then { g with avaliableSpots := g.avaliableSpots + 1 }
    else g
  else g

def Counts (pin : Bool) (g : Globals) : Prop := pin ∧ g.avaliableSpots < numberOfParkSpots

instance (pin : Bool) (g : Globals) : Decidable (Counts pin g) :=
  inferInstanceAs (Decidable (_ ∧ _))

theorem fishISR_eq (pin : Bool) (g : Globals) :
    fishISR pin g =
      if Counts pin g then { g with avaliableSpots := g.avaliableSpots + 1 } else g := by
  unfold fishISR Counts
  split_ifs <;> simp_all

/-! ## Sessions -/

/-- What one turn of a scan loop reads: the timer at the loop test, at the countdown and at the
denial, the answers of the chip to the two reader calls, and the contents of their buffers. -/
structure Poll where
  atTest : ℚ
  atPrint : ℚ
  atDeny : ℚ
  bufferATQA : List UInt8
  request : List UInt8
  buffer : List UInt8
  select : List UInt8

/-- What a run of `register_ISR` reads: the debounce timer, the pin before and after the wait, and
the turns of its two loops. A list that ends leaves the loop by the timer. -/
structure Session where
  debounceMs : ℤ
  pressed : Bool
  pressedAgain : Bool
  masterPolls : List Poll
  newPolls : List Poll

inductive Act
  | wait (seconds : ℚ)
  | request (present : Bool)
  | select (ok : Bool)
  | cardID (id : String)
  | enrol (id : String)
  deriving DecidableEq, Repr

/-- The state of a session: the shared variables, its own `currentCardID`, and what it did. -/
structure Registration where
  g : Globals
  currentCardID : String
  acts : List Act

/-- The conversion of a float to `int`. -/
def toInt (q : ℚ) : ℤ := q.num.tdiv q.den

namespace Registration

def log (r : Registration) (a : Act) : Registration := { r with acts := r.acts ++ [a] }

/-- `setLED`, and the three assignments that stand for it. -/
def setLED (r : Registration) (l : Led) : Registration := { r with g := { r.g with led := l } }

/-- Some calls on the display. -/
def onLcd (r : Registration) (f : TextLCD → TextLCD) : Registration :=
  { r with g := { r.g with lcd := f r.g.lcd } }

def countdown (r : Registration) (p : Poll) : Registration :=
  r.onLcd fun l => (l.locate 14 1).printf (toString (toInt (registerPeriod - p.atPrint)))

/-- `PICC_IsNewCardPresent` and `PICC_ReadCardSerial`, with the wait if one of them fails: was a
card read? -/
def lookForCard (r : Registration) (p : Poll) : Bool × Registration :=
  let present := (piccIsNewCardPresent p.bufferATQA (Bus.of p.request)).1
  let r := r.log (.request present)
  if present then
    let read := (piccReadCardSerial r.g.uid p.buffer (Bus.of p.select)).1
    let r := { r with g := { r.g with uid := read.2 } }.log (.select read.1)
    if read.1 then (true, r) else (false, r.log (.wait (1 / 2)))
  else (false, r.log (.wait (1 / 2)))

def readID (r : Registration) : Registration :=
  { r with currentCardID := getCardID r.g.uid }.log (.cardID (getCardID r.g.uid))

/-- The body of the first loop. -/
def masterTurn (r : Registration) (p : Poll) : Registration :=
  let look := ((r.setLED ledBlue).countdown p).lookForCard p
  let r := look.2
  if look.1 then
    let r := r.readID
    if r.currentCardID ≠ masterID then
      let r := (r.setLED ledRed).onLcd lcdIntruder.write
      let r := r.log (.wait (min defaultLcdWait (toInt (p.atDeny - 1)) : ℤ))
      r.onLcd lcdRegisterMaster.write
    else r
  else r

def push (r : Registration) : Registration :=
  { r with g := { r.g with idList := r.g.idList ++ [r.currentCardID] } }.log (.enrol r.currentCardID)

/-- The body of the second loop. -/
def newTurn (r : Registration) (p : Poll) : Registration :=
  let look := ((r.setLED ledRed).countdown p).lookForCard p
  let r := look.2
  if look.1 then
    let r := (r.setLED ledGreen).readID
    if checkList r.currentCardID r.g.idList = false then
      (r.push.onLcd fun l => l.cls.printf "New Card Added").log (.wait defaultLcdWait)
    else (r.onLcd fun l => l.cls.printf "Already In List").log (.wait defaultLcdWait)
  else r

/-- `while (timer_register.read() < REGISTER_PERIOD && currentCardID != MASTER_ID)`. -/
def masterPhase : Registration → List Poll → Registration :=
  polled (fun r p => p.atTest < registerPeriod ∧ r.currentCardID ≠ masterID) masterTurn

/-- `while (timer_register.read() < REGISTER_PERIOD && currentCardID == MASTER_ID)`. -/
def newPhase : Registration → List Poll → Registration :=
  polled (fun r p => p.atTest < registerPeriod ∧ r.currentCardID = masterID) newTurn

def welcome (r : Registration) : Registration :=
  r.onLcd (lcdWelcome r.g.avaliableSpots).write

/-- The part of a session that the button has to be held for. -/
def session (s : Session) (r : Registration) : Registration :=
  let r := r.onLcd lcdRegisterMaster.write
  let r := r.masterPhase s.masterPolls
  let r :=
    if r.currentCardID = masterID then
      let r := (r.setLED ledGreen).onLcd lcdRegisterNew.write
      (r.log (.wait defaultLcdWait)).newPhase s.newPolls
    else r
  r.welcome.setLED ledRed

end Registration

/-- `register_ISR`: the shared variables afterwards, and what it did. -/
def registerISR (s : Session) (g : Globals) : Globals × List Act :=
  let r : Registration := ⟨g, "", []⟩
  if 100 < s.debounceMs ∧ s.pressed then
    let r := r.log (.wait (1 / 10))
    let r := if s.pressedAgain then r.session s else r
    (r.welcome.g, r.welcome.acts)
  else (r.g, r.acts)

/-! ## What one turn does -/

def enrolled (acts : List Act) : List String :=
  acts.filterMap fun
    | .enrol id => some id
    | _ => none

@[simp] theorem enrolled_append (as bs : List Act) :
    enrolled (as ++ bs) = enrolled as ++ enrolled bs := List.filterMap_append

/-- The shared variables that no session writes. -/
def Globals.frame (g : Globals) : ℤ × Gate × Bool × Bool :=
  (g.avaliableSpots, g.gate, g.cardRise, g.fishRise)

namespace Registration

@[simp] theorem frame_onLcd (r : Registration) (f : TextLCD → TextLCD) :
    (r.onLcd f).g.frame = r.g.frame := rfl

@[simp] theorem frame_setLED (r : Registration) (l : Led) : (r.setLED l).g.frame = r.g.frame := rfl

@[simp] theorem log_g (r : Registration) (a : Act) : (r.log a).g = r.g := rfl

theorem lookForCard_cases (r : Registration) (p : Poll) :
    (∃ uid as, enrolled as = [] ∧
      r.lookForCard p = (false, { r with g := { r.g with uid := uid }, acts := r.acts ++ as })) ∨
    ∃ uid, r.lookForCard p = (true,
      { r with
        g := { r.g with uid := uid }
        acts := r.acts ++ [.request true, .select true] }) := by
  simp only [lookForCard, log_g]
  split_ifs with h1 h2
  · refine Or.inr ⟨(piccReadCardSerial r.g.uid p.buffer (Bus.of p.select)).1.2, ?_⟩
    simp only [log, h1, h2, List.append_assoc]
    rfl
  · refine Or.inl ⟨(piccReadCardSerial r.g.uid p.buffer (Bus.of p.select)).1.2,
      [.request true, .select false, .wait (1 / 2)], rfl, ?_⟩
    simp only [log, h1, h2, List.append_assoc]
    rfl
  · refine Or.inl ⟨r.g.uid, [.request false, .wait (1 / 2)], rfl, ?_⟩
    simp only [log, h1, List.append_assoc]
    rfl

/-- A turn of the first loop fails, or it reads the ID of a card. -/
theorem masterTurn_cases (r : Registration) (p : Poll) :
    (r.masterTurn p).g.frame = r.g.frame ∧ (r.masterTurn p).g.idList = r.g.idList ∧
      ∃ as, enrolled as = [] ∧
        ((r.masterTurn p).currentCardID = r.currentCardID ∧
            (r.masterTurn p).acts = r.acts ++ as ∨
          (r.masterTurn p).acts = r.acts ++ [.request true, .select true,
            .cardID (r.masterTurn p).currentCardID] ++ as) := by
  unfold masterTurn
  obtain ⟨uid, as, has, h⟩ | ⟨uid, h⟩ := lookForCard_cases ((r.setLED ledBlue).countdown p) p
  · simp only [h]
    exact ⟨rfl, rfl, as, has, Or.inl ⟨rfl, rfl⟩⟩
  · simp only [h, if_true]
    split_ifs
    · refine ⟨rfl, rfl, [.wait (min defaultLcdWait (toInt (p.atDeny - 1)) : ℤ)], rfl, Or.inr ?_⟩
      simp [log, readID, onLcd, setLED, countdown]
    · refine ⟨rfl, rfl, [], rfl, Or.inr ?_⟩
      simp [log, readID, onLcd, setLED, countdown]

/-- A turn of the second loop fails, or it reads an ID and enrols it if it is new. -/
theorem newTurn_cases (r : Registration) (p : Poll) :
    (r.newTurn p).g.frame = r.g.frame ∧
      ∃ as, (r.newTurn p).acts = r.acts ++ as ∧
        ((r.newTurn p).g.idList = r.g.idList ∧ enrolled as = [] ∨
          (r.newTurn p).currentCardID ∉ r.g.idList ∧
            (r.newTurn p).g.idList = r.g.idList ++ [(r.newTurn p).currentCardID] ∧
            enrolled as = [(r.newTurn p).currentCardID]) := by
  unfold newTurn
  obtain ⟨uid, as, has, h⟩ | ⟨uid, h⟩ := lookForCard_cases ((r.setLED ledRed).countdown p) p
  · simp only [h]
    exact ⟨rfl, as, rfl, Or.inl ⟨rfl, has⟩⟩
  · simp only [h, if_true]
    split_ifs with hc
    · refine ⟨rfl, [.request true, .select true, .cardID (getCardID uid), .enrol (getCardID uid),
        .wait defaultLcdWait], ?_, Or.inr ⟨?_, rfl, rfl⟩⟩
      · simp [log, push, readID, onLcd, setLED, countdown]
      · exact fun hmem => Bool.eq_false_iff.mp hc (checkList_iff.mpr hmem)
    · refine ⟨rfl, [.request true, .select true, .cardID (getCardID uid), .wait defaultLcdWait], ?_,
        Or.inl ⟨rfl, rfl⟩⟩
      simp [log, readID, onLcd, setLED, countdown]

end Registration

/-! ## Whole sessions -/

/-- The master ID was computed from a successful read. -/
def MasterRead (acts : List Act) : Prop := [.select true, .cardID masterID] <:+: acts

/-- Every enrolment comes after a read of the master card. -/
def Authorised (acts : List Act) : Prop :=
  ∀ before id, before ++ [.enrol id] <+: acts → MasterRead before

theorem MasterRead.mono {as bs : List Act} (h : MasterRead as) (hp : as <+: bs) : MasterRead bs :=
  List.IsInfix.trans h hp.isInfix

theorem mem_enrolled {id : String} {acts : List Act} : id ∈ enrolled acts ↔ .enrol id ∈ acts := by
  unfold enrolled
  rw [List.mem_filterMap]
  constructor
  · rintro ⟨a, ha, h⟩
    cases a <;> simp_all
  · exact fun h => ⟨_, h, rfl⟩

theorem Authorised.of_enrolled_nil {acts : List Act} (h : enrolled acts = []) :
    Authorised acts := by
  intro before id hp
  have hmem : id ∈ enrolled acts := mem_enrolled.mpr (hp.subset (by simp))
  rw [h] at hmem
  exact absurd hmem List.not_mem_nil

/-- **After a read of the master card anything goes.** -/
theorem Authorised.append {as : List Act} (h : Authorised as) (hm : MasterRead as)
    (bs : List Act) : Authorised (as ++ bs) := by
  intro before id hp
  rcases List.prefix_or_prefix_of_prefix hp (List.prefix_append as bs) with h1 | h1
  · exact h before id h1
  · rcases List.prefix_concat_iff.mp h1 with rfl | h2
    · exact h before id (List.prefix_refl _)
    · exact hm.mono h2

/-- What a session has done to the list, so far. -/
structure Registration.Sound (R : Roster masterID) (r : Registration) : Prop where
  idList_eq : r.g.idList = (run Roster.enrol R (enrolled r.acts)).entries
  authorised : Authorised r.acts

/-- A session that waits for the master card: nothing is enrolled, and it holds the master ID only
if it has read it. -/
structure Registration.Scanning (R : Roster masterID) (r : Registration) : Prop where
  idList_eq : r.g.idList = R.entries
  enrolled_eq : enrolled r.acts = []
  master : r.currentCardID = masterID → MasterRead r.acts

namespace Registration

variable {R : Roster masterID}

theorem Scanning.sound {r : Registration} (h : r.Scanning R) : r.Sound R := by
  refine ⟨?_, .of_enrolled_nil h.enrolled_eq⟩
  rw [h.idList_eq, h.enrolled_eq]
  rfl

theorem Scanning.masterTurn {r : Registration} (h : r.Scanning R) (p : Poll) :
    (r.masterTurn p).Scanning R := by
  obtain ⟨-, hl, as, has, ⟨hid, hacts⟩ | hacts⟩ := masterTurn_cases r p
  · refine ⟨hl.trans h.idList_eq, ?_, fun hc => ?_⟩
    · rw [hacts, enrolled_append, h.enrolled_eq, has]
      rfl
    · rw [hacts]
      exact (h.master (hid ▸ hc)).mono (List.prefix_append _ _)
  · refine ⟨hl.trans h.idList_eq, ?_, fun hc => ?_⟩
    · rw [hacts, enrolled_append, enrolled_append, h.enrolled_eq, has]
      rfl
    · rw [hacts, hc]
      exact ⟨r.acts ++ [.request true], as, by simp⟩

theorem Scanning.masterPhase {r : Registration} (h : r.Scanning R) (ps : List Poll) :
    (r.masterPhase ps).Scanning R :=
  polled_induction (I := Registration.Scanning R) (fun _ p _ h => h.masterTurn p) h ps

theorem Sound.newTurn {r : Registration} (h : r.Sound R) (hm : MasterRead r.acts) (p : Poll) :
    (r.newTurn p).Sound R ∧ MasterRead (r.newTurn p).acts := by
  obtain ⟨-, as, hacts, hc⟩ := newTurn_cases r p
  refine ⟨⟨?_, ?_⟩, ?_⟩
  · rw [hacts, enrolled_append, run_append]
    rcases hc with ⟨hl, he⟩ | ⟨hnew, hl, he⟩
    · rw [hl, h.idList_eq, he]
      rfl
    · rw [hl, he, run_cons, run_nil, Roster.entries_enrol, ← h.idList_eq, if_neg hnew]
  · rw [hacts]
    exact h.authorised.append hm as
  · rw [hacts]
    exact hm.mono (List.prefix_append _ _)

theorem Sound.newPhase {r : Registration} (h : r.Sound R) (hm : MasterRead r.acts)
    (ps : List Poll) : (r.newPhase ps).Sound R :=
  (polled_induction (I := fun r : Registration => r.Sound R ∧ MasterRead r.acts)
    (fun _ p _ h => h.1.newTurn h.2 p) ⟨h, hm⟩ ps).1

theorem Scanning.onLcd {r : Registration} (h : r.Scanning R) (f : TextLCD → TextLCD) :
    (r.onLcd f).Scanning R := ⟨h.idList_eq, h.enrolled_eq, h.master⟩

theorem Sound.onLcd {r : Registration} (h : r.Sound R) (f : TextLCD → TextLCD) :
    (r.onLcd f).Sound R := ⟨h.idList_eq, h.authorised⟩

theorem Sound.setLED {r : Registration} (h : r.Sound R) (l : Led) : (r.setLED l).Sound R :=
  ⟨h.idList_eq, h.authorised⟩

theorem Sound.wait {r : Registration} (h : r.Sound R) (hm : MasterRead r.acts) (t : ℚ) :
    (r.log (.wait t)).Sound R := by
  refine ⟨?_, h.authorised.append hm _⟩
  rw [log_g, h.idList_eq, log, enrolled_append]
  simp [enrolled]

theorem Scanning.session {r : Registration} (h : r.Scanning R) (s : Session) :
    (r.session s).Sound R := by
  have h1 := (h.onLcd lcdRegisterMaster.write).masterPhase s.masterPolls
  simp only [Registration.session]
  split_ifs with hc
  · have hm := h1.master hc
    have h2 := ((h1.sound.setLED ledGreen).onLcd lcdRegisterNew.write).wait hm defaultLcdWait
    exact ((h2.newPhase (hm.mono (List.prefix_append _ _)) s.newPolls).onLcd _).setLED _
  · exact (h1.sound.onLcd _).setLED _

end Registration

/-- **A session changes neither the free spots nor the gate.** -/
theorem registerISR_frame (s : Session) (g : Globals) : (registerISR s g).1.frame = g.frame := by
  have hm : ∀ (r : Registration) ps, (r.masterPhase ps).g.frame = r.g.frame :=
    polled_eq (fun r : Registration => r.g.frame) fun r p => (r.masterTurn_cases p).1
  have hn : ∀ (r : Registration) ps, (r.newPhase ps).g.frame = r.g.frame :=
    polled_eq (fun r : Registration => r.g.frame) fun r p => (r.newTurn_cases p).1
  have hs : ∀ r : Registration, (r.session s).g.frame = r.g.frame := by
    intro r
    simp only [Registration.session, Registration.welcome]
    split_ifs <;> simp [hm, hn]
  simp only [registerISR, Registration.welcome]
  split_ifs <;> simp [hs]

/-- **What a session does to the list.** -/
theorem registerISR_sound (s : Session) (g : Globals) (R : Roster masterID)
    (hR : g.idList = R.entries) :
    (registerISR s g).1.idList = (run Roster.enrol R (enrolled (registerISR s g).2)).entries ∧
      Authorised (registerISR s g).2 := by
  have hid : "" ≠ masterID := by decide
  have h0 : Registration.Scanning R ⟨g, "", [.wait (1 / 10)]⟩ := ⟨hR, rfl, fun h => absurd h hid⟩
  have h1 := h0.session s
  simp only [registerISR]
  split_ifs
  · exact ⟨h1.idList_eq, h1.authorised⟩
  · exact ⟨hR, .of_enrolled_nil rfl⟩
  · exact ⟨hR, .of_enrolled_nil rfl⟩

/-! ## What a session leaves behind -/

/-- The first guard of `register_ISR`: the press is handled. -/
def Session.Handled (s : Session) : Prop := 100 < s.debounceMs ∧ s.pressed

/-- Both guards: the session starts. -/
def Session.Starts (s : Session) : Prop := s.Handled ∧ s.pressedAgain

instance (s : Session) : Decidable s.Handled := inferInstanceAs (Decidable (_ ∧ _))

instance (s : Session) : Decidable s.Starts := inferInstanceAs (Decidable (_ ∧ _))

/-- A handled press, after the wait. -/
def Registration.begin (g : Globals) : Registration := ⟨g, "", [.wait (1 / 10)]⟩

theorem registerISR_of_not_handled {s : Session} (h : ¬ s.Handled) (g : Globals) :
    registerISR s g = (g, []) := if_neg h

theorem registerISR_of_starts {s : Session} (h : s.Starts) (g : Globals) :
    registerISR s g = ((((Registration.begin g).session s).welcome.g),
      ((Registration.begin g).session s).acts) := by
  refine (if_pos h.1).trans ?_
  simp only [h.2, if_true]
  rfl

theorem registerISR_of_bounce {s : Session} (h : s.Handled) (h' : ¬ s.Starts) (g : Globals) :
    registerISR s g = ((Registration.begin g).welcome.g, [.wait (1 / 10)]) := by
  have hp : ¬ s.pressedAgain = true := fun hp => h' ⟨h, hp⟩
  refine (if_pos h).trans ?_
  simp only [hp, Bool.false_eq_true, if_false]
  rfl

theorem registerISR_led (s : Session) (g : Globals) :
    (registerISR s g).1.led = if s.Starts then ledRed else g.led := by
  by_cases h : s.Handled
  · by_cases hs : s.Starts
    · rw [registerISR_of_starts hs, if_pos hs]
      rfl
    · rw [registerISR_of_bounce h hs, if_neg hs]
      rfl
  · rw [registerISR_of_not_handled h, if_neg fun hs => h hs.1]

theorem registerISR_lcd (s : Session) (g : Globals) :
    (registerISR s g).1.lcd =
      if s.Handled then (lcdWelcome g.avaliableSpots).write .blank else g.lcd := by
  have hspots := congrArg Prod.fst (registerISR_frame s g)
  by_cases h : s.Handled
  · rw [if_pos h, ← show _ = g.avaliableSpots from hspots]
    by_cases hs : s.Starts
    · rw [registerISR_of_starts hs]
      rfl
    · rw [registerISR_of_bounce h hs]
      rfl
  · rw [registerISR_of_not_handled h, if_neg h]

namespace Registration

@[simp] theorem idList_onLcd (r : Registration) (f : TextLCD → TextLCD) :
    (r.onLcd f).g.idList = r.g.idList := rfl

@[simp] theorem idList_setLED (r : Registration) (l : Led) :
    (r.setLED l).g.idList = r.g.idList := rfl

theorem idList_masterPhase (r : Registration) (ps : List Poll) :
    (r.masterPhase ps).g.idList = r.g.idList :=
  polled_eq (fun r : Registration => r.g.idList) (fun r p => (r.masterTurn_cases p).2.1) r ps

theorem prefix_newPhase (r : Registration) (ps : List Poll) :
    r.g.idList <+: (r.newPhase ps).g.idList := by
  refine polled_induction (I := fun t : Registration => r.g.idList <+: t.g.idList) ?_
    (List.prefix_refl _) ps
  rintro t p - h
  obtain ⟨-, as, -, ⟨hl, -⟩ | ⟨-, hl, -⟩⟩ := t.newTurn_cases p
  · rwa [hl]
  · rw [hl]
    exact h.trans (List.prefix_append _ _)

theorem prefix_session (s : Session) (r : Registration) :
    r.g.idList <+: (r.session s).g.idList := by
  simp only [session, welcome, idList_setLED, idList_onLcd]
  split_ifs
  · refine List.IsPrefix.trans ?_ (prefix_newPhase _ _)
    simp only [log_g, idList_onLcd, idList_setLED, idList_masterPhase]
    exact List.prefix_refl _
  · simp only [idList_onLcd, idList_masterPhase]
    exact List.prefix_refl _

end Registration

/-- **A session only appends to the list.** -/
theorem registerISR_prefix (s : Session) (g : Globals) :
    g.idList <+: (registerISR s g).1.idList := by
  by_cases h : s.Handled
  · by_cases hs : s.Starts
    · rw [registerISR_of_starts hs]
      exact Registration.prefix_session s (Registration.begin g)
    · rw [registerISR_of_bounce h hs]
      exact List.prefix_refl _
  · rw [registerISR_of_not_handled h]

end ParkingLot
