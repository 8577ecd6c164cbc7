import ParkingLot.Main

/-!
# main and its interrupt handlers

The system is `main` with `fish_ISR` and `register_ISR` as its handlers: a run is a list of labels,
each one statement of main or one whole handler.

* `Handler`, `handle`, `lot`, `next`: the system.
* `powerOn`, `LoopEntry`: the states that runs start in.
* **`roster_run`**: on the list, every run from the loop entry is a run of a `Roster`.
-/

namespace ParkingLot

open Machine

/-- A handler, with what it reads. -/
inductive Handler
  | fish (pin : Bool)
  | register (s : Session)

/-- A handler runs, once `rise` was called for it. -/
def handle (g : Globals) : Handler → Globals
  | .fish pin => if g.fishRise then fishISR pin g else g
  | .register s => if g.cardRise then (registerISR s g).1 else g

def lot : Preempted Main Globals Env Handler := ⟨mainStep, handle⟩

abbrev Label := Env ⊕ Handler

abbrev next : Main × Globals → Label → Main × Globals := lot.next

@[simp] theorem lot_fore (m : Main) (g : Globals) (e : Env) :
    lot.fore m g e = mainStep m g e := rfl

@[simp] theorem lot_handler (g : Globals) (h : Handler) : lot.handler g h = handle g h := rfl

@[simp] theorem next_main (m : Main) (g : Globals) (e : Env) :
    next (m, g) (.inl e) = mainStep m g e := by
  rw [next, Preempted.next_inl, lot]

@[simp] theorem next_handler (m : Main) (g : Globals) (h : Handler) :
    next (m, g) (.inr h) = (m, handle g h) := rfl

theorem handle_fish (g : Globals) (pin : Bool) :
    handle g (.fish pin) = if g.fishRise ∧ Counts pin g then
      { g with avaliableSpots := g.avaliableSpots + 1 } else g := by
  simp only [handle, fishISR_eq]
  split_ifs <;> simp_all

theorem handle_register_frame (g : Globals) (s : Session) :
    (handle g (.register s)).frame = g.frame := by
  simp only [handle]
  split_ifs
  · exact registerISR_frame s g
  · rfl

theorem handle_register_spots (g : Globals) (s : Session) :
    (handle g (.register s)).avaliableSpots = g.avaliableSpots :=
  congrArg Prod.fst (handle_register_frame g s)

theorem handle_gate (g : Globals) (h : Handler) : (handle g h).gate = g.gate := by
  obtain pin | s := h
  · rw [handle_fish]
    split_ifs <;> rfl
  · exact congrArg (fun f => f.2.1) (handle_register_frame g s)

/-! ## Start states -/

/-- The state before line 56. -/
def powerOn : Main × Globals :=
  (⟨.initDist, "", 0, 0, "", 0, 0, 0⟩,
    { avaliableSpots := 0
      idList := []
      uid := .init
      led := ⟨false, false, false⟩
      gate := .uninitialized
      lcd := .blank
      cardRise := false
      fishRise := false })

/-- The points of the start-up. -/
def PC.Booting : PC → Prop
  | .initDist | .initSpots | .initDebounce | .initCardRise | .initFishRise | .initMaster
  | .initReader | .initLed _ | .initLcd _ | .gateCalibrate | .gateWait | .gateInitClose => True
  | _ => False

/-- A state in which main enters its loop: only the master card is on the list, the gate is closed,
and the handlers are attached. -/
structure LoopEntry where
  m : Main
  g : Globals
  pc_eq : m.pc = .loopLcd .cls
  idList_eq : g.idList = [masterID]
  gate_eq : g.gate = .closed
  cardRise_eq : g.cardRise = true
  fishRise_eq : g.fishRise = true

def LoopEntry.state (s : LoopEntry) : Main × Globals := (s.m, s.g)

@[simp] theorem LoopEntry.state_pc (s : LoopEntry) : s.state.1.pc = .loopLcd .cls := s.pc_eq

def LoopEntry.boot (e : Env) : LoopEntry where
  m := (run next powerOn (List.replicate 17 (.inl e))).1
  g := (run next powerOn (List.replicate 17 (.inl e))).2
  pc_eq := rfl
  idList_eq := rfl
  gate_eq := rfl
  cardRise_eq := rfl
  fishRise_eq := rfl

/-! ## The start-up is over once -/

instance (p : PC) : Decidable p.Booting := by
  apply PC.casesOn (motive := fun p => Decidable p.Booting) p <;> intros <;>
    first | exact instDecidableTrue | exact instDecidableFalse

theorem flow_booting : ∀ p : PC, ¬ p.Booting → ∀ q ∈ p.flow, ¬ q.Booting := by decide +kernel

theorem not_booting (s : LoopEntry) (as : List Label) : ¬ (run next s.state as).1.pc.Booting := by
  refine Preempted.run_keeps (P := lot) (I := fun m _ => ¬ m.pc.Booting) ?_ ?_ ?_ as
  · intro m g e h
    rw [lot_fore]
    exact mainStep_keeps flow_booting g e h
  · exact fun m g h => id
  · rw [s.state_pc]
    exact id

/-! ## The list -/

def enrolledBy (s : Main × Globals) : Label → List String
  | .inr (.register r) => if s.2.cardRise then enrolled (registerISR r s.2).2 else []
  | _ => []

/-- Main is in its loop, and the list is that of the register. -/
def Listed (s : Main × Globals) (R : Roster masterID) : Prop :=
  ¬ s.1.pc.Booting ∧ s.2.idList = R.entries

theorem tracks_roster : Tracks Listed next Roster.enrol enrolledBy := by
  rintro ⟨m, g⟩ R (e | pin | s) ⟨hpc, hl⟩
  · rw [next_main]
    refine ⟨mainStep_keeps flow_booting g e hpc, ?_⟩
    have hpc' : m.pc ≠ .initMaster := by
      intro h
      rw [h] at hpc
      exact hpc trivial
    rw [mainStep_idList, if_neg hpc', hl]
    rfl
  · refine ⟨hpc, ?_⟩
    rw [next_handler, handle_fish]
    split_ifs <;> exact hl
  · refine ⟨hpc, ?_⟩
    rw [next_handler, handle, enrolledBy]
    split_ifs
    · exact (registerISR_sound s g R hl).1
    · exact hl

def enrolments (s : Main × Globals) (as : List Label) : List String :=
  (steps next s as).flatMap fun p => enrolledBy p.1 p.2

@[simp] theorem enrolments_append (s : Main × Globals) (as bs : List Label) :
    enrolments s (as ++ bs) = enrolments s as ++ enrolments (run next s as) bs := by
  simp [enrolments]

/-- **The list of a run is a roster** founded by the master card. -/
theorem roster_run (s : LoopEntry) (as : List Label) :
    (run next s.state as).2.idList =
      (run Roster.enrol (Roster.found masterID) (enrolments s.state as)).entries := by
  have h : Listed s.state (Roster.found masterID) := by
    refine ⟨?_, s.idList_eq⟩
    rw [s.state_pc]
    exact id
  exact (tracks_roster.run h as).2

/-! ## Runs of main alone -/

/-- `n` statements of main, with these readings of the gate timer and the distance sensor. -/
def stay (n : ℕ) (timerGate : ℚ) (distance : ℤ) : List Label :=
  List.replicate n (.inl { timerGate := timerGate, distance := distance })

/-- From the head of the loop: the card with the UID `a b c d` is found and read. -/
def readCard (a b c d : UInt8) : List Label :=
  stay 4 0 0 ++ [.inl { responses := atqaAnswers, bufferATQA := [0, 0] },
    .inl { responses := selectAnswers a b c d, buffer := List.replicate 9 0 }]

/-- From the head of the loop: the master card is read and found first on the list, and main is
about to open the gate. -/
def approach : List Label := readCard 0x15 0x89 0x0A 0x0B ++ stay 28 0 0

/-- From `gate_open`: a car is in the gateway, and main is about to store the new number. -/
def enter : List Label := stay 13 0 0

/-- From there: the car is gone after five seconds, and main is back at the head of the loop. -/
def clear : List Label := stay 18 5 100

end ParkingLot
