import ParkingLot.System

/-!
# One card in the field

A card as a state machine beside the system: it answers REQA in IDLE, is ACTIVE after a completed
select, and falls back to IDLE at the next REQA.

* `Picc`, `Picc.after`: the card, and its states after what the reader does.
* `Field`, `FieldEvent`, `Conforms`: the system with one card, and the runs in which the answers
  that the reader gets are the card's.
* **`one_decision`**: one decision a presentation, in the runs in which main's REQA never finds the
  card in IDLE after a decision.
-/

namespace ParkingLot

open Machine

/-- A card: out of the field, or in a state of ISO 14443-3. -/
inductive Picc
  | absent | idle | ready | active | halt
  deriving DecidableEq, Repr

/-- The states that what the reader does can lead to. A failed select can leave a card that takes
part in it in any of its states. -/
def Picc.after : Picc → Act → List Picc
  | .idle, .request true => [.ready]
  | .ready, .request false | .active, .request false => [.idle]
  | .absent, .request false => [.absent]
  | .halt, .request false => [.halt]
  | _, .request _ => []
  | .ready, .select true => [.active]
  | _, .select true => []
  | .absent, .select false => [.absent]
  | .halt, .select false => [.halt]
  | _, .select false => [.idle, .ready, .active]
  | c, _ => [c]

def Picc.afterAll (c : Picc) (acts : List Act) : List Picc :=
  acts.foldl (fun cs a => cs.flatMap fun c => c.after a) [c]

/-- What a step does with the reader. -/
def readerActs (t : Main × Globals) : Label → List Act
  | .inl e =>
    match t.1.pc with
    | .newCard => [.request (piccIsNewCardPresent e.bufferATQA (Bus.of e.responses)).1]
    | .readCard => [.select (piccReadCardSerial t.2.uid e.buffer (Bus.of e.responses)).1.1]
    | _ => []
  | .inr (.register r) => if t.2.cardRise then (registerISR r t.2).2 else []
  | .inr (.fish _) => []

/-- Main starts `openProcedure` or `intruderProcedure`. -/
def Decides (t : Main × Globals) : Label → Prop
  | .inl e => (mainStep t.1 t.2 e).1.pc = .openGuard ∨ (mainStep t.1 t.2 e).1.pc = .denyLed .red
  | .inr _ => False

instance (t : Main × Globals) (a : Label) : Decidable (Decides t a) :=
  match a with
  | .inl _ => inferInstanceAs (Decidable (_ ∨ _))
  | .inr _ => instDecidableFalse

/-- The system and a card: main's decisions for it since it entered the field, and whether main
holds a string that it read from it. -/
structure Field where
  card : Picc
  decisions : ℕ
  holding : Bool
  sys : Main × Globals

/-- The card enters or leaves the field, or the system takes a step that leaves it in state
`card`. -/
inductive FieldEvent
  | enter
  | leave
  | step (a : Label) (card : Picc)

namespace Field

def next (f : Field) : FieldEvent → Field
  | .enter => { f with card := if f.card = .absent then .idle else f.card }
  | .leave => { f with card := .absent, decisions := 0, holding := false }
  | .step a card =>
    { card := card
      decisions := if Decides f.sys a ∧ f.holding then f.decisions + 1 else f.decisions
      holding :=
        if Decides f.sys a then false
        else if .select true ∈ readerActs f.sys a ∧ f.sys.1.pc = .readCard then true
        else f.holding
      sys := ParkingLot.next f.sys a }

@[simp] theorem next_step_sys (f : Field) (a : Label) (card : Picc) :
    (f.next (.step a card)).sys = ParkingLot.next f.sys a := rfl

/-- The reader gets the answers of the card. -/
def Conforms (f : Field) : FieldEvent → Prop
  | .step a card => card ∈ f.card.afterAll (readerActs f.sys a)
  | _ => True

/-- Main does not send REQA to the card in IDLE once it has decided. -/
def Dozing (f : Field) : FieldEvent → Prop
  | .step (.inl _) _ => f.sys.1.pc = .newCard → 0 < f.decisions → f.card ≠ .idle
  | _ => True

instance (f : Field) (ev : FieldEvent) : Decidable (f.Conforms ev) :=
  match ev with
  | .enter | .leave => instDecidableTrue
  | .step _ _ => inferInstanceAs (Decidable (_ ∈ _))

instance (f : Field) (ev : FieldEvent) : Decidable (f.Dozing ev) :=
  match ev with
  | .enter | .leave | .step (.inr _) _ => instDecidableTrue
  | .step (.inl _) _ => inferInstanceAs (Decidable (_ → _ → _))

def empty (s : LoopEntry) : Field := ⟨.absent, 0, false, s.state⟩

end Field

/-! ## At most one decision -/

/-- The points from an answered REQA to the decision. -/
def PC.Serving : PC → Prop
  | .readCard | .idClear | .idTest | .idSprintf | .idAppend | .idIncr | .scanInit | .scanTest
  | .scanCompare | .scanIncr => True
  | _ => False

instance (p : PC) : Decidable p.Serving := by
  apply PC.casesOn (motive := fun p => Decidable p.Serving) p <;> intros <;>
    first | exact instDecidableTrue | exact instDecidableFalse

theorem flow_serving : ∀ p : PC, ¬ p.Serving → ∀ q ∈ p.flow, q.Serving → p = .newCard := by
  decide +kernel

theorem flow_decides : ∀ p : PC, ∀ q ∈ p.flow, q = .openGuard ∨ q = .denyLed .red → p.Serving := by
  decide +kernel

namespace Field

theorem idle_of_present {f : Field} {e : Env} {card : Picc} (hc : f.Conforms (.step (.inl e) card))
    (hpc : f.sys.1.pc = .newCard)
    (hp : (piccIsNewCardPresent e.bufferATQA (Bus.of e.responses)).1 = true) : f.card = .idle := by
  simp only [Conforms, readerActs, hpc, hp, Picc.afterAll, List.foldl_cons, List.foldl_nil,
    List.flatMap_singleton] at hc
  revert hc
  cases f.card <;> simp [Picc.after]

/-- No decision is made twice: there is at most one, and none while main serves a card. -/
def Once (f : Field) : Prop :=
  f.decisions ≤ 1 ∧ (f.sys.1.pc.Serving → f.decisions = 0)

theorem once_main {f : Field} {e : Env} {card : Picc} (hc : f.Conforms (.step (.inl e) card))
    (hd : f.Dozing (.step (.inl e) card)) (hf : f.Once) : (f.next (.step (.inl e) card)).Once := by
  obtain ⟨c, n, hold, m, g⟩ := f
  obtain ⟨h1, h0⟩ := hf
  have hflow := mainStep_flow m g e
  by_cases hdec : Decides (m, g) (.inl e)
  · -- main leaves the points where it serves a card
    have hs : m.pc.Serving := flow_decides _ _ hflow hdec
    have hn : n = 0 := h0 hs
    refine ⟨?_, fun hs' => ?_⟩
    · simp only [next, hn]
      split_ifs <;> omega
    · exfalso
      rw [next_step_sys, next_main] at hs'
      rcases hdec with hq | hq <;> rw [hq] at hs' <;> exact hs'
  · have hn : (next ⟨c, n, hold, m, g⟩ (.step (.inl e) card)).decisions = n := by
      simp [next, hdec]
    rw [Once, hn]
    refine ⟨h1, fun hs' => ?_⟩
    rw [next_step_sys, next_main] at hs'
    by_cases hs : m.pc.Serving
    · exact h0 hs
    · have hpc : m.pc = .newCard := flow_serving m.pc hs _ hflow hs'
      have hp : (piccIsNewCardPresent e.bufferATQA (Bus.of e.responses)).1 = true := by
        by_contra hno
        simp only [mainStep_pc, hpc, hno] at hs'
        exact hs'
      have hidle : c = .idle := idle_of_present hc hpc hp
      exact Nat.eq_zero_of_not_pos fun hpos => hd hpc hpos hidle

theorem once_next (f : Field) (ev : FieldEvent) (hok : f.Conforms ev ∧ f.Dozing ev) (hf : f.Once) :
    (f.next ev).Once := by
  obtain _ | _ | ⟨e | h, card⟩ := ev
  · exact hf
  · exact ⟨Nat.zero_le 1, fun _ => rfl⟩
  · exact once_main hok.1 hok.2 hf
  · have hd : ¬ Decides f.sys (.inr h) := id
    have hn : (f.next (.step (.inr h) card)).decisions = f.decisions := by
      simp [next, hd]
    rw [Once, hn]
    exact hf

end Field

/-- **One presentation, one decision.** In every run with one card in which main's REQA never finds
the card in IDLE after main has decided about it, main decides at most once before the card leaves
the field. -/
theorem one_decision (s : LoopEntry) (evs : List FieldEvent)
    (hc : Legal Field.next Field.Conforms (Field.empty s) evs)
    (hd : Legal Field.next Field.Dozing (Field.empty s) evs) :
    (run Field.next (Field.empty s) evs).decisions ≤ 1 := by
  have h0 : (Field.empty s).Once := ⟨Nat.zero_le 1, fun _ => rfl⟩
  have hok : Legal Field.next (fun f ev => f.Conforms ev ∧ f.Dozing ev) (Field.empty s) evs :=
    fun p hp => ⟨hc p hp, hd p hp⟩
  exact (legal_induction Field.once_next h0 hok).1

def held (as : List Label) (card : Picc) : List FieldEvent := as.map fun a => .step a card

/-- From the head of the loop: the card `12 34 56 78` answers, is read, and is turned away. -/
def turnedAway : List FieldEvent :=
  held (stay 4 0 0) .idle ++
    [.step (.inl { responses := atqaAnswers, bufferATQA := [0, 0] }) .ready,
      .step (.inl { responses := selectAnswers 0x12 0x34 0x56 0x78, buffer := List.replicate 9 0 })
        .active] ++
    held (stay 23 0 0) .active

/-- From there: `intruderProcedure`, and one look for a card that the active card does not
answer. -/
def unanswered : List FieldEvent :=
  held (stay 17 0 0) .active ++
    [.step (.inl { responses := silence, bufferATQA := [0, 0] }) .idle] ++ held (stay 1 0 0) .idle

theorem one_decision_turned_away :
    (run Field.next (Field.empty (LoopEntry.boot { distance := 100 }))
      (.enter :: turnedAway ++ unanswered)).decisions ≤ 1 :=
  one_decision _ _ (by decide +kernel) (by decide +kernel)

/-- **A card that stays is decided about again and again.** -/
theorem decides_twice : ¬ ∀ (s : LoopEntry) (evs : List FieldEvent),
    Legal Field.next Field.Conforms (Field.empty s) evs →
      (run Field.next (Field.empty s) evs).decisions ≤ 1 := by
  intro h
  have h' := h (LoopEntry.boot { distance := 100 }) (.enter :: turnedAway ++ unanswered ++ turnedAway)
    (by decide +kernel)
  revert h'
  decide +kernel

end ParkingLot
