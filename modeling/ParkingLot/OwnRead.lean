import ParkingLot.System

/-!
# The card that main authenticates

`getCardID` formats `RfChip.uid` byte by byte while `register_ISR` may store the UID of another
card.

* `ownUid`: the UID that main's last successful `PICC_ReadCardSerial` stored.
* `remaining`: the bytes that `getCardID` has still to format.
* **`authenticated_own`**: main checks the string of the card it read, in the runs in which no
  handler changes the bytes still to be formatted.
-/

namespace ParkingLot

open Machine

/-- What a step does to the UID of main's last successful read. -/
def ownUidStep (u : Option Uid) (t : Main × Globals) : Label → Option Uid
  | .inl e =>
    let read := (piccReadCardSerial t.2.uid e.buffer (Bus.of e.responses)).1
    if t.1.pc = .readCard ∧ read.1 then some read.2 else u
  | .inr _ => u

def ownUid (s : LoopEntry) (as : List Label) : Option Uid :=
  (run (ghost next ownUidStep) (none, s.state) as).1

/-- The string that main holds is that of the card it read. -/
def Own (s : LoopEntry) (as : List Label) : Prop :=
  (ownUid s as).map getCardID = some (run next s.state as).1.currentCardID

instance (s : LoopEntry) (as : List Label) : Decidable (Own s as) :=
  inferInstanceAs (Decidable (_ = _))

/-- The bytes that `getCardID` has still to format. -/
def remaining (m : Main) (u : Uid) : List UInt8 :=
  match m.pc with
  | .idClear => u.bytes
  | .idTest | .idSprintf => u.bytes.drop m.i
  | .idAppend | .idIncr => u.bytes.drop (m.i + 1)
  | _ => []

/-- A handler leaves the bytes alone that `getCardID` has still to format. -/
def Undisturbed (t : Main × Globals) : Label → Prop
  | .inl _ => True
  | .inr h => remaining t.1 (handle t.2 h).uid = remaining t.1 t.2.uid

instance (t : Main × Globals) (a : Label) : Decidable (Undisturbed t a) :=
  match a with
  | .inl _ => instDecidableTrue
  | .inr _ => inferInstanceAs (Decidable (_ = _))

/-! ## The string to be -/

/-- The points of `getCardID`, and its return. -/
def PC.Formatting : PC → Prop
  | .idClear | .idTest | .idSprintf | .idAppend | .idIncr | .scanInit => True
  | _ => False

instance (p : PC) : Decidable p.Formatting := by
  apply PC.casesOn (motive := fun p => Decidable p.Formatting) p <;> intros <;>
    first | exact instDecidableTrue | exact instDecidableFalse

theorem flow_formatting : ∀ p : PC, ¬ p.Formatting → ∀ q ∈ p.flow, q.Formatting →
    p = .readCard ∧ q = .idClear := by decide +kernel

/-- What the string starts with when the remaining bytes are appended to it. -/
def soFar (m : Main) : String :=
  match m.pc with
  | .idClear => ""
  | .idAppend => m.currentCardID ++ m.buffer
  | _ => m.currentCardID

def toBe (m : Main) (u : Uid) : String :=
  (remaining m u).foldl (fun s b => s ++ sprintfX b) (soFar m)

theorem toBe_idClear {m : Main} (u : Uid) (h : m.pc = .idClear) : toBe m u = getCardID u := by
  rw [toBe, soFar, remaining, h, getCardID, cardIDUpTo, Uid.bytes]
  exact List.foldl_map

theorem bytes_drop {u : Uid} {i : ℕ} (h : i < u.size) :
    u.bytes.drop i = u.byte i :: u.bytes.drop (i + 1) := by
  have hlen : i < u.bytes.length := by simpa [Uid.bytes] using h
  rw [List.drop_eq_getElem_cons hlen]
  simp [Uid.bytes]

theorem bytes_drop_of_le {u : Uid} {i : ℕ} (h : u.size ≤ i) : u.bytes.drop i = [] :=
  List.drop_eq_nil_of_le (by simpa [Uid.bytes] using h)

/-- Main is formatting, and `c` is the string to be. -/
def Prophecy (c : String) (m : Main) (u : Uid) : Prop :=
  toBe m u = c ∧ (m.pc = .idSprintf → m.i < u.size)

/-- **A statement of `getCardID` does what is foreseen.** -/
theorem prophecy_mainStep {c : String} {m : Main} {g : Globals} (e : Env) (h : Prophecy c m g.uid)
    (hm : m.pc.Formatting) (hm' : (mainStep m g e).1.pc.Formatting) :
    Prophecy c (mainStep m g e).1 g.uid := by
  obtain ⟨rfl, hi⟩ := h
  cases hpc : m.pc <;> rw [hpc] at hm
  case idClear =>
    refine ⟨?_, fun h => ?_⟩
    · unfold toBe remaining soFar mainStep
      rw [hpc]
      exact congrArg (List.foldl _ "") List.drop_zero
    · rw [mainStep_pc, hpc] at h
      exact PC.noConfusion h
  case idTest =>
    by_cases hlt : m.i < g.uid.size
    · refine ⟨?_, fun _ => ?_⟩
      · unfold toBe remaining soFar mainStep
        simp [hpc, hlt, Main.goto]
      · rw [mainStep_i, hpc]
        exact hlt
    · have hnil := bytes_drop_of_le (Nat.le_of_not_lt hlt)
      refine ⟨?_, fun h => ?_⟩
      · unfold toBe remaining soFar mainStep
        simp [hpc, hlt, hnil, Main.goto]
      · rw [mainStep_pc, hpc, if_neg hlt] at h
        exact PC.noConfusion h
  case idSprintf =>
    refine ⟨?_, fun h => ?_⟩
    · unfold toBe remaining soFar mainStep
      simp [hpc, bytes_drop (hi hpc), Main.goto]
    · rw [mainStep_pc, hpc] at h
      exact PC.noConfusion h
  case idAppend =>
    refine ⟨?_, fun h => ?_⟩
    · unfold toBe remaining soFar mainStep
      simp [hpc, Main.goto]
    · rw [mainStep_pc, hpc] at h
      exact PC.noConfusion h
  case idIncr =>
    refine ⟨?_, fun h => ?_⟩
    · unfold toBe remaining soFar mainStep
      simp [hpc, Main.goto]
    · rw [mainStep_pc, hpc] at h
      exact PC.noConfusion h
  case scanInit =>
    rw [mainStep_pc, hpc] at hm'
    exact hm'.elim
  all_goals exact hm.elim

theorem Prophecy.of_remaining {c : String} {m : Main} {u v : Uid} (h : Prophecy c m u)
    (hr : remaining m v = remaining m u) : Prophecy c m v := by
  refine ⟨?_, fun hpc => ?_⟩
  · rw [toBe, hr]
    exact h.1
  · by_contra hlt
    simp only [remaining, hpc] at hr
    rw [bytes_drop_of_le (Nat.le_of_not_lt hlt), bytes_drop (h.2 hpc)] at hr
    exact List.cons_ne_nil _ _ hr.symm

/-- While main is formatting, the string to be is that of its own read. -/
def Foreseen (p : Option Uid × Main × Globals) : Prop :=
  p.2.1.pc.Formatting → ∃ u, p.1 = some u ∧ Prophecy (getCardID u) p.2.1 p.2.2.uid

theorem foreseen_next (p : Option Uid × Main × Globals) (a : Label) (ha : Undisturbed p.2 a)
    (hp : Foreseen p) : Foreseen (ghost next ownUidStep p a) := by
  obtain ⟨u, m, g⟩ := p
  obtain e | h := a
  · intro hm'
    rw [ghost, next_main] at hm' ⊢
    simp only at hm' ⊢
    by_cases hm : m.pc.Formatting
    · have hne : m.pc ≠ .readCard := by
        intro h
        rw [h] at hm
        exact hm
      obtain ⟨v, rfl, hv⟩ := hp hm
      refine ⟨v, ?_, ?_⟩
      · simp [ownUidStep, hne]
      · rw [mainStep_uid, if_neg hne]
        exact prophecy_mainStep e hv hm hm'
    · obtain ⟨hpc, hq⟩ := flow_formatting m.pc hm _ (mainStep_flow m g e) hm'
      have hread : (piccReadCardSerial g.uid e.buffer (Bus.of e.responses)).1.1 = true := by
        simpa [mainStep_pc, hpc] using hq
      refine ⟨(piccReadCardSerial g.uid e.buffer (Bus.of e.responses)).1.2, ?_, ?_, fun h => ?_⟩
      · simp [ownUidStep, hpc, hread]
      · rw [toBe_idClear _ hq, mainStep_uid, if_pos hpc]
      · rw [hq] at h
        exact PC.noConfusion h
  · intro hm
    obtain ⟨v, hv, hpv⟩ := hp hm
    exact ⟨v, hv, hpv.of_remaining ha⟩

/-- **Main authenticates the card it read.** In every run from the loop entry in which no handler
changes the bytes that `getCardID` has still to format, the string that main passes to `checkList`
is that of the UID its own `PICC_ReadCardSerial` stored. -/
theorem authenticated_own (s : LoopEntry) (as : List Label)
    (has : Legal next Undisturbed s.state as) (hpc : (run next s.state as).1.pc = .scanInit) :
    Own s as := by
  have h0 : Foreseen (none, s.state) := by
    intro h
    change s.m.pc.Formatting at h
    rw [s.pc_eq] at h
    exact h.elim
  have h := legal_induction foreseen_next h0
    ((legal_ghost ownUidStep).mpr has : Legal (ghost next ownUidStep) _ (none, s.state) as)
  have hrun : (run (ghost next ownUidStep) (none, s.state) as).2 = run next s.state as :=
    run_ghost_snd _ _ _ _
  rw [Foreseen, hrun, hpc] at h
  obtain ⟨u, hu, hc, -⟩ := h trivial
  rw [Own, ownUid, hu, Option.map_some, ← hc, toBe, soFar, remaining, hpc]
  rfl

/-- A session in which the master card is shown once. -/
def masterShown : Session where
  debounceMs := 5000
  pressed := true
  pressedAgain := true
  masterPolls :=
    [{ atTest := 2
       atPrint := 2
       atDeny := 2
       bufferATQA := [0, 0]
       request := atqaAnswers
       buffer := List.replicate 9 0
       select := selectAnswers 0x15 0x89 0x0A 0x0B }]
  newPolls := []

theorem authenticated_stranger :
    Own (LoopEntry.boot { distance := 100 })
      (.inr (.register masterShown) :: readCard 0x12 0x34 0x56 0x78 ++ stay 18 0 0) :=
  authenticated_own _ _ (by decide +kernel) (by decide +kernel)

/-- **A session between the read and `getCardID` swaps the card.** Main reads the card
`12 34 56 78`, the master card is shown to the session, and main computes the master ID. -/
theorem authenticates_swapped_card : ¬ ∀ (s : LoopEntry) (as : List Label),
    (run next s.state as).1.pc = .scanInit → Own s as := by
  intro h
  have h' := h (LoopEntry.boot { distance := 100 })
    (readCard 0x12 0x34 0x56 0x78 ++ .inr (.register masterShown) :: stay 18 0 0) (by decide +kernel)
  revert h'
  decide +kernel

end ParkingLot
