import ParkingLot.Scan
import Mathlib.Algebra.Group.Action.Defs

/-!
# main comes back for the next card

Main runs through loops that wait for nobody, but for one: the loop of `openProcedure` goes on for as
long as something is in the gateway.

* `rank`: how many statements main is away from the head of its loop, at most, while the list does not
  grow beyond a length and the loop of `openProcedure` does not turn.
* `Turns`: a test of that loop that lets it turn.
* `rank_next`: a statement takes one off the rank, or it is the head of the loop or such a test.
* **`main_comes_back`**: how many statements a run of main can take between two visits to the head of
  its loop.
-/

namespace ParkingLot

open Machine

/-! ## The rank -/

def LedPoint.left : LedPoint → ℕ
  | .red => 3
  | .green => 2
  | .blue => 1

def ScreenPoint.left : ScreenPoint → ℕ
  | .cls => 4
  | .top => 3
  | .locate => 2
  | .bottom => 1

/-- What the first car in the gateway still costs: the blue LED and the decrement. -/
def due (count : ℤ) : ℕ := if count = 0 then 6 else 0

/-- The statements to the head of the loop, if the list has at most `n` strings and the loop of
`openProcedure` does not turn again. -/
def rank (n : ℕ) (m : Main) : ℕ :=
  match m.pc with
  | .initDist => 17
  | .initSpots => 16
  | .initDebounce => 15
  | .initCardRise => 14
  | .initFishRise => 13
  | .initMaster => 12
  | .initReader => 11
  | .initLed p => 7 + p.left
  | .initLcd p => 3 + p.left
  | .gateCalibrate => 3
  | .gateWait => 2
  | .gateInitClose => 1
  | .loopLcd p => if p = .cls then 0 else 77 + 3 * n + p.left
  | .newCard => 77 + 3 * n
  | .pollWait => 1
  | .readCard => 76 + 3 * n
  | .idClear => 75 + 3 * n
  | .idTest => 34 + 3 * n + 4 * (10 - m.i)
  | .idSprintf => 34 + 3 * n + 4 * (10 - (m.i + 1)) + 3
  | .idAppend => 34 + 3 * n + 4 * (10 - (m.i + 1)) + 2
  | .idIncr => 34 + 3 * n + 4 * (10 - (m.i + 1)) + 1
  | .scanInit => 33 + 3 * n
  | .scanTest => 32 + 3 * (n - m.i)
  | .scanCompare => 32 + 3 * (n - (m.i + 1)) + 2
  | .scanIncr => 32 + 3 * (n - (m.i + 1)) + 1
  | .openGuard => 31
  | .openCountInit => 30
  | .openReset => 29
  | .openStart => 28
  | .openLed p => 24 + p.left
  | .openGate => 24
  | .openLcd p => 19 + p.left
  | .openDist => 19
  | .openTimer => due m.count + 12
  | .openNear => due m.count + 11
  | .openRead => due m.count + 14
  | .openIf => due m.count + 13
  | .openBlue p => due (m.count + 1) + 15 + p.left
  | .openLoad => due (m.count + 1) + 15
  | .openStore => due (m.count + 1) + 14
  | .openCount => due (m.count + 1) + 13
  | .openStop => 10
  | .fullLcd p => 10 + p.left
  | .fullWait => 10
  | .afterOpen => 9
  | .closeLed p => 5 + p.left
  | .closeGate => 5
  | .closeLcd p => p.left
  | .denyLed p => 10 + p.left
  | .denyGate => 10
  | .denyLcd p => 5 + p.left
  | .denyWait => 5
  | .denyWelcome p => p.left

/-- A step of main. -/
def Executes (_ : Main × Globals) (a : Label) : Prop := a.isLeft

/-- Main is at the head of its loop, about to execute a statement. -/
def Comes (s : Main × Globals) (a : Label) : Prop := s.1.pc = .loopLcd .cls ∧ a.isLeft

/-- The loop of `openProcedure` turns: the timer has not run out, or something is in the gateway. -/
def Turns (s : Main × Globals) : Label → Prop
  | .inl e => s.1.pc = .openTimer ∧ e.timerGate < defaultLcdWait ∨
      s.1.pc = .openNear ∧ s.1.distanceCm < s.1.gateDistanceCm
  | .inr _ => False

instance (s : Main × Globals) (a : Label) : Decidable (Executes s a) :=
  inferInstanceAs (Decidable (_ = _))

instance (s : Main × Globals) (a : Label) : Decidable (Comes s a) := inferInstanceAs (Decidable (_ ∧ _))

instance (s : Main × Globals) (a : Label) : Decidable (Turns s a) := by
  cases a
  · exact inferInstanceAs (Decidable (_ ∨ _))
  · exact instDecidableFalse

theorem due_le (count : ℤ) : due count ≤ 6 := by
  unfold due
  split_ifs <;> omega

/-- A statement of `setLED`. -/
theorem rank_led {n b : ℕ} {m : Main} {k : LedPoint → PC} {q : PC}
    (hk : ∀ p, rank n (m.goto (k p)) = b + p.left) (hq : rank n (m.goto q) ≤ b) (p : LedPoint) :
    rank n (m.goto (p.next k q)) + 1 ≤ b + p.left := by
  cases p with
  | red => exact (congrArg (· + 1) (hk .green)).le
  | green => exact (congrArg (· + 1) (hk .blue)).le
  | blue => exact Nat.succ_le_succ hq

/-- A statement of a screen. -/
theorem rank_screen {n b : ℕ} {m : Main} {k : ScreenPoint → PC} {q : PC}
    (hk : ∀ p, p ≠ .cls → rank n (m.goto (k p)) = b + p.left) (hq : rank n (m.goto q) ≤ b)
    (p : ScreenPoint) : rank n (m.goto (p.next k q)) + 1 ≤ b + p.left := by
  cases p with
  | cls => exact (congrArg (· + 1) (hk .top (by decide))).le
  | top => exact (congrArg (· + 1) (hk .locate (by decide))).le
  | locate => exact (congrArg (· + 1) (hk .bottom (by decide))).le
  | bottom => exact Nat.succ_le_succ hq

/-- **A statement takes one off the rank**, but at the head of the loop and where the loop of
`openProcedure` turns. -/
theorem rank_mainStep {n : ℕ} (m : Main) {g : Globals} (e : Env) (hg : g.idList.length ≤ n) :
    rank n (mainStep m g e).1 + 1 ≤
      rank n m + ((if Comes (m, g) (.inl e) then 81 + 3 * n else 0) +
        if Turns (m, g) (.inl e) then 4 else 0) := by
  have hsize := g.uid.size_le
  obtain ⟨pc, id, gd, i, buffer, dist, count, loaded⟩ := m
  cases pc with
  | initLed p | openLed p | openBlue p | closeLed p | denyLed p =>
    exact Nat.le_add_right_of_le (rank_led (fun _ => rfl) le_rfl p)
  | initLcd p | openLcd p | fullLcd p | denyLcd p =>
    exact Nat.le_add_right_of_le (rank_screen (fun _ _ => rfl) le_rfl p)
  | closeLcd p | denyWelcome p =>
    refine Nat.le_add_right_of_le ((rank_screen (b := 0) (fun _ _ => ?_) le_rfl p).trans ?_)
    · exact (Nat.zero_add _).symm
    · exact (Nat.zero_add _).le
  | loopLcd p =>
    have h := rank_screen (n := n) (b := 77 + 3 * n) (k := .loopLcd) (q := .newCard)
      (m := ⟨.loopLcd p, id, gd, i, buffer, dist, count, loaded⟩) (fun p hp => if_neg hp) (Nat.le_refl _) p
    refine h.trans ?_
    by_cases hp : p = .cls
    · rw [hp, if_pos ⟨rfl, rfl⟩]
      simp only [rank, if_true, ScreenPoint.left]
      omega
    · simp only [rank, if_neg hp]
      omega
  | newCard | readCard | idTest | scanTest | scanCompare | openGuard =>
    refine Nat.le_add_right_of_le ?_
    simp only [mainStep, Main.goto]
    split_ifs <;> simp only [rank, LedPoint.left, ScreenPoint.left] <;> omega
  | idClear | scanInit | openDist =>
    have hdue := due_le count
    refine Nat.le_add_right_of_le ?_
    simp only [mainStep, Main.goto, rank]
    omega
  | openTimer =>
    by_cases ht : e.timerGate < defaultLcdWait
    · rw [if_pos (show Turns _ (.inl e) from Or.inl ⟨rfl, ht⟩)]
      simp only [mainStep, Main.goto, if_pos ht, rank]
      omega
    · simp only [mainStep, Main.goto, if_neg ht, rank]
      omega
  | openNear =>
    by_cases hd : dist < gd
    · rw [if_pos (show Turns _ (.inl e) from Or.inr ⟨rfl, hd⟩)]
      simp only [mainStep, Main.goto, if_pos hd, rank]
      omega
    · simp only [mainStep, Main.goto, if_neg hd, rank]
      omega
  | openIf =>
    refine Nat.le_add_right_of_le ?_
    by_cases hc : count = 0 ∧ dist < gd
    · simp only [mainStep, Main.goto, if_pos hc, rank]
      rw [hc.1]
      decide
    · simp only [mainStep, Main.goto, if_neg hc, rank]
      omega
  | _ => exact Nat.le_add_right _ _

theorem length_next (s : Main × Globals) (a : Label) :
    s.2.idList.length ≤ (next s a).2.idList.length := by
  obtain ⟨m, g⟩ := s
  obtain e | h := a
  · rw [next_main, mainStep_idList]
    split_ifs
    · exact List.length_append ▸ Nat.le_add_right _ _
    · exact le_rfl
  · exact List.IsPrefix.length_le <| handle_prefix g h

/-- The list of a run never had more strings than at the end. -/
theorem legal_length (s : Main × Globals) (as : List Label) :
    Legal next (fun t _ => t.2.idList.length ≤ (run next s as).2.idList.length) s as := by
  induction as generalizing s with
  | nil => exact legal_nil
  | cons a as ih =>
    exact legal_cons.mpr
      ⟨run_rel (fun t : Main × Globals => t.2.idList.length) length_next s (a :: as), ih (next s a)⟩

/-- A handler does not move main. -/
theorem rank_next {n : ℕ} (s : Main × Globals) (a : Label) (hs : s.2.idList.length ≤ n) :
    rank n (next s a).1 + (if Executes s a then 1 else 0) ≤
      rank n s.1 + ((if Comes s a then 81 + 3 * n else 0) + if Turns s a then 4 else 0) := by
  obtain ⟨m, g⟩ := s
  obtain e | h := a
  · rw [next_main, if_pos (show Executes (m, g) (.inl e) from rfl)]
    exact rank_mainStep m e hs
  · exact Nat.le_add_right _ _

/-- **main comes back for the next card.** In every run from power-up, whatever the cards, the
readings and the handlers do: the statements of main are paid for by its visits to the head of its
loop, at most `81 + 3 * n` by each when the list ends with `n` strings, and by the turns of the loop of
`openProcedure`, four by each. -/
theorem main_comes_back (as : List Label) :
    count next Executes powerOn as ≤ 17 +
      ((81 + 3 * (run next powerOn as).2.idList.length) * count next Comes powerOn as +
        4 * count next Turns powerOn as) := by
  have h := run_budget (f := fun t => rank _ t.1) (c := fun s a => if Executes s a then 1 else 0)
    (d := fun s a => (if Comes s a then _ else 0) + if Turns s a then 4 else 0) rank_next
    (legal_length powerOn as)
  simp only [List.sum_map_add, sum_weight, smul_eq_mul, mul_comm (count next _ _ _)] at h
  have hstart : rank (run next powerOn as).2.idList.length powerOn.1 = 17 := rfl
  omega

end ParkingLot
