import ParkingLot.Stale
import ParkingLot.System

/-!
# checkList over a list that grows

`register_ISR` appends to `id_list` while `checkList` scans it.

* `growing`: the system, in which any strings may be appended between two statements as well.
* `Scanned`: the entries before the index are not the card; appending keeps them so.
* `mainStep_decision`: main goes where `decision` says.
* **`checkList_linearizable`**: the scan is in range, ends, and answers for the list at the moment
  of its last statement.
-/

namespace ParkingLot

open Machine

theorem handle_prefix (g : Globals) (h : Handler) : g.idList <+: (handle g h).idList := by
  obtain pin | s := h
  · rw [handle_fish]
    split_ifs <;> exact List.prefix_refl _
  · rw [handle]
    split_ifs
    · exact registerISR_prefix s g
    · exact List.prefix_refl _

/-- The system, with strings appended to the list at any time. -/
def growing : Preempted Main Globals Env (Handler ⊕ List String) where
  fore := mainStep
  handler g
    | .inl h => handle g h
    | .inr ids => { g with idList := g.idList ++ ids }

theorem growing_main (m : Main) (g : Globals) (e : Env) :
    growing.next (m, g) (.inl e) = mainStep m g e := by
  rw [Preempted.next_inl, growing]

theorem growing_grows (g : Globals) (h : Handler ⊕ List String) :
    g.idList <+: (growing.handler g h).idList := by
  obtain h | ids := h
  · exact handle_prefix g h
  · exact List.prefix_append _ _

/-- The points of `checkList`. -/
def PC.Scanning : PC → Prop
  | .scanInit | .scanTest | .scanCompare | .scanIncr => True
  | _ => False

instance (p : PC) : Decidable p.Scanning := by
  apply PC.casesOn (motive := fun p => Decidable p.Scanning) p <;> intros <;>
    first | exact instDecidableTrue | exact instDecidableFalse

/-- How many entries have been compared. -/
def scanned (m : Main) : ℕ :=
  match m.pc with
  | .scanInit => 0
  | .scanIncr => m.i + 1
  | _ => m.i

/-- How many statements of the scan have been executed. -/
def scanTime (m : Main) : ℕ :=
  match m.pc with
  | .scanTest => 3 * m.i + 1
  | .scanCompare => 3 * m.i + 2
  | .scanIncr => 3 * m.i + 3
  | _ => 0

/-- A scan for `cardID` that began when the list was `l`: no entry compared so far is the card. -/
structure Scanned (cardID : String) (l : List String) (m : Main) (g : Globals) : Prop where
  scanning : m.pc.Scanning
  card : m.currentCardID = cardID
  grown : l <+: g.idList
  le : scanned m ≤ g.idList.length
  inRange : m.pc = .scanCompare → m.i < g.idList.length
  fresh : cardID ∉ g.idList.take (scanned m)

variable {cardID : String} {l : List String} {m : Main} {g : Globals}

/-- **Appending keeps what has been scanned.** -/
theorem Scanned.append (h : Scanned cardID l m g) {g' : Globals} (hg : g.idList <+: g'.idList) :
    Scanned cardID l m g' where
  scanning := h.scanning
  card := h.card
  grown := h.grown.trans hg
  le := h.le.trans hg.length_le
  inRange hpc := (h.inRange hpc).trans_le hg.length_le
  fresh := by
    obtain ⟨ids, hids⟩ := hg
    rw [← hids, List.take_append_of_le_length h.le]
    exact h.fresh

theorem mainStep_scan_currentCardID (e : Env) (h : m.pc.Scanning) :
    (mainStep m g e).1.currentCardID = m.currentCardID := by
  rw [mainStep_currentCardID]
  cases hpc : m.pc <;> first | rfl | (rw [hpc] at h; exact h.elim)

theorem mainStep_scan_idList (e : Env) (h : m.pc.Scanning) :
    (mainStep m g e).2.idList = g.idList := by
  rw [mainStep_idList, if_neg]
  intro hpc
  rw [hpc] at h
  exact h

/-- A statement that stays in the scan keeps the card and the list. -/
theorem Scanned.stay (h : Scanned cardID l m g) (e : Env) (hs : (mainStep m g e).1.pc.Scanning)
    (hrange : (mainStep m g e).1.pc = .scanCompare → (mainStep m g e).1.i < g.idList.length)
    (hle : scanned (mainStep m g e).1 ≤ g.idList.length)
    (hfresh : cardID ∉ g.idList.take (scanned (mainStep m g e).1)) :
    Scanned cardID l (mainStep m g e).1 (mainStep m g e).2 where
  scanning := hs
  card := (mainStep_scan_currentCardID e h.scanning).trans h.card
  grown := by
    rw [mainStep_scan_idList e h.scanning]
    exact h.grown
  le := by rwa [mainStep_scan_idList e h.scanning]
  inRange := by rwa [mainStep_scan_idList e h.scanning]
  fresh := by rwa [mainStep_scan_idList e h.scanning]

/-- **The ways a statement of the scan can go.** It stays in the scan, or it answers for the list as
it is. -/
theorem mainStep_scan (e : Env) (h : Scanned cardID l m g) :
    (Scanned cardID l (mainStep m g e).1 (mainStep m g e).2 ∧
        scanTime (mainStep m g e).1 = scanTime m + 1) ∨
      ((mainStep m g e).1.pc = .openGuard ∧ cardID ∈ g.idList) ∨
      ((mainStep m g e).1.pc = .denyLed .red ∧ cardID ∉ g.idList) := by
  have hstay := h.stay e
  have hi := mainStep_i m g e
  have hq := mainStep_pc m g e
  have hle := h.le
  have hfresh := h.fresh
  cases hpc : m.pc <;> simp only [hpc, scanned, scanTime] at hi hq hle hfresh hstay ⊢
  case scanInit =>
    change _ = PC.scanTest at hq
    simp only [hq, hi] at hstay ⊢
    refine Or.inl ⟨hstay trivial nofun (Nat.zero_le _) ?_, trivial⟩
    rw [List.take_zero]
    exact List.not_mem_nil
  case scanTest =>
    by_cases hlt : m.i < g.idList.length
    · rw [if_pos hlt] at hq
      simp only [hq, hi] at hstay ⊢
      exact Or.inl ⟨hstay trivial (fun _ => hlt) hle hfresh, trivial⟩
    · rw [if_neg hlt] at hq
      rw [List.take_of_length_le (not_lt.mp hlt)] at hfresh
      exact Or.inr (Or.inr ⟨hq, hfresh⟩)
  case scanCompare =>
    have hlt := h.inRange hpc
    have hget : g.idList.getD m.i "" = g.idList[m.i] := List.getD_eq_getElem _ _ hlt
    by_cases heq : m.currentCardID = g.idList.getD m.i ""
    · rw [if_pos heq] at hq
      refine Or.inr (Or.inl ⟨hq, ?_⟩)
      rw [← h.card, heq, hget]
      exact List.getElem_mem hlt
    · rw [if_neg heq] at hq
      simp only [hq, hi] at hstay ⊢
      refine Or.inl ⟨hstay trivial nofun hlt ?_, trivial⟩
      rw [List.take_succ_eq_append_getElem hlt, List.mem_append, List.mem_singleton]
      rintro (hm | hm)
      · exact hfresh hm
      · exact heq ((h.card.trans hm).trans hget.symm)
  case scanIncr =>
    change _ = PC.scanTest at hq
    simp only [hq, hi] at hstay ⊢
    exact Or.inl ⟨hstay trivial nofun hle hfresh, by omega⟩
  all_goals
    have hs := h.scanning
    rw [hpc] at hs
    exact hs.elim

/-- Where main goes for a decision. -/
def Decision.point : Decision → PC
  | .grant => .openCountInit
  | .full => .fullLcd .cls
  | .deny => .denyLed .red

/-- **The branch of main is `decision`.** The statement that ends the scan turns the card away, or it
leads to the guard of `openProcedure`, which grants it or says that the park is full. -/
theorem mainStep_decision (h : Scanned cardID l m g) (e e' : Env)
    (hout : ¬ (mainStep m g e).1.pc.Scanning) :
    let t := mainStep m g e
    let p := (decision cardID g.idList g.avaliableSpots).point
    if t.1.pc = .openGuard then (mainStep t.1 t.2 e').1.pc = p else t.1.pc = p := by
  intro t p
  have hspots : t.2.avaliableSpots = g.avaliableSpots := by
    refine mainStep_avaliableSpots_of_ne g e ?_ ?_ <;> intro hpc <;>
      exact (hpc ▸ h.scanning : PC.Scanning _)
  rcases mainStep_scan e h with ⟨h1, -⟩ | ⟨hpc, hmem⟩ | ⟨hpc, hmem⟩
  · exact absurd h1.scanning hout
  · have hp : p = if 0 < g.avaliableSpots then .openCountInit else .fullLcd .cls := by
      show (decision cardID g.idList g.avaliableSpots).point = _
      rw [decision, if_pos (checkList_iff.mpr hmem), apply_ite Decision.point]
      rfl
    have ht : t.1.pc = .openGuard := hpc
    rw [if_pos ht, mainStep_pc, ht, hp, ← hspots]
  · have hp : p = .denyLed .red := by
      show (decision cardID g.idList g.avaliableSpots).point = _
      rw [decision, if_neg (mt checkList_iff.mp hmem)]
      rfl
    have ht : t.1.pc = .denyLed .red := hpc
    rw [if_neg (by rw [ht]; exact PC.noConfusion), ht, hp]

/-- **What has been scanned, over a whole run.** -/
theorem scanned_run (h : Scanned cardID l m g) {as : List (Env ⊕ Handler ⊕ List String)}
    (has : Legal growing.next (fun t _ => t.1.pc.Scanning) (m, g) as)
    (hend : (run growing.next (m, g) as).1.pc.Scanning) :
    Scanned cardID l (run growing.next (m, g) as).1 (run growing.next (m, g) as).2 ∧
      scanTime (run growing.next (m, g) as).1 = scanTime m + as.countP Sum.isLeft := by
  induction as using List.reverseRecOn with
  | nil => exact ⟨h, rfl⟩
  | append_singleton as a ih =>
    rw [legal_append, legal_cons] at has
    obtain ⟨ih, htime⟩ := ih has.1 has.2.1
    rw [run_append, run_cons, run_nil] at hend ⊢
    rw [List.countP_append]
    revert ih htime hend
    generalize run growing.next (m, g) as = t
    obtain ⟨m', g'⟩ := t
    intro hend ih htime
    obtain e | x := a
    · rcases mainStep_scan e ih with ⟨h1, h2⟩ | ⟨hpc, -⟩ | ⟨hpc, -⟩
      · exact ⟨h1, by rw [← Nat.add_assoc, ← htime]; exact h2⟩
      · rw [growing_main, hpc] at hend
        exact hend.elim
      · rw [growing_main, hpc] at hend
        exact hend.elim
    · exact ⟨ih.append (growing_grows g' x), htime⟩

theorem scanTime_le (h : Scanned cardID l m g) : scanTime m ≤ 3 * g.idList.length + 1 := by
  have hle := h.le
  have hrange := h.inRange
  revert hle hrange
  unfold scanTime scanned
  cases m.pc <;> intro hle hrange <;> simp only at hle ⊢ <;> try omega
  have := hrange rfl
  omega

/-- **`checkList` answers for one moment.** Whatever is appended between its statements, the index
is in range where it is used, the number of statements is bounded by the length of the list, and the
statement that returns gives the answer for the list as it is then; a string that was on the list
when the scan began is found. -/
theorem checkList_linearizable (m : Main) (g : Globals) (hm : m.pc = .scanInit)
    (as : List (Env ⊕ Handler ⊕ List String))
    (has : Legal growing.next (fun t _ => t.1.pc.Scanning) (m, g) as)
    (hend : (run growing.next (m, g) as).1.pc.Scanning) :
    let t := run growing.next (m, g) as
    as.countP Sum.isLeft ≤ 3 * t.2.idList.length + 1 ∧
      (t.1.pc = .scanCompare → t.1.i < t.2.idList.length) ∧
      ∀ e, ¬ (mainStep t.1 t.2 e).1.pc.Scanning →
        ((mainStep t.1 t.2 e).1.pc = .openGuard ↔ m.currentCardID ∈ t.2.idList) ∧
        ((mainStep t.1 t.2 e).1.pc = .denyLed .red ↔ m.currentCardID ∉ t.2.idList) ∧
        (m.currentCardID ∈ g.idList → (mainStep t.1 t.2 e).1.pc = .openGuard) := by
  have h0 : Scanned m.currentCardID g.idList m g := by
    have hn : scanned m = 0 := by rw [scanned, hm]
    refine ⟨?_, rfl, List.prefix_refl _, ?_, fun hc => ?_, ?_⟩
    · rw [hm]
      trivial
    · rw [hn]
      exact Nat.zero_le _
    · exact PC.noConfusion (hm.symm.trans hc)
    · rw [hn, List.take_zero]
      exact List.not_mem_nil
  obtain ⟨h, htime⟩ := scanned_run h0 has hend
  have hzero : scanTime m = 0 := by rw [scanTime, hm]
  refine ⟨?_, h.inRange, fun e he => ?_⟩
  · rw [hzero, Nat.zero_add] at htime
    exact htime ▸ scanTime_le h
  · rcases mainStep_scan e h with ⟨h1, -⟩ | ⟨hpc, hmem⟩ | ⟨hpc, hmem⟩
    · exact absurd h1.scanning he
    · refine ⟨iff_of_true hpc hmem, iff_of_false ?_ (not_not.mpr hmem), fun _ => hpc⟩
      rw [hpc]
      decide
    · refine ⟨iff_of_false ?_ hmem, iff_of_true hpc hmem, fun h0 => ?_⟩
      · rw [hpc]
        decide
      · exact absurd (h.grown.subset h0) hmem

/-- Main has read the card `12 34 56 78` and is about to look it up. -/
def lookUp : Main × Globals :=
  run next (LoopEntry.boot { distance := 100 }).state (readCard 0x12 0x34 0x56 0x78 ++ stay 18 0 0)

/-- The card is enrolled after the first test of the list, and the scan goes on to it. -/
def enrolMeanwhile : List (Env ⊕ Handler ⊕ List String) :=
  [.inl {}, .inl {}, .inr (.inr ["12345678"]), .inl {}, .inl {}, .inl {}]

theorem checkList_enrolled_meanwhile :
    let t := run growing.next (lookUp.1, lookUp.2) enrolMeanwhile
    (mainStep t.1 t.2 {}).1.pc = .openGuard := by
  have h := checkList_linearizable lookUp.1 lookUp.2 (by decide +kernel) enrolMeanwhile
    (by decide +kernel) (by decide +kernel)
  exact (h.2.2 {} (by decide +kernel)).1.mpr (by decide +kernel)

end ParkingLot
