import ParkingLot.System

/-!
# What a session enrols

A session seen from outside: each poll yields no card, a failed read or an ID, and the list
afterwards is a function of what was yielded in time.

* `Outcome`, `Poll.scan`: what a poll yields.
* `lookForCard_eq`, `masterTurn_eq`, `newTurn_eq`: a turn by the outcome of its poll.
* `enrolment`: the list a session should leave.
* **`session_enrols`**: it leaves that list, and reads no poll behind the one that ends it.
-/

namespace ParkingLot

open Machine

/-! ## Polls -/

/-- What a poll yields. -/
inductive Outcome
  | noCard
  | failed
  | card (cardID : String)
  deriving DecidableEq, Repr

/-- A poll over the `Uid` of the last card: what it yields, and the `Uid` it leaves. -/
def Poll.scan (u : Uid) (p : Poll) : Outcome × Uid :=
  if (piccIsNewCardPresent p.bufferATQA (Bus.of p.request)).1 then
    let read := (piccReadCardSerial u p.buffer (Bus.of p.select)).1
    (if read.1 then .card (getCardID read.2) else .failed, read.2)
  else (.noCard, u)

namespace Outcome

def isCard : Outcome → Bool
  | .card _ => true
  | _ => false

/-- What the reader calls of the poll log. -/
def acts : Outcome → List Act
  | .noCard => [.request false, .wait (1 / 2)]
  | .failed => [.request true, .select false, .wait (1 / 2)]
  | .card _ => [.request true, .select true]

/-- `currentCardID` after the poll. -/
def held (cardID : String) : Outcome → String
  | .card id => id
  | _ => cardID

end Outcome

theorem Poll.scan_card {u : Uid} {p : Poll} {id : String} (h : (p.scan u).1 = .card id) :
    getCardID (p.scan u).2 = id := by
  unfold Poll.scan at h ⊢
  by_cases h1 : (piccIsNewCardPresent p.bufferATQA (Bus.of p.request)).1 = true
  · by_cases h2 : (piccReadCardSerial u p.buffer (Bus.of p.select)).1.1 = true
    · simpa [h1, h2] using h
    · simp [h1, h2] at h
  · simp [h1] at h

namespace Registration

@[simp] theorem acts_onLcd (r : Registration) (f : TextLCD → TextLCD) :
    (r.onLcd f).acts = r.acts := rfl

@[simp] theorem acts_setLED (r : Registration) (l : Led) : (r.setLED l).acts = r.acts := rfl

@[simp] theorem acts_log (r : Registration) (a : Act) : (r.log a).acts = r.acts ++ [a] := rfl

@[simp] theorem uid_onLcd (r : Registration) (f : TextLCD → TextLCD) :
    (r.onLcd f).g.uid = r.g.uid := rfl

@[simp] theorem uid_setLED (r : Registration) (l : Led) : (r.setLED l).g.uid = r.g.uid := rfl

@[simp] theorem currentCardID_onLcd (r : Registration) (f : TextLCD → TextLCD) :
    (r.onLcd f).currentCardID = r.currentCardID := rfl

@[simp] theorem currentCardID_setLED (r : Registration) (l : Led) :
    (r.setLED l).currentCardID = r.currentCardID := rfl

@[simp] theorem currentCardID_log (r : Registration) (a : Act) :
    (r.log a).currentCardID = r.currentCardID := rfl

@[simp] theorem readID_g (r : Registration) : r.readID.g = r.g := rfl

@[simp] theorem readID_acts (r : Registration) :
    r.readID.acts = r.acts ++ [.cardID (getCardID r.g.uid)] := rfl

@[simp] theorem readID_currentCardID (r : Registration) :
    r.readID.currentCardID = getCardID r.g.uid := rfl

/-- After the reader calls of a poll. -/
def heard (r : Registration) (o : Outcome) (u : Uid) : Registration :=
  { r with
    g := { r.g with uid := u }
    acts := r.acts ++ o.acts }

@[simp] theorem heard_uid (r : Registration) (o : Outcome) (u : Uid) : (r.heard o u).g.uid = u := rfl

@[simp] theorem heard_idList (r : Registration) (o : Outcome) (u : Uid) :
    (r.heard o u).g.idList = r.g.idList := rfl

@[simp] theorem heard_acts (r : Registration) (o : Outcome) (u : Uid) :
    (r.heard o u).acts = r.acts ++ o.acts := rfl

@[simp] theorem heard_currentCardID (r : Registration) (o : Outcome) (u : Uid) :
    (r.heard o u).currentCardID = r.currentCardID := rfl

theorem lookForCard_eq (r : Registration) (p : Poll) :
    r.lookForCard p = ((p.scan r.g.uid).1.isCard, r.heard (p.scan r.g.uid).1 (p.scan r.g.uid).2) := by
  simp only [lookForCard, log_g, Poll.scan]
  split_ifs with h1 h2
  · simp [heard, log, h1, h2, Outcome.isCard, Outcome.acts]
  · simp [heard, log, h1, h2, Outcome.isCard, Outcome.acts]
  · simp [heard, log, h1, Outcome.isCard, Outcome.acts]

/-- **A turn of the first loop**, by the outcome of its poll. -/
theorem masterTurn_eq (r : Registration) (p : Poll) :
    (r.masterTurn p).g.uid = (p.scan r.g.uid).2 ∧ (r.masterTurn p).g.idList = r.g.idList ∧
      (r.masterTurn p).currentCardID = (p.scan r.g.uid).1.held r.currentCardID ∧
      (r.masterTurn p).acts = r.acts ++ ((p.scan r.g.uid).1.acts ++
        match (p.scan r.g.uid).1 with
        | .card id =>
          if id ≠ masterID then
            [.cardID id, .wait (min defaultLcdWait (toInt (p.atDeny - 1)) : ℤ)]
          else [.cardID id]
        | _ => []) := by
  have hcard : ∀ id, (p.scan r.g.uid).1 = .card id → getCardID (p.scan r.g.uid).2 = id :=
    fun id => Poll.scan_card
  simp only [masterTurn, lookForCard_eq, countdown, uid_onLcd, uid_setLED]
  revert hcard
  generalize p.scan r.g.uid = x
  obtain ⟨o, u⟩ := x
  intro hcard
  cases o with
  | noCard | failed => simp [Outcome.isCard, Outcome.held]
  | card id =>
    have hid : getCardID u = id := hcard id rfl
    by_cases hm : id = masterID <;> simp [Outcome.isCard, Outcome.held, hid, hm]

/-- **A turn of the second loop**, by the outcome of its poll. -/
theorem newTurn_eq (r : Registration) (p : Poll) :
    (r.newTurn p).g.uid = (p.scan r.g.uid).2 ∧
      (r.newTurn p).currentCardID = (p.scan r.g.uid).1.held r.currentCardID ∧
      (r.newTurn p).g.idList =
        match (p.scan r.g.uid).1 with
        | .card id => if id ∈ r.g.idList then r.g.idList else r.g.idList ++ [id]
        | _ => r.g.idList := by
  have hcard : ∀ id, (p.scan r.g.uid).1 = .card id → getCardID (p.scan r.g.uid).2 = id :=
    fun id => Poll.scan_card
  simp only [newTurn, lookForCard_eq, countdown, uid_onLcd, uid_setLED]
  revert hcard
  generalize p.scan r.g.uid = x
  obtain ⟨o, u⟩ := x
  intro hcard
  cases o with
  | noCard | failed => simp [Outcome.isCard, Outcome.held]
  | card id =>
    have hid : getCardID u = id := hcard id rfl
    by_cases hm : id ∈ r.g.idList
    · have hc : checkList id r.g.idList = true := checkList_iff.mpr hm
      simp [Outcome.isCard, Outcome.held, hid, hm, hc]
    · have hc : checkList id r.g.idList = false :=
        Bool.eq_false_iff.mpr fun h => hm (checkList_iff.mp h)
      simp [Outcome.isCard, Outcome.held, hid, hm, hc, push, log]

theorem masterPhase_cons (r : Registration) (p : Poll) (ps : List Poll) :
    r.masterPhase (p :: ps) =
      if p.atTest < registerPeriod ∧ r.currentCardID ≠ masterID then (r.masterTurn p).masterPhase ps
      else r := rfl

theorem newPhase_cons (r : Registration) (p : Poll) (ps : List Poll) :
    r.newPhase (p :: ps) =
      if p.atTest < registerPeriod ∧ r.currentCardID = masterID then (r.newTurn p).newPhase ps
      else r := rfl

/-- The first loop stops at the master ID. -/
theorem masterPhase_of_master {r : Registration} (h : r.currentCardID = masterID) (ps : List Poll) :
    r.masterPhase ps = r := by
  cases ps with
  | nil => rfl
  | cons p ps => rw [masterPhase_cons, if_neg fun hc => hc.2 h]

/-- The second loop stops at any other ID. -/
theorem newPhase_of_other {r : Registration} (h : r.currentCardID ≠ masterID) (ps : List Poll) :
    r.newPhase ps = r := by
  cases ps with
  | nil => rfl
  | cons p ps => rw [newPhase_cons, if_neg fun hc => h hc.2]

end Registration

/-! ## The specification -/

/-- What the polls of a phase yield, each with the time at the loop test before it. -/
def outcomes : Uid → List Poll → List (ℚ × Outcome)
  | _, [] => []
  | u, p :: ps => (p.atTest, (p.scan u).1) :: outcomes (p.scan u).2 ps

/-- A poll begun in time yields the master ID. -/
def MasterShown (xs : List (ℚ × Outcome)) : Prop :=
  ∃ x ∈ xs, x.1 < registerPeriod ∧ x.2 = .card masterID

instance (xs : List (ℚ × Outcome)) : Decidable (MasterShown xs) :=
  inferInstanceAs (Decidable (∃ x ∈ _, _ ∧ _))

/-- Another ID than the master's. -/
def Outcome.other : Outcome → Option String
  | .card id => if id = masterID then none else some id
  | _ => none

/-- The first other ID that a poll begun in time yields. -/
def firstOther : List (ℚ × Outcome) → Option String
  | [] => none
  | x :: xs => if x.1 < registerPeriod then x.2.other.or (firstOther xs) else firstOther xs

/-- A list with one more entry, unless it is there. -/
def enlist (l : List String) : Option String → List String
  | some id => if id ∈ l then l else l ++ [id]
  | none => l

/-- The list that a session should leave, by what its two phases yield. -/
def enrolment (l : List String) (first second : List (ℚ × Outcome)) : List String :=
  if MasterShown first then enlist l (firstOther second) else l

theorem masterShown_cons {x : ℚ × Outcome} {xs : List (ℚ × Outcome)} :
    MasterShown (x :: xs) ↔ x.1 < registerPeriod ∧ x.2 = .card masterID ∨ MasterShown xs := by
  simp [MasterShown]

theorem not_masterShown_of_late {xs : List (ℚ × Outcome)} (h : ∀ x ∈ xs, ¬ x.1 < registerPeriod) :
    ¬ MasterShown xs :=
  fun ⟨x, hx, hlt, _⟩ => h x hx hlt

theorem firstOther_of_late {xs : List (ℚ × Outcome)} (h : ∀ x ∈ xs, ¬ x.1 < registerPeriod) :
    firstOther xs = none := by
  induction xs with
  | nil => rfl
  | cons x xs ih =>
    rw [firstOther, if_neg (h x List.mem_cons_self)]
    exact ih fun y hy => h y (List.mem_cons_of_mem x hy)

/-- The times at the loop tests do not decrease. -/
def Timely (ps : List Poll) : Prop := (ps.map Poll.atTest).Pairwise (· ≤ ·)

instance (ps : List Poll) : Decidable (Timely ps) := inferInstanceAs (Decidable (List.Pairwise _ _))

theorem Timely.tail {p : Poll} {ps : List Poll} (h : Timely (p :: ps)) : Timely ps :=
  (List.pairwise_cons.mp h).2

theorem atTest_le_of_mem_outcomes {t : ℚ} {u : Uid} {ps : List Poll}
    (h : ∀ p ∈ ps, t ≤ p.atTest) : ∀ x ∈ outcomes u ps, t ≤ x.1 := by
  induction ps generalizing u with
  | nil => exact fun x hx => absurd hx List.not_mem_nil
  | cons p ps ih =>
    intro x hx
    rcases List.mem_cons.mp hx with rfl | hx
    · exact h p List.mem_cons_self
    · exact ih (fun q hq => h q (List.mem_cons_of_mem p hq)) x hx

/-- Once the time is over it stays over. -/
theorem Timely.late {u : Uid} {p : Poll} {ps : List Poll} (h : Timely (p :: ps))
    (hp : ¬ p.atTest < registerPeriod) : ∀ x ∈ outcomes u (p :: ps), ¬ x.1 < registerPeriod := by
  have hle : ∀ q ∈ p :: ps, p.atTest ≤ q.atTest := by
    intro q hq
    rcases List.mem_cons.mp hq with rfl | hq
    · exact le_rfl
    · exact (List.pairwise_cons.mp h).1 _ (List.mem_map_of_mem hq)
  exact fun x hx => not_lt.mpr ((not_lt.mp hp).trans (atTest_le_of_mem_outcomes hle x hx))

/-! ## The two phases -/

namespace Registration

/-- **The first phase** ends with the master ID exactly if it was shown in time. -/
theorem masterPhase_iff {r : Registration} (hr : r.currentCardID ≠ masterID) {ps : List Poll}
    (hs : Timely ps) :
    (r.masterPhase ps).currentCardID = masterID ↔ MasterShown (outcomes r.g.uid ps) := by
  induction ps generalizing r with
  | nil => exact iff_of_false hr fun ⟨x, hx, _⟩ => absurd hx List.not_mem_nil
  | cons p ps ih =>
    rw [masterPhase_cons]
    by_cases hp : p.atTest < registerPeriod
    · obtain ⟨huid, -, hid, -⟩ := masterTurn_eq r p
      rw [if_pos ⟨hp, hr⟩, outcomes, masterShown_cons]
      by_cases hm : (p.scan r.g.uid).1 = .card masterID
      · have hdone : (r.masterTurn p).currentCardID = masterID := by rw [hid, hm, Outcome.held]
        rw [masterPhase_of_master hdone]
        exact iff_of_true hdone (Or.inl ⟨hp, hm⟩)
      · have hne : (r.masterTurn p).currentCardID ≠ masterID := by
          rw [hid]
          cases ho : (p.scan r.g.uid).1 with
          | noCard | failed => exact hr
          | card id =>
            rintro rfl
            exact hm ho
        rw [ih hne hs.tail, huid]
        exact ⟨Or.inr, fun h => h.resolve_left fun h' => hm h'.2⟩
    · rw [if_neg fun h => hp h.1]
      exact iff_of_false hr (not_masterShown_of_late (hs.late hp))

/-- **The second phase** enrols the first other ID that is shown in time, if it is new. -/
theorem newPhase_idList {r : Registration} (hr : r.currentCardID = masterID)
    (hm : masterID ∈ r.g.idList) {ps : List Poll} (hs : Timely ps) :
    (r.newPhase ps).g.idList = enlist r.g.idList (firstOther (outcomes r.g.uid ps)) := by
  induction ps generalizing r with
  | nil => rfl
  | cons p ps ih =>
    rw [newPhase_cons]
    by_cases hp : p.atTest < registerPeriod
    · obtain ⟨huid, hid, hlist⟩ := newTurn_eq r p
      rw [if_pos ⟨hp, hr⟩, outcomes, firstOther, if_pos hp]
      have hstay : (r.newTurn p).currentCardID = masterID → (r.newTurn p).g.idList = r.g.idList →
          ((r.newTurn p).newPhase ps).g.idList =
            enlist r.g.idList (firstOther (outcomes (p.scan r.g.uid).2 ps)) := by
        intro h1 h2
        rw [ih h1 (h2 ▸ hm) hs.tail, h2, huid]
      cases ho : (p.scan r.g.uid).1 with
      | noCard | failed =>
        rw [ho] at hid hlist
        exact hstay (hid.trans hr) hlist
      | card id =>
        rw [ho] at hid hlist
        by_cases hid' : id = masterID
        · subst hid'
          refine (hstay hid (hlist.trans (if_pos hm))).trans ?_
          rw [Outcome.other, if_pos rfl, Option.none_or]
        · rw [newPhase_of_other (hid.trans_ne hid'), hlist, Outcome.other, if_neg hid',
            Option.some_or, enlist]
    · rw [if_neg fun h => hp h.1, firstOther_of_late (hs.late hp)]
      rfl

/-- **No poll behind another ID is read.** -/
theorem newPhase_take (r : Registration) {ps : List Poll} {k : ℕ} {t : ℚ} {id : String}
    (h : (outcomes r.g.uid ps)[k]? = some (t, .card id)) (hid : id ≠ masterID) (post : List Poll) :
    r.newPhase (ps.take (k + 1) ++ post) = r.newPhase ps := by
  induction ps generalizing r k with
  | nil => exact absurd h (by simp [outcomes])
  | cons p ps ih =>
    rw [List.take_succ_cons, List.cons_append, newPhase_cons, newPhase_cons]
    refine if_congr Iff.rfl ?_ rfl
    obtain ⟨huid, hheld, -⟩ := newTurn_eq r p
    cases k with
    | zero =>
      have ho : (p.scan r.g.uid).1 = .card id := congrArg Prod.snd (Option.some.inj h)
      have hne : (r.newTurn p).currentCardID ≠ masterID := by rwa [hheld, ho]
      rw [newPhase_of_other hne, newPhase_of_other hne]
    | succ k =>
      refine ih _ ?_
      rw [huid]
      exact h

end Registration

/-! ## Sessions -/

/-- A session when its first phase ends. -/
def firstPhase (s : Session) (g : Globals) : Registration :=
  ((Registration.begin g).onLcd lcdRegisterMaster.write).masterPhase s.masterPolls

/-- A session when its second phase begins. -/
def secondPhase (s : Session) (g : Globals) : Registration :=
  (((firstPhase s g).setLED ledGreen).onLcd lcdRegisterNew.write).log (.wait defaultLcdWait)

theorem session_begin (s : Session) (g : Globals) :
    (Registration.begin g).session s =
      (if (firstPhase s g).currentCardID = masterID then (secondPhase s g).newPhase s.newPolls
        else firstPhase s g).welcome.setLED ledRed := rfl

/-- Polls that the second phase does not tell apart. -/
theorem registerISR_newPolls {s : Session} (hs : s.Starts) {g : Globals} {ps : List Poll}
    (h : (secondPhase s g).newPhase ps = (secondPhase s g).newPhase s.newPolls) :
    registerISR { s with newPolls := ps } g = registerISR s g := by
  have hs' : Session.Starts { s with newPolls := ps } := hs
  have h1 : firstPhase { s with newPolls := ps } g = firstPhase s g := rfl
  have h2 : secondPhase { s with newPolls := ps } g = secondPhase s g := by
    rw [secondPhase, secondPhase, h1]
  rw [registerISR_of_starts hs', registerISR_of_starts hs, session_begin, session_begin, h1, h2, h]

theorem idList_firstPhase (s : Session) (g : Globals) : (firstPhase s g).g.idList = g.idList := by
  rw [firstPhase, Registration.idList_masterPhase, Registration.idList_onLcd, Registration.begin]

theorem begin_ne_master (g : Globals) :
    ((Registration.begin g).onLcd lcdRegisterMaster.write).currentCardID ≠ masterID := by
  rw [Registration.currentCardID_onLcd, Registration.begin]
  exact (by decide : "" ≠ masterID)

theorem firstPhase_iff {s : Session} (h : Timely s.masterPolls) (g : Globals) :
    (firstPhase s g).currentCardID = masterID ↔ MasterShown (outcomes g.uid s.masterPolls) := by
  rw [firstPhase, Registration.masterPhase_iff (begin_ne_master g) h, Registration.uid_onLcd,
    Registration.begin]

theorem registerISR_idList {s : Session} (h : s.Starts) (g : Globals) :
    (registerISR s g).1.idList =
      if (firstPhase s g).currentCardID = masterID then
        ((secondPhase s g).newPhase s.newPolls).g.idList
      else g.idList := by
  simp only [registerISR_of_starts h, session_begin, Registration.welcome,
    Registration.idList_onLcd, Registration.idList_setLED, apply_ite Registration.g,
    apply_ite Globals.idList, idList_firstPhase]

/-- **What a session enrols.** If the master ID is shown in time in the first phase, the first other
ID that is shown in time in the second phase is appended unless it is listed; in all other cases the
list stays as it is. The polls behind that ID are not read. -/
theorem session_enrols (s : Session) (g : Globals) (hs : s.Starts) (hm : masterID ∈ g.idList)
    (h1 : Timely s.masterPolls) (h2 : Timely s.newPolls) :
    let first := outcomes g.uid s.masterPolls
    let second := outcomes (firstPhase s g).g.uid s.newPolls
    (registerISR s g).1.idList = enrolment g.idList first second ∧
      ∀ k t id, second[k]? = some (t, .card id) → id ≠ masterID → ∀ post,
        registerISR { s with newPolls := s.newPolls.take (k + 1) ++ post } g = registerISR s g := by
  have hfirst := firstPhase_iff h1 g
  have hlist : (secondPhase s g).g.idList = g.idList := by
    rw [secondPhase, Registration.log_g, Registration.idList_onLcd, Registration.idList_setLED,
      idList_firstPhase]
  intro first second
  constructor
  · rw [registerISR_idList hs, enrolment]
    by_cases h : MasterShown first
    · have hcard : (secondPhase s g).currentCardID = masterID := hfirst.mpr h
      rw [if_pos h, if_pos (hfirst.mpr h), Registration.newPhase_idList hcard (hlist ▸ hm) h2, hlist]
      rfl
    · rw [if_neg h, if_neg fun hc => h (hfirst.mp hc)]
  · intro k t id hk hid post
    exact registerISR_newPolls hs (Registration.newPhase_take (secondPhase s g) hk hid post)

/-- The card with the UID `a b c d`, shown after `t` seconds. -/
def Poll.shows (t : ℚ) (a b c d : UInt8) : Poll where
  atTest := t
  atPrint := t
  atDeny := t
  bufferATQA := [0, 0]
  request := atqaAnswers
  buffer := List.replicate 9 0
  select := selectAnswers a b c d

/-- The master card is shown in both phases, then a new card. -/
def newMember : Session where
  debounceMs := 5000
  pressed := true
  pressedAgain := true
  masterPolls := [.shows 1 0x15 0x89 0x0A 0x0B]
  newPolls := [.shows 1 0x15 0x89 0x0A 0x0B, .shows 2 0x12 0x34 0x56 0x78]

theorem session_enrols_newMember :
    (registerISR newMember { powerOn.2 with idList := [masterID] }).1.idList =
      [masterID, "12345678"] := by
  have h := session_enrols newMember { powerOn.2 with idList := [masterID] } (by decide)
    (by decide) (by decide +kernel) (by decide +kernel)
  exact h.1.trans (by decide +kernel)

end ParkingLot
