import ParkingLot.Accounting
import ParkingLot.Machine.Line
import Mathlib.Data.Nat.Cast.Defs
import Mathlib.Data.Rat.Cast.Defs

/-!
# Exits and the interrupt line

The two handlers share one interrupt and do not nest. Instants are milliseconds.

* `Site`, `SiteEvent`: the system with its interrupt line and the level of the exit sensor.
* `Timely`: the runs with the timing of the line, of `fish_ISR` and of clean pulses.
* `Rechecked`: a pulse that rose below capacity ends only after its `fish_ISR` has run.
* **`no_exit_lost`**: in such runs every pulse that rose below capacity is counted once.
-/

namespace ParkingLot

open Machine

inductive Pin
  | pta4 | pta5
  deriving DecidableEq, Repr

/-- The system, its interrupt line, the level of `PTA5` and the instant it changed at, whether the
latest pulse rose below capacity, how many did, and how many times the increment was executed. -/
structure Site (T : Type*) where
  sys : Main × Globals
  line : Line Pin T
  level : Bool
  since : Option T
  now : T
  below : Bool
  due : ℕ
  counted : ℕ

/-- What happens: the level of `PTA5` changes, `PTA4` rises, a handler starts, `fish_ISR` checks the
pin and returns, `register_ISR` returns, or main executes a statement. -/
inductive SiteEvent
  | rise
  | fall
  | press
  | serve (p : Pin)
  | check
  | registered (s : Session)
  | main (e : Env)

namespace Site

variable {T : Type*}

/-- What an event does at the instant `a.1`. -/
def next (w : Site T) (a : T × SiteEvent) : Site T :=
  match a.2 with
  | .rise =>
    { w with
      now := a.1
      level := true
      since := some a.1
      below := decide (w.sys.2.avaliableSpots < numberOfParkSpots)
      due := if w.sys.2.avaliableSpots < numberOfParkSpots then w.due + 1 else w.due
      line := if w.sys.2.fishRise then w.line.edge .pta5 else w.line }
  | .fall => { w with now := a.1, level := false, since := some a.1 }
  | .press => { w with now := a.1, line := if w.sys.2.cardRise then w.line.edge .pta4 else w.line }
  | .serve p => { w with now := a.1, line := w.line.serve p a.1 }
  | .check =>
    { w with
      now := a.1
      sys := ParkingLot.next w.sys (.inr (.fish w.level))
      counted := if Counted w.sys (.inr (.fish w.level)) then w.counted + 1 else w.counted
      line := w.line.done }
  | .registered s =>
    { w with now := a.1, sys := ParkingLot.next w.sys (.inr (.register s)), line := w.line.done }
  | .main e => { w with now := a.1, sys := ParkingLot.next w.sys (.inl e) }

def start (s : LotEntry) (t : T) : Site T :=
  { sys := s.state
    line := .quiet
    level := false
    since := none
    now := t
    below := false
    due := 0
    counted := 0 }

/-- A due pulse is high, and its handler has not returned. -/
def Owed (w : Site T) : Prop := w.level = true ∧ w.below = true ∧ w.line.Busy .pta5

instance (w : Site T) : Decidable w.Owed := inferInstanceAs (Decidable (_ ∧ _ ∧ _))

/-- Time does not run backwards; a pending pin is served at once when no handler runs; `fish_ISR`
checks the pin after 100 ms; the levels of `PTA5` last for at least 200 ms; main runs when no
handler is due. -/
def Timely [LinearOrder T] [AddMonoidWithOne T] (w : Site T) (a : T × SiteEvent) : Prop :=
  w.now ≤ a.1 ∧
    (w.line.running = none → w.line.pending .pta4 = true ∨ w.line.pending .pta5 = true →
      a.1 = w.now) ∧
    (∀ r ∈ w.line.running, r.1 = .pta5 → a.1 ≤ r.2 + 100) ∧
    match a.2 with
    | .rise => w.level = false ∧ ∀ t ∈ w.since, t + 200 ≤ a.1
    | .fall => w.level = true ∧ ∀ t ∈ w.since, t + 200 ≤ a.1
    | .press => True
    | .serve p => w.line.running = none ∧ w.line.pending p = true
    | .check => ∃ r ∈ w.line.running, r.1 = .pta5 ∧ a.1 = r.2 + 100
    | .registered _ => w.line.Serves .pta4
    | .main _ =>
      w.line.running = none ∧ w.line.pending .pta4 = false ∧ w.line.pending .pta5 = false

/-- A pulse that rose below capacity ends only after its `fish_ISR` has returned. -/
def Rechecked (w : Site T) (a : T × SiteEvent) : Prop :=
  match a.2 with
  | .fall => w.below = true → ¬ w.line.Busy .pta5
  | _ => True

instance (w : Site T) (a : T × SiteEvent) : Decidable (w.Rechecked a) := by
  unfold Rechecked
  obtain ⟨t, _ | _ | _ | _ | _ | _ | _⟩ := a <;> infer_instance

instance [LinearOrder T] [AddMonoidWithOne T] (w : Site T) (a : T × SiteEvent) :
    Decidable (w.Timely a) := by
  unfold Timely
  obtain ⟨t, _ | _ | _ | _ | _ | _ | _⟩ := a <;> infer_instance

/-! ## The books of the exit counter -/

/-- `fish_ISR` is attached, or nothing has changed since line 57. -/
def Wired (t : Main × Globals) : Prop :=
  t.2.fishRise = true ∨ t.2.avaliableSpots = numberOfParkSpots ∧
    (t.1.pc = .initDebounce ∨ t.1.pc = .initCardRise ∨ t.1.pc = .initFishRise)

theorem Wired.fishRise {t : Main × Globals} (h : Wired t)
    (hs : t.2.avaliableSpots < numberOfParkSpots) : t.2.fishRise = true :=
  h.resolve_right fun h' => absurd h'.1 hs.ne

theorem wired_main {m : Main} {g : Globals} (e : Env) (h : Wired (m, g)) :
    Wired (mainStep m g e) := by
  unfold Wired
  rw [mainStep_fishRise]
  rcases h with h | ⟨hs, h | h | h⟩
  · change g.fishRise = true at h
    simp [h]
  · change m.pc = _ at h
    refine Or.inr ⟨?_, Or.inr (Or.inl ?_)⟩
    · rw [mainStep_avaliableSpots, h]
      exact hs
    · rw [mainStep_pc, h]
      rfl
  · change m.pc = _ at h
    refine Or.inr ⟨?_, Or.inr (Or.inr ?_)⟩
    · rw [mainStep_avaliableSpots, h]
      exact hs
    · rw [mainStep_pc, h]
      rfl
  · change m.pc = _ at h
    simp [h]

/-- Every due pulse has been counted, but for one that is high and whose handler has not
returned. -/
structure Accounted (w : Site T) : Prop where
  wired : Wired w.sys
  due_eq : w.due = w.counted + if w.Owed then 1 else 0
  room : w.Owed → w.sys.2.avaliableSpots < numberOfParkSpots
  full : w.line.Busy .pta5 → ¬ w.Owed → numberOfParkSpots ≤ w.sys.2.avaliableSpots
  single : w.Owed → ¬ (w.line.pending .pta5 = true ∧ w.line.Serves .pta5)

/-- An event that leaves `PTA5` as busy as it was changes nothing in the books. -/
theorem Accounted.relay {w w' : Site T} (h : w.Accounted) (hwired : Wired w'.sys)
    (hspots : w'.sys.2.avaliableSpots = w.sys.2.avaliableSpots) (hdue : w'.due = w.due)
    (hcounted : w'.counted = w.counted) (howed : w'.Owed ↔ w.Owed)
    (hbusy : w'.line.Busy .pta5 → w.line.Busy .pta5)
    (hsingle : w'.line.pending .pta5 = true ∧ w'.line.Serves .pta5 →
      w.line.pending .pta5 = true ∧ w.line.Serves .pta5) : w'.Accounted where
  wired := hwired
  due_eq := by
    rw [hdue, hcounted, h.due_eq]
    simp only [howed]
  room ho := hspots ▸ h.room (howed.mp ho)
  full hb ho := hspots ▸ h.full (hbusy hb) fun ho' => ho (howed.mpr ho')
  single ho hs := h.single (howed.mp ho) (hsingle hs)

theorem accounted_rise {w : Site T} {t : T} (h : w.Accounted) (hlow : w.level = false) :
    (w.next (t, .rise)).Accounted := by
  have howed : ¬ w.Owed := fun ho => absurd ho.1 (by simp [hlow])
  have hdue : w.due = w.counted := by rw [h.due_eq, if_neg howed, Nat.add_zero]
  by_cases hs : w.sys.2.avaliableSpots < numberOfParkSpots
  · have hrise := h.wired.fishRise hs
    have hfree : ¬ w.line.Busy .pta5 := fun hb => absurd (h.full hb howed) (not_le.mpr hs)
    have hnext : (w.next (t, .rise)).Owed := by
      simp [Owed, next, hs, hrise, Line.Busy]
    refine ⟨h.wired, ?_, fun _ => hs, fun _ hno => absurd hnext hno, fun _ hp => ?_⟩
    · rw [if_pos hnext]
      simp [next, hs, hdue]
    · have hserves : w.line.Serves .pta5 := by simpa [next, hrise] using hp.2
      exact hfree (Or.inr hserves)
  · have hnext : ¬ (w.next (t, .rise)).Owed := by
      simp [Owed, next, hs]
    refine ⟨h.wired, ?_, fun ho => absurd ho hnext, fun _ _ => not_lt.mp hs,
      fun ho => absurd ho hnext⟩
    rw [if_neg hnext]
    simp [next, hs, hdue]

theorem accounted_fall {w : Site T} {t : T} (h : w.Accounted) (hr : w.Rechecked (t, .fall)) :
    (w.next (t, .fall)).Accounted := by
  have howed : ¬ w.Owed := fun ho => hr ho.2.1 ho.2.2
  have hnext : ¬ (w.next (t, .fall)).Owed := fun ho => Bool.noConfusion ho.1
  exact h.relay h.wired rfl rfl rfl (iff_of_false hnext howed) id id

theorem accounted_press {w : Site T} {t : T} (h : w.Accounted) :
    (w.next (t, .press)).Accounted := by
  have hne : Pin.pta5 ≠ .pta4 := by decide
  have hbusy : (w.next (t, .press)).line.Busy .pta5 ↔ w.line.Busy .pta5 := by
    show (if w.sys.2.cardRise then w.line.edge .pta4 else w.line).Busy .pta5 ↔ _
    split_ifs
    · exact Line.busy_edge_of_ne hne
    · exact Iff.rfl
  refine h.relay h.wired rfl rfl rfl ?_ hbusy.mp ?_
  · exact and_congr_right' (and_congr_right' hbusy)
  · show (if w.sys.2.cardRise then w.line.edge .pta4 else w.line).pending .pta5 = true ∧
      (if w.sys.2.cardRise then w.line.edge .pta4 else w.line).Serves .pta5 → _
    split_ifs
    · simp
    · exact id

theorem accounted_serve {w : Site T} {t : T} {p : Pin} (h : w.Accounted)
    (hfree : w.line.running = none) (hp : w.line.pending p = true) :
    (w.next (t, .serve p)).Accounted := by
  have hbusy : (w.line.serve p t).Busy .pta5 ↔ w.line.Busy .pta5 := Line.busy_serve hp hfree
  refine h.relay h.wired rfl rfl rfl (and_congr_right' (and_congr_right' hbusy)) hbusy.mp ?_
  rintro ⟨h1, h2⟩
  exact absurd (Line.serves_serve.mp h2).symm (Line.pending_serve.mp h1).1

theorem accounted_registered {w : Site T} {t : T} {s : Session} (h : w.Accounted)
    (hs : w.line.Serves .pta4) : (w.next (t, .registered s)).Accounted := by
  obtain ⟨⟨m, g⟩, line, level, since, now, below, due, counted⟩ := w
  have hframe := handle_register_frame g s
  have hbusy : line.done.Busy .pta5 ↔ line.Busy .pta5 := Line.busy_done_of_ne hs (by decide)
  refine h.relay ?_ (handle_register_spots g s) rfl rfl
    (and_congr_right' (and_congr_right' hbusy)) hbusy.mp fun hd => absurd hd.2 Line.not_serves_done
  have hspots : (handle g (.register s)).avaliableSpots = g.avaliableSpots :=
    handle_register_spots g s
  have hrise : (handle g (.register s)).fishRise = g.fishRise :=
    congrArg (fun f => f.2.2.2) hframe
  have hw := h.wired
  show Wired (m, handle g (.register s))
  unfold Wired at hw ⊢
  simp only [hspots, hrise] at hw ⊢
  exact hw

theorem accounted_check {w : Site T} {t : T} (h : w.Accounted) (hs : w.line.Serves .pta5) :
    (w.next (t, .check)).Accounted := by
  obtain ⟨⟨m, g⟩, line, level, since, now, below, due, counted⟩ := w
  have hbusy : line.done.Busy .pta5 → line.pending .pta5 = true := fun hb =>
    hb.resolve_right Line.not_serves_done
  by_cases ho : Owed ⟨(m, g), line, level, since, now, below, due, counted⟩
  · -- the pulse that is due is counted
    have hroom : g.avaliableSpots < numberOfParkSpots := h.room ho
    have hrise : g.fishRise = true := h.wired.fishRise hroom
    have hlevel : level = true := ho.1
    have hc : g.fishRise = true ∧ Counts level g := ⟨hrise, hlevel, hroom⟩
    have hcount : Counted (m, g) (.inr (.fish level)) := hc
    have hfree : ¬ line.done.Busy .pta5 := fun hb => h.single ho ⟨hbusy hb, hs⟩
    have hdue : due = counted + 1 := by
      have := h.due_eq
      rwa [if_pos ho] at this
    refine ⟨Or.inl ?_, ?_, fun ho' => absurd ho'.2.2 hfree, fun hb => absurd hb hfree,
      fun ho' => absurd ho'.2.2 hfree⟩
    · show (handle g (.fish level)).fishRise = true
      rw [handle_fish, if_pos hc]
      exact hrise
    · have hnext : ¬ (next ⟨(m, g), line, level, since, now, below, due, counted⟩
          (t, .check)).Owed := fun ho' => hfree ho'.2.2
      rw [if_neg hnext]
      show due = (if Counted (m, g) (.inr (.fish level)) then counted + 1 else counted) + 0
      rw [if_pos hcount, hdue]
  · -- the lot is full
    have hfull : numberOfParkSpots ≤ g.avaliableSpots := h.full (Or.inr hs) ho
    have hc : ¬ (g.fishRise = true ∧ Counts level g) := fun hc => not_le.mpr hc.2.2 hfull
    have hcount : ¬ Counted (m, g) (.inr (.fish level)) := hc
    have hsame : handle g (.fish level) = g := by rw [handle_fish, if_neg hc]
    have hnext : ¬ (next ⟨(m, g), line, level, since, now, below, due, counted⟩ (t, .check)).Owed :=
      fun ho' => ho ⟨ho'.1, ho'.2.1, Or.inr hs⟩
    have hdue := h.due_eq
    rw [if_neg ho] at hdue
    refine ⟨?_, ?_, fun ho' => absurd ho' hnext, fun _ _ => ?_, fun ho' => absurd ho' hnext⟩
    · show Wired (m, handle g (.fish level))
      rw [hsame]
      exact h.wired
    · rw [if_neg hnext]
      show due = (if Counted (m, g) (.inr (.fish level)) then counted + 1 else counted) + 0
      rw [if_neg hcount]
      exact hdue
    · show numberOfParkSpots ≤ (handle g (.fish level)).avaliableSpots
      rw [hsame]
      exact hfull

theorem accounted_main {w : Site T} {t : T} {e : Env} (h : w.Accounted)
    (hidle : ¬ w.line.Busy .pta5) : (w.next (t, .main e)).Accounted := by
  have howed : ¬ w.Owed := fun ho => hidle ho.2.2
  have hnext : ¬ (w.next (t, .main e)).Owed := fun ho => hidle ho.2.2
  refine ⟨wired_main e h.wired, ?_, fun ho => absurd ho hnext, fun hb => absurd hb hidle,
    fun ho => absurd ho hnext⟩
  have hdue := h.due_eq
  rw [if_neg howed] at hdue
  rw [if_neg hnext]
  exact hdue

theorem accounted_next [LinearOrder T] [AddMonoidWithOne T] (w : Site T) (a : T × SiteEvent)
    (ha : w.Timely a ∧ w.Rechecked a) (h : w.Accounted) : (w.next a).Accounted := by
  obtain ⟨t, ev⟩ := a
  obtain ⟨⟨-, -, -, hev⟩, hr⟩ := ha
  cases ev with
  | rise => exact accounted_rise h hev.1
  | fall => exact accounted_fall h hr
  | press => exact accounted_press h
  | serve p => exact accounted_serve h hev.1 hev.2
  | check =>
    obtain ⟨⟨p, t'⟩, hrun, rfl, -⟩ := hev
    refine accounted_check h ?_
    rw [Line.Serves, hrun]
    rfl
  | registered s => exact accounted_registered h hev
  | main e =>
    refine accounted_main h ?_
    rintro (hp | hs)
    · rw [hev.2.2] at hp
      exact Bool.noConfusion hp
    · simp [Line.Serves, hev.1] at hs

theorem accounted_start (s : LotEntry) (t : T) : (start s t).Accounted := by
  have hidle : ¬ (start s t).line.Busy .pta5 := by simp [start, Line.quiet, Line.Busy, Line.Serves]
  have howed : ¬ (start s t).Owed := fun ho => hidle ho.2.2
  refine ⟨Or.inr ⟨s.spots_eq, Or.inl s.pc_eq⟩, ?_, fun ho => absurd ho howed,
    fun hb => absurd hb hidle, fun ho => absurd ho howed⟩
  rw [if_neg howed]
  rfl

end Site

/-- **No exit is lost** that outlasts the handler that it waits for. In every run from line 58 on
with the timing of the interrupt line and clean pulses on `PTA5`: if every pulse that rose while
there was a free spot to give back ends only after its `fish_ISR` has checked the pin, then,
whenever `PTA5` is low, the increment was executed once for each such pulse. -/
theorem no_exit_lost {T : Type*} [LinearOrder T] [AddMonoidWithOne T] (s : LotEntry) (t : T)
    (as : List (T × SiteEvent)) (ht : Legal Site.next Site.Timely (Site.start s t) as)
    (hr : Legal Site.next Site.Rechecked (Site.start s t) as)
    (hlow : (run Site.next (Site.start s t) as).level = false) :
    (run Site.next (Site.start s t) as).counted = (run Site.next (Site.start s t) as).due := by
  have hok : Legal Site.next (fun w a => w.Timely a ∧ w.Rechecked a) (Site.start s t) as :=
    fun p hp => ⟨ht p hp, hr p hp⟩
  have h := legal_induction Site.accounted_next (Site.accounted_start s t) hok
  have howed : ¬ (run Site.next (Site.start s t) as).Owed := fun ho =>
    Bool.noConfusion (hlow.symm.trans ho.1)
  have hdue := h.due_eq
  rw [if_neg howed] at hdue
  exact hdue.symm

def mains (t : ℕ) (as : List Label) : List (ℕ × SiteEvent) :=
  as.filterMap fun
    | .inl e => some (t, .main e)
    | .inr _ => none

/-- A session that looks for the master card twice a second until the ten seconds are over. -/
def nobodyCame : Session where
  debounceMs := 15000
  pressed := true
  pressedAgain := true
  masterPolls := (List.range 20).map fun k =>
    { atTest := k / 2
      atPrint := k / 2
      atDeny := 0
      bufferATQA := [0, 0]
      request := silence
      buffer := []
      select := [] }
  newPolls := []

/-- A car enters; the button is pressed at 20 s, and the handler returns at 30.3 s. The exit sensor
is high from 21 s on, until `low`. -/
def exitDuringSession (low : ℕ) : List (ℕ × SiteEvent) :=
  mains 1000 (stay 15 0 0 ++ approach) ++ mains 2000 enter ++ mains 9000 clear ++
    [(20000, .press), (20000, .serve .pta4), (21000, .rise)] ++
    (if low < 30300 then [(low, .fall)] else []) ++
    [(30300, .registered nobodyCame), (30300, .serve .pta5), (30400, .check)] ++
    (if low < 30300 then [] else [(low, .fall)])

theorem no_exit_lost_patient :
    (run Site.next (Site.start (LotEntry.boot { distance := 100 }) 0)
        (exitDuringSession 31000)).counted =
      (run Site.next (Site.start (LotEntry.boot { distance := 100 }) 0)
        (exitDuringSession 31000)).due :=
  no_exit_lost _ 0 (exitDuringSession 31000) (by decide +kernel) (by decide +kernel)
    (by decide +kernel)

/-- **An exit during a session is lost**: the car is gone when `fish_ISR` checks the pin. -/
theorem loses_exit_during_session : ¬ ∀ (s : LotEntry) (t : ℕ) (as : List (ℕ × SiteEvent)),
    Legal Site.next Site.Timely (Site.start s t) as →
      (run Site.next (Site.start s t) as).level = false →
      (run Site.next (Site.start s t) as).counted = (run Site.next (Site.start s t) as).due := by
  intro h
  have h' := h (LotEntry.boot { distance := 100 }) 0 (exitDuringSession 21500) (by decide +kernel)
    (by decide +kernel)
  revert h'
  decide +kernel

end ParkingLot
