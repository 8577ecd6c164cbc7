import ParkingLot.Barrier

/-!
# The gate and the LED over a whole run

* `Posed`: what the gate and the LED show at each point, kept by every step.
* `IdleEntry`: a state in which main enters its loop, with the gate closed and the LED red.
* **`gate_protocol`**: main is at the head of its loop only with the gate closed and the LED red;
  the gate is open only between `gate_open` and the next `gate_close`; and `openProcedure` returns
  from an open gate only after the time is over and on a last reading that found the gateway clear.
-/

namespace ParkingLot

open Machine

/-! ## The LED -/

/-- The LED after a statement of main. -/
def ledAfter (l : Led) : PC → Led
  | .initLed p | .closeLed p | .denyLed p => ledRed.stmt l p
  | .openLed p => ledGreen.stmt l p
  | .openBlue p => ledBlue.stmt l p
  | _ => l

theorem mainStep_led (m : Main) (g : Globals) (e : Env) :
    (mainStep m g e).2.led = ledAfter g.led m.pc := by
  unfold mainStep
  cases m.pc <;> rfl

/-- How many assignments of `setLED(0, 1, 0)` are in force at a point: all three where main is
idle. -/
def PC.reds : PC → ℕ
  | .initLed .green | .closeLed .green | .denyLed .green => 1
  | .initLed .blue | .closeLed .blue | .denyLed .blue => 2
  | .initLcd _ | .gateCalibrate | .gateWait | .gateInitClose | .loopLcd _ | .newCard | .pollWait
  | .readCard | .closeGate | .closeLcd _ | .denyGate | .denyLcd _ | .denyWait
  | .denyWelcome _ => 3
  | _ => 0

/-- The LED shows the first `n` assignments of `setLED(0, 1, 0)`. -/
def Led.Reds (l : Led) (n : ℕ) : Prop :=
  (0 < n → l.red = false) ∧ (1 < n → l.green = true) ∧ (2 < n → l.blue = false)

instance (l : Led) (n : ℕ) : Decidable (l.Reds n) := inferInstanceAs (Decidable (_ ∧ _ ∧ _))

theorem flow_reds : ∀ p : PC, ∀ q ∈ p.flow, ∀ r g b : Bool,
    (Led.mk r g b).Reds p.reds → (ledAfter ⟨r, g, b⟩ p).Reds q.reds := by decide +kernel

theorem flow_boot_end : ∀ p : PC, p.Booting → ∀ q ∈ p.flow, q.Booting ∨ p = .gateInitClose := by
  decide +kernel

theorem Led.reds_ledRed (n : ℕ) : ledRed.Reds n := ⟨fun _ => rfl, fun _ => rfl, fun _ => rfl⟩

theorem Led.Reds.eq_ledRed {l : Led} (h : l.Reds 3) : l = ledRed := by
  obtain ⟨r, g, b⟩ := l
  obtain ⟨hr, hg, hb⟩ := h
  rw [show r = _ from hr (by decide), show g = _ from hg (by decide), show b = _ from hb (by decide)]
  rfl

theorem handle_led (g : Globals) (h : Handler) :
    (handle g h).led = g.led ∨ (handle g h).led = ledRed := by
  obtain pin | s := h
  · rw [handle_fish]
    split_ifs <;> exact Or.inl rfl
  · rw [handle]
    split_ifs
    · rw [registerISR_led]
      split_ifs
      · exact Or.inr rfl
      · exact Or.inl rfl
    · exact Or.inl rfl

/-! ## What is shown at each point -/

/-- The gate is closed, or open at a point where it may be; the LED shows what it should. -/
structure Posed (m : Main) (g : Globals) : Prop where
  gate : m.pc.Booting ∨ g.gate = .closed ∨ g.gate = .opened ∧ m.pc.Raised
  led : g.led.Reds m.pc.reds

theorem posed_mainStep {m : Main} {g : Globals} (e : Env) (h : Posed m g) :
    Posed (mainStep m g e).1 (mainStep m g e).2 := by
  have hflow := mainStep_flow m g e
  refine ⟨?_, ?_⟩
  · rcases h.gate with hb | hg
    · rcases flow_boot_end _ hb _ hflow with hb' | hpc
      · exact Or.inl hb'
      · rw [mainStep_gate, hpc]
        exact Or.inr (Or.inl rfl)
    · have hne : (mainStep m g e).2.gate ≠ .uninitialized := by
        rw [mainStep_gate]
        rcases hg with hg | ⟨hg, -⟩ <;> cases m.pc <;> simp [hg]
      cases hgate : (mainStep m g e).2.gate with
      | uninitialized => exact absurd hgate hne
      | closed => exact Or.inr (Or.inl rfl)
      | opened =>
        refine Or.inr (Or.inr ⟨rfl, ?_⟩)
        rcases Watch.opened_of_mainStep hgate with hpc | ⟨hopen, hpc⟩
        · exact flow_openGate _ (hpc ▸ hflow)
        · have hr : m.pc.Raised := (hg.resolve_left (by simp [hopen])).2
          exact (flow_raised _ hr _ hflow).resolve_right hpc
  · rw [mainStep_led]
    exact flow_reds _ _ hflow _ _ _ h.led

theorem posed_handle {m : Main} {g : Globals} (h : Handler) (hp : Posed m g) :
    Posed m (handle g h) := by
  refine ⟨by rw [handle_gate]; exact hp.gate, ?_⟩
  rcases handle_led g h with hl | hl <;> rw [hl]
  · exact hp.led
  · exact Led.reds_ledRed _

theorem posed_run {t : Main × Globals} (h : Posed t.1 t.2) (as : List Label) :
    Posed (run next t as).1 (run next t as).2 :=
  Preempted.run_keeps (P := lot) (fun _ _ e => posed_mainStep e) (fun _ _ x => posed_handle x) h as

theorem posed_powerOn : Posed powerOn.1 powerOn.2 := ⟨Or.inl trivial, by decide⟩

/-- A state in which main enters its loop with the gate closed and the LED red. -/
structure IdleEntry where
  m : Main
  g : Globals
  pc_eq : m.pc = .loopLcd .cls
  gate_eq : g.gate = .closed
  led_eq : g.led = ledRed

def IdleEntry.state (s : IdleEntry) : Main × Globals := (s.m, s.g)

theorem Posed.idle {m : Main} {g : Globals} (h : Posed m g) (hpc : m.pc = .loopLcd .cls) :
    g.gate = .closed ∧ g.led = ledRed := by
  obtain ⟨hg, hl⟩ := h
  rw [hpc] at hg hl
  exact ⟨(hg.resolve_left id).resolve_right And.right, hl.eq_ledRed⟩

/-- **The start-up leads to an idle entry**, wherever the handlers interrupt it. -/
def IdleEntry.boot (as : List Label) (h : (run next powerOn as).1.pc = .loopLcd .cls) : IdleEntry where
  m := (run next powerOn as).1
  g := (run next powerOn as).2
  pc_eq := h
  gate_eq := ((posed_run posed_powerOn as).idle h).1
  led_eq := ((posed_run posed_powerOn as).idle h).2

/-! ## From the opening to the closing -/

/-- Main has left the start-up, and gate and LED are as they should be. -/
def Operating (t : Main × Globals) : Prop := ¬ t.1.pc.Booting ∧ Posed t.1 t.2

theorem operating_next (t : Main × Globals) (a : Label) (h : Operating t) : Operating (next t a) := by
  obtain ⟨m, g⟩ := t
  obtain e | x := a
  · rw [next_main]
    exact ⟨mainStep_keeps flow_booting g e h.1, posed_mainStep e h.2⟩
  · rw [next_handler]
    exact ⟨h.1, posed_handle x h.2⟩

theorem IdleEntry.operating (s : IdleEntry) : Operating s.state := by
  refine ⟨?_, Or.inr (Or.inl s.gate_eq), s.led_eq ▸ Led.reds_ledRed _⟩
  rw [IdleEntry.state, s.pc_eq]
  exact id

theorem Operating.raised {t : Main × Globals} (h : Operating t) (hg : t.2.gate = .opened) :
    t.1.pc.Raised :=
  ((h.2.gate.resolve_left h.1).resolve_left (by simp [hg])).2

theorem gateDistanceCm_next (t : Main × Globals) (a : Label) (h : ¬ t.1.pc.Booting) :
    (next t a).1.gateDistanceCm = t.1.gateDistanceCm := by
  obtain ⟨m, g⟩ := t
  obtain e | x := a
  · rw [next_main, mainStep_gateDistanceCm, if_neg]
    intro hpc
    rw [show m.pc = _ from hpc] at h
    exact h trivial
  · rfl

theorem baseline_run (s : IdleEntry) (as : List Label) :
    Operating (run next s.state as) ∧ (run next s.state as).1.gateDistanceCm = s.m.gateDistanceCm :=
  run_induction
    (I := fun t => Operating t ∧ t.1.gateDistanceCm = s.m.gateDistanceCm)
    (fun t a h => ⟨operating_next t a h.1, (gateDistanceCm_next t a h.1.1).trans h.2⟩)
    ⟨s.operating, rfl⟩ as

/-- An open gate was opened by `openProcedure`, and `closeProcedure` has not closed it since. -/
theorem opened_since (s : IdleEntry) {as : List Label}
    (h : (run next s.state as).2.gate = .opened) :
    ∃ pre e post, as = pre ++ .inl e :: post ∧ (run next s.state pre).1.pc = .openGate ∧
      Legal next (fun t _ => t.1.pc.Raised) (next (run next s.state pre) (.inl e)) post := by
  have h0 : s.state.2.gate ≠ .opened := by
    rw [IdleEntry.state, s.gate_eq]
    decide
  obtain ⟨pre, a, post, rfl, h1, h2, h3⟩ :=
    run_since (Q := fun t : Main × Globals => t.2.gate = .opened) h0 h
  have hop := (baseline_run s pre).1
  revert h1 h2 h3 hop
  generalize ht : run next s.state pre = t
  obtain ⟨m, g⟩ := t
  intro h1 h2 h3 hop
  have hraised : Legal next (fun t _ => t.1.pc.Raised) (next (m, g) a) post :=
    legal_of_legal (fun t a _ => operating_next t a) (fun t a hg ht => ht.raised hg)
      (operating_next (m, g) a hop) h3
  obtain e | x := a
  · refine ⟨pre, e, post, rfl, ?_, by rwa [ht]⟩
    rw [ht]
    exact (Watch.opened_of_mainStep h2).resolve_right fun hopen => h1 hopen.1
  · rw [next_handler] at h2
    exact absurd ((handle_gate g x).symm.trans h2) h1

/-! ## The way out of the open gate -/

/-- The step is a distance reading of `openProcedure`. -/
def Measures (t : Main × Globals) (a : Label) : Prop := a.isLeft = true ∧ t.1.pc.Reads

/-- The points between `gate_open` and the first reading. -/
def PC.Unread : PC → Prop
  | .openLcd _ | .openDist => True
  | _ => False

instance (p : PC) : Decidable p.Unread := by
  apply PC.casesOn (motive := fun p => Decidable p.Unread) p <;> intros <;>
    first | exact instDecidableTrue | exact instDecidableFalse

/-- The points from the end of the loop of `openProcedure` to its return. -/
def PC.Leaves (p : PC) : Prop := p = .openStop ∨ p = .afterOpen

instance (p : PC) : Decidable p.Leaves := inferInstanceAs (Decidable (_ ∨ _))

theorem flow_unread : ∀ p : PC, p.Unread → ¬ p.Reads → ∀ q ∈ p.flow, q.Unread := by decide +kernel

theorem flow_measured : ∀ p : PC, p.Reads → ∀ q ∈ p.flow, ¬ q.Leaves ∧ q ≠ .openNear := by
  decide +kernel

theorem flow_leaves : ∀ p : PC, p.Raised → ¬ p.Leaves → ∀ q ∈ p.flow, q.Leaves →
    p = .openNear ∧ q = .openStop := by decide +kernel

theorem flow_openNear : ∀ p : PC, .openNear ∈ p.flow → p = .openTimer := by decide +kernel

theorem distanceCm_next {t : Main × Globals} {a : Label} (h : ¬ Measures t a) :
    (next t a).1.distanceCm = t.1.distanceCm := by
  obtain ⟨m, g⟩ := t
  obtain e | x := a
  · rw [next_main, mainStep_distanceCm, if_neg fun hr => h ⟨rfl, hr⟩]
  · rfl

theorem next_reading {t : Main × Globals} (h : t.1.pc.Reads) (e : Env) :
    (¬ (next t (.inl e)).1.pc.Leaves ∧ (next t (.inl e)).1.pc ≠ .openNear) ∧
      (next t (.inl e)).1.distanceCm = e.distance := by
  obtain ⟨m, g⟩ := t
  rw [next_main, mainStep_distanceCm, if_pos h]
  exact ⟨flow_measured m.pc h _ (mainStep_flow m g e), rfl⟩

/-- A run from behind `gate_open` to the return of `openProcedure` has a last reading. -/
theorem exists_last_reading {t : Main × Globals} {as : List Label} (ht : t.1.pc.Unread)
    (hend : ¬ (run next t as).1.pc.Unread) :
    ∃ mid e post, as = mid ++ .inl e :: post ∧ (run next t mid).1.pc.Reads ∧
      Legal next (fun t a => ¬ Measures t a) (next (run next t mid) (.inl e)) post := by
  rcases legal_or_last Measures t as with h | ⟨mid, a, post, rfl, ⟨ha, hr⟩, h⟩
  · refine absurd (legal_induction (I := fun t => t.1.pc.Unread) ?_ ht h) hend
    rintro ⟨m, g⟩ (e | x) hno hu
    · rw [next_main]
      exact flow_unread m.pc hu (fun hr => hno ⟨rfl, hr⟩) _ (mainStep_flow m g e)
    · exact hu
  · obtain e | x := a
    · exact ⟨mid, e, post, rfl, hr, h⟩
    · cases ha

/-- From a last reading to the end of the loop: the time is over, and the reading was not near. -/
theorem leaves_since {t : Main × Globals} {as : List Label} (ht : ¬ t.1.pc.Leaves ∧ t.1.pc ≠ .openNear)
    (hop : Operating t) (hend : (run next t as).1.pc.Leaves)
    (hraised : Legal next (fun t _ => t.1.pc.Raised) t as)
    (hno : Legal next (fun t a => ¬ Measures t a) t as) :
    (∃ pre e post, as = pre ++ .inl e :: post ∧ (run next t pre).1.pc = .openTimer ∧
        (defaultLcdWait : ℚ) ≤ e.timerGate) ∧ t.1.gateDistanceCm ≤ t.1.distanceCm := by
  obtain ⟨as, a, post, rfl, h1, h2, -⟩ :=
    run_since (Q := fun t : Main × Globals => t.1.pc.Leaves) ht.1 hend
  rw [legal_append, legal_cons] at hraised hno
  have hkeep : (run next t as).1.distanceCm = t.1.distanceCm ∧
      (run next t as).1.gateDistanceCm = t.1.gateDistanceCm ∧ Operating (run next t as) := by
    refine legal_induction (I := fun u => u.1.distanceCm = t.1.distanceCm ∧
      u.1.gateDistanceCm = t.1.gateDistanceCm ∧ Operating u) ?_ ⟨rfl, rfl, hop⟩ hno.1
    rintro u b hb ⟨hd, hg, ho⟩
    exact ⟨(distanceCm_next hb).trans hd, (gateDistanceCm_next u b ho.1).trans hg,
      operating_next u b ho⟩
  -- the loop is left at `openNear`, where the distance is compared
  have hnear : (run next t as).1.pc = .openNear ∧ ¬ t.1.distanceCm < t.1.gateDistanceCm := by
    obtain ⟨hd, hg, -⟩ := hkeep
    rw [← hd, ← hg]
    have hr := hraised.2.1
    revert h1 h2 hr
    generalize run next t as = u
    obtain ⟨m, g⟩ := u
    intro h1 h2 hr
    obtain e | x := a
    · rw [next_main] at h2
      obtain ⟨hpc, hq⟩ := flow_leaves m.pc hr h1 _ (mainStep_flow m g e) h2
      exact ⟨hpc, by simpa [mainStep_pc, hpc] using hq⟩
    · exact absurd h2 h1
  refine ⟨?_, not_lt.mp hnear.2⟩
  -- and it is reached from `openTimer`, where the timer is read
  obtain ⟨pre, a', post', rfl, h1', h2', -⟩ :=
    run_since (Q := fun t : Main × Globals => t.1.pc = .openNear) ht.2 hnear.1
  revert h1' h2'
  generalize hu : run next t pre = u
  obtain ⟨m, g⟩ := u
  intro h1' h2'
  obtain e | x := a'
  · rw [next_main] at h2'
    have hpc : m.pc = .openTimer := flow_openNear _ (h2' ▸ mainStep_flow m g e)
    refine ⟨pre, e, post' ++ a :: post, by simp, by rw [hu]; exact hpc, ?_⟩
    simpa [mainStep_pc, hpc] using h2'
  · exact absurd h2' h1'

/-- **The gate protocol.** Wherever the handlers interrupt main: at the head of its loop the gate
is closed and the LED is red. An open gate was opened by `openProcedure`, and since then main has
not left the points up to `gate_close`. And when `openProcedure` returns from an open gate, its
last reading was not below the baseline, and after it the timer was read at `DEFAULT_LCD_WAIT` or
more. -/
theorem gate_protocol (s : IdleEntry) (as : List Label) :
    ((run next s.state as).1.pc = .loopLcd .cls →
      (run next s.state as).2.gate = .closed ∧ (run next s.state as).2.led = ledRed) ∧
    ((run next s.state as).2.gate = .opened →
      ∃ pre e post, as = pre ++ .inl e :: post ∧ (run next s.state pre).1.pc = .openGate ∧
        Legal next (fun t _ => t.1.pc.Raised) (next (run next s.state pre) (.inl e)) post ∧
        (run next s.state as).1.pc.Raised) ∧
    ((run next s.state as).2.gate = .opened → (run next s.state as).1.pc = .afterOpen →
      ∃ pre e mid r post, as = pre ++ .inl e :: (mid ++ .inl r :: post) ∧
        (run next s.state pre).1.pc = .openGate ∧
        let t := run next (next (run next s.state pre) (.inl e)) mid
        Legal next (fun t _ => t.1.pc.Raised) (next (run next s.state pre) (.inl e))
          (mid ++ .inl r :: post) ∧
        t.1.pc.Reads ∧ s.m.gateDistanceCm ≤ r.distance ∧
        Legal next (fun t a => ¬ Measures t a) (next t (.inl r)) post ∧
        ∃ b x c, post = b ++ .inl x :: c ∧
          (run next (next t (.inl r)) b).1.pc = .openTimer ∧
          (defaultLcdWait : ℚ) ≤ x.timerGate) := by
  refine ⟨fun hpc => (baseline_run s as).1.2.idle hpc, fun hg => ?_, fun hg hpc => ?_⟩
  · obtain ⟨pre, e, post, rfl, h1, h2⟩ := opened_since s hg
    exact ⟨pre, e, post, rfl, h1, h2, (baseline_run s _).1.raised hg⟩
  · obtain ⟨pre, e, post, rfl, h1, h2⟩ := opened_since s hg
    have hopen : (next (run next s.state pre) (.inl e)).1.pc.Unread := by
      have hflow := mainStep_flow (run next s.state pre).1 (run next s.state pre).2 e
      rw [h1] at hflow
      rw [show (next (run next s.state pre) (.inl e)).1.pc = _ from List.mem_singleton.mp hflow]
      trivial
    rw [run_append, run_cons] at hpc
    obtain ⟨mid, r, post, rfl, hr, hno⟩ := exists_last_reading hopen (by rw [hpc]; exact id)
    refine ⟨pre, e, mid, r, post, rfl, h1, h2, hr, ?_⟩
    rw [legal_append, legal_cons] at h2
    rw [run_append, run_cons] at hpc
    -- the state after the last reading
    obtain ⟨hop, hbase⟩ := baseline_run s (pre ++ .inl e :: (mid ++ [.inl r]))
    simp only [run_append, run_cons, run_nil] at hop hbase
    obtain ⟨hmeasured, hdist⟩ := next_reading hr r
    obtain ⟨htime, hclear⟩ := leaves_since hmeasured hop (Or.inr hpc) h2.2.2 hno
    rw [hbase, hdist] at hclear
    exact ⟨hclear, hno, htime⟩

end ParkingLot
