import ParkingLot.System

/-!
# The number of free spots

* **`capacity_bounds`**: it stays between `0` and `NUMBER_OF_PARK_SPOTS`.
* `Counted`, `Charged`, `Lost`: the steps that count an exit and an entry, and those that count an
  exit between the load and the store of `avaliableSpots--`.
* **`accounting_iff`**: entries and exits add up exactly in the runs without a lost exit.
-/

namespace ParkingLot

open Machine

/-- A state after line 57. -/
structure LotEntry where
  m : Main
  g : Globals
  pc_eq : m.pc = .initDebounce
  spots_eq : g.avaliableSpots = numberOfParkSpots

def LotEntry.state (s : LotEntry) : Main × Globals := (s.m, s.g)

@[simp] theorem LotEntry.state_pc (s : LotEntry) : s.state.1.pc = .initDebounce := s.pc_eq

@[simp] theorem LotEntry.state_spots (s : LotEntry) :
    s.state.2.avaliableSpots = numberOfParkSpots := s.spots_eq

def LotEntry.boot (e : Env) : LotEntry where
  m := (run next powerOn [.inl e, .inl e]).1
  g := (run next powerOn [.inl e, .inl e]).2
  pc_eq := rfl
  spots_eq := rfl

def PC.Started (p : PC) : Prop := p ≠ .initDist ∧ p ≠ .initSpots

instance (p : PC) : Decidable p.Started := inferInstanceAs (Decidable (_ ∧ _))

theorem flow_started : ∀ p : PC, p.Started → ∀ q ∈ p.flow, q.Started := by decide +kernel

/-! ## Bounds -/

/-- What `openProcedure` relies on at its points: a free spot until the car is counted. -/
def Reserved (m : Main) (g : Globals) : Prop :=
  match m.pc with
  | .openCountInit => 0 < g.avaliableSpots
  | .openReset | .openStart | .openLed _ | .openGate | .openLcd _ | .openDist | .openBlue _
  | .openLoad => m.count = 0 ∧ 0 < g.avaliableSpots
  | .openTimer | .openNear | .openRead | .openIf =>
    m.count = 0 ∧ 0 < g.avaliableSpots ∨ 0 < m.count
  | .openStore => m.count = 0 ∧ 0 < m.loaded ∧ m.loaded ≤ numberOfParkSpots
  | .openCount => m.count = 0
  | _ => True

/-- The free spots are in bounds, and `openProcedure` has what it relies on. -/
structure InBounds (m : Main) (g : Globals) : Prop where
  started : m.pc.Started
  nonneg : 0 ≤ g.avaliableSpots
  le : g.avaliableSpots ≤ numberOfParkSpots
  reserved : Reserved m g

theorem reserved_mono {m : Main} {g g' : Globals} (h : Reserved m g)
    (hg : g.avaliableSpots ≤ g'.avaliableSpots) : Reserved m g' := by
  revert h
  unfold Reserved
  cases m.pc <;> intro h <;> simp only at h ⊢ <;> omega

theorem InBounds.mono {m : Main} {g g' : Globals} (h : InBounds m g)
    (hg : g.avaliableSpots ≤ g'.avaliableSpots) (hle : g'.avaliableSpots ≤ numberOfParkSpots) :
    InBounds m g' :=
  ⟨h.started, h.nonneg.trans hg, hle, reserved_mono h.reserved hg⟩

theorem reserved_mainStep {m : Main} {g : Globals} (e : Env) (h : InBounds m g) :
    Reserved (mainStep m g e).1 (mainStep m g e).2 := by
  obtain ⟨-, -, hle, hr⟩ := h
  unfold Reserved at hr
  unfold mainStep
  cases hpc : m.pc <;> rw [hpc] at hr
  case openGuard =>
    simp only [Main.goto]
    split_ifs with hpos
    · exact hpos
    · exact trivial
  case openCountInit => exact ⟨rfl, hr⟩
  case openDist => exact Or.inl hr
  case openTimer => simp only [Main.goto]; split_ifs <;> exact hr
  case openNear => simp only [Main.goto]; split_ifs <;> first | exact hr | exact trivial
  case openIf =>
    simp only [Main.goto]
    split_ifs with hc
    · exact ⟨hc.1, hr.elim And.right fun h => absurd hc.1 h.ne'⟩
    · exact hr
  case openLoad => exact ⟨hr.1, hr.2, hle⟩
  case openStore => exact hr.1
  case openCount =>
    refine Or.inr ?_
    change m.count = 0 at hr
    show 0 < m.count + 1
    omega
  case openLed p | openBlue p => cases p <;> exact hr
  case openLcd p =>
    simp only [Main.write]
    cases p <;> exact hr
  case openReset | openStart | openGate | openRead => exact hr
  -- elsewhere nothing is reserved
  case newCard | readCard | idTest | scanTest | scanCompare =>
    simp only [Main.goto]
    split_ifs <;> exact trivial
  case initLed p | closeLed p | denyLed p => cases p <;> exact trivial
  case initLcd p | loopLcd p | fullLcd p | closeLcd p | denyLcd p | denyWelcome p =>
    cases p <;> exact trivial
  all_goals exact trivial

theorem inBounds_mainStep {m : Main} {g : Globals} (e : Env) (h : InBounds m g) :
    InBounds (mainStep m g e).1 (mainStep m g e).2 := by
  have hspots : 0 ≤ (mainStep m g e).2.avaliableSpots ∧
      (mainStep m g e).2.avaliableSpots ≤ numberOfParkSpots := by
    by_cases hpc : m.pc = .openStore
    · have hr := h.reserved
      rw [Reserved, hpc] at hr
      rw [mainStep_avaliableSpots, hpc]
      show 0 ≤ m.loaded - 1 ∧ m.loaded - 1 ≤ numberOfParkSpots
      change m.count = 0 ∧ 0 < m.loaded ∧ m.loaded ≤ numberOfParkSpots at hr
      omega
    · rw [mainStep_avaliableSpots_of_ne g e h.started.2 hpc]
      exact ⟨h.nonneg, h.le⟩
  exact ⟨mainStep_keeps flow_started g e h.started, hspots.1, hspots.2, reserved_mainStep e h⟩

theorem inBounds_handle {m : Main} {g : Globals} (h : Handler) (hb : InBounds m g) :
    InBounds m (handle g h) := by
  obtain pin | s := h
  · rw [handle_fish]
    split_ifs with hc
    · refine hb.mono ?_ ?_
      · exact (Int.lt_succ _).le
      · exact Int.add_one_le_of_lt hc.2.2
    · exact hb
  · refine hb.mono ?_ ?_ <;> rw [handle_register_spots]
    exact hb.le

theorem inBounds_run (s : LotEntry) (as : List Label) :
    InBounds (run next s.state as).1 (run next s.state as).2 := by
  refine Preempted.run_keeps (P := lot) (fun m g e => inBounds_mainStep e)
    (fun m g h => inBounds_handle h) ?_ as
  refine ⟨?_, ?_, ?_, ?_⟩
  · rw [s.state_pc]
    decide
  · rw [s.state_spots]
    decide
  · rw [s.state_spots]
  · rw [Reserved, s.state_pc]
    exact trivial

/-- **The number of free spots stays within the capacity.** -/
theorem capacity_bounds (s : LotEntry) (as : List Label) :
    0 ≤ (run next s.state as).2.avaliableSpots ∧
      (run next s.state as).2.avaliableSpots ≤ numberOfParkSpots :=
  ⟨(inBounds_run s as).nonneg, (inBounds_run s as).le⟩

/-! ## Entries and exits -/

/-- The step executes the increment of `fish_ISR`. -/
def Counted (t : Main × Globals) : Label → Prop
  | .inr (.fish pin) => t.2.fishRise ∧ Counts pin t.2
  | _ => False

/-- The step executes the store of `avaliableSpots--`. -/
def Charged (t : Main × Globals) : Label → Prop
  | .inl _ => t.1.pc = .openStore
  | _ => False

/-- The step executes the increment between the load and the store of `avaliableSpots--`. -/
def Lost (t : Main × Globals) (a : Label) : Prop := t.1.pc = .openStore ∧ Counted t a

instance (t : Main × Globals) (a : Label) : Decidable (Counted t a) :=
  match a with
  | .inr (.fish pin) => inferInstanceAs (Decidable (t.2.fishRise ∧ Counts pin t.2))
  | .inr (.register _) => instDecidableFalse
  | .inl _ => instDecidableFalse

instance (t : Main × Globals) (a : Label) : Decidable (Charged t a) :=
  match a with
  | .inl _ => inferInstanceAs (Decidable (t.1.pc = .openStore))
  | .inr _ => instDecidableFalse

instance (t : Main × Globals) (a : Label) : Decidable (Lost t a) :=
  inferInstanceAs (Decidable (_ ∧ _))

/-- The number that counts: the loaded one, between the load and the store. -/
def tally (t : Main × Globals) : ℤ :=
  if t.1.pc = .openStore then t.1.loaded else t.2.avaliableSpots

theorem flow_openStore : ∀ p : PC, .openStore ∈ p.flow → p = .openLoad := by decide +kernel

theorem tally_mainStep {m : Main} (g : Globals) (e : Env) (hm : m.pc.Started) :
    tally (mainStep m g e) + (if m.pc = .openStore then 1 else 0) = tally (m, g) := by
  unfold tally
  by_cases h1 : m.pc = .openLoad
  · rw [mainStep_pc, mainStep_loaded, h1]
    exact add_zero _
  · have h2 : (mainStep m g e).1.pc ≠ .openStore :=
      fun h => h1 (flow_openStore _ (h ▸ mainStep_flow m g e))
    rw [if_neg h2]
    split_ifs with h3
    · rw [mainStep_avaliableSpots, h3]
      exact Int.sub_add_cancel _ _
    · rw [mainStep_avaliableSpots_of_ne g e hm.2 h3, add_zero]

theorem tally_next (t : Main × Globals) (a : Label) (ht : t.1.pc.Started) :
    tally (next t a) + ((if Charged t a then 1 else 0) + if Lost t a then 1 else 0) =
      tally t + if Counted t a then 1 else 0 := by
  obtain ⟨m, g⟩ := t
  obtain e | pin | s := a
  · have hl : ¬ Lost (m, g) (.inl e) := And.right
    have hn : ¬ Counted (m, g) (.inl e) := id
    rw [if_neg hl, if_neg hn, add_zero, add_zero, next_main]
    exact tally_mainStep g e ht
  · have hc : ¬ Charged (m, g) (.inr (.fish pin)) := id
    rw [if_neg hc, zero_add]
    show tally (m, handle g (.fish pin)) + _ = _
    rw [handle_fish]
    unfold tally Lost Counted
    by_cases h1 : m.pc = .openStore <;> by_cases h2 : g.fishRise ∧ Counts pin g <;> simp [h1, h2]
  · have hc : ¬ Charged (m, g) (.inr (.register s)) := id
    have hl : ¬ Lost (m, g) (.inr (.register s)) := And.right
    have hn : ¬ Counted (m, g) (.inr (.register s)) := id
    rw [if_neg hc, if_neg hl, if_neg hn, add_zero, add_zero, add_zero]
    show tally (m, handle g (.register s)) = tally (m, g)
    unfold tally
    rw [handle_register_spots]

/-- **The books.** Entries, exits and lost exits of a run. -/
theorem tally_run (s : LotEntry) (as : List Label) :
    tally (run next s.state as) + (count next Charged s.state as + count next Lost s.state as) =
      numberOfParkSpots + count next Counted s.state as := by
  have h0 : s.state.1.pc.Started := by
    rw [s.state_pc]
    decide
  have hstep : ∀ (t : Main × Globals) a, t.1.pc.Started → (next t a).1.pc.Started := by
    rintro ⟨m, g⟩ (e | h) ht
    · rw [next_main]
      exact mainStep_keeps flow_started g e ht
    · exact ht
  have hb := run_balance hstep tally _ _ tally_next h0 as
  have hs : tally s.state = numberOfParkSpots := by
    rw [tally, s.state_pc, if_neg (by decide), s.state_spots]
  rw [List.sum_map_add, sum_indicator, sum_indicator, sum_indicator, hs] at hb
  exact hb

def Balanced (s : LotEntry) (as : List Label) : Prop :=
  (run next s.state as).2.avaliableSpots = numberOfParkSpots -
    count next Charged s.state as + count next Counted s.state as

instance (s : LotEntry) (as : List Label) : Decidable (Balanced s as) :=
  inferInstanceAs (Decidable (_ = _))

/-- **Entries and exits add up exactly when no exit was lost.** After every run from line 58 on that
does not end between the load and the store of `avaliableSpots--`, the books are balanced if and
only if no increment was executed between such a load and its store. -/
theorem accounting_iff (s : LotEntry) (as : List Label)
    (has : (run next s.state as).1.pc ≠ .openStore) :
    Balanced s as ↔ Legal next (fun t a => ¬ Lost t a) s.state as := by
  have hb := tally_run s as
  rw [tally, if_neg has] at hb
  rw [← count_eq_zero, Balanced]
  omega

/-- A car enters, and a second one is in the gateway when main has loaded the number of free
spots. -/
def secondEntry : List Label := stay 15 0 0 ++ approach ++ enter ++ clear ++ approach ++ enter

theorem accounting_two_cars :
    Balanced (LotEntry.boot { distance := 100 }) (secondEntry ++ clear ++ [.inr (.fish true)]) :=
  (accounting_iff _ _ (by decide +kernel)).mpr (by decide +kernel)

/-- **An exit counted between the load and the store is lost.** -/
theorem accounting_loses_exit : ¬ ∀ (s : LotEntry) (as : List Label),
    (run next s.state as).1.pc ≠ .openStore → Balanced s as := by
  intro h
  have h' := h (LotEntry.boot { distance := 100 }) (secondEntry ++ .inr (.fish true) :: stay 1 0 0)
    (by decide +kernel)
  revert h'
  decide +kernel

end ParkingLot
