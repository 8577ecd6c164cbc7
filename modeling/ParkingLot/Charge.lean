import ParkingLot.System

/-!
# One admission, one spot

`openProcedure` reads the distance once before its loop and once in every turn; it charges the car
at the first near reading of a turn.

* `readings`: the distances that a run of `openProcedure` reads.
* `Charging`: what each of its points has charged for the readings so far.
* **`charged_once_iff`**: one spot is charged for a car if and only if it was not seen by the
  reading before the loop alone.
-/

namespace ParkingLot

open Machine

/-- What a step adds to the readings of `openProcedure`. -/
def readingsStep (rs : List ℤ) (t : Main × Globals) : Label → List ℤ
  | .inl e => if t.1.pc.Reads then rs ++ [e.distance] else rs
  | .inr _ => rs

/-- The distances that `openProcedure` reads in a run. -/
def readings (t : Main × Globals) (as : List Label) : List ℤ :=
  (run (ghost next readingsStep) ([], t) as).1

/-- A reading below the baseline `b`, the first one apart. -/
def SeenAgain (b : ℤ) (rs : List ℤ) : Prop := ∃ d ∈ rs.tail, d < b

instance (b : ℤ) (rs : List ℤ) : Decidable (SeenAgain b rs) :=
  inferInstanceAs (Decidable (∃ d ∈ _, _))

theorem seenAgain_concat {b d : ℤ} {rs : List ℤ} (h : rs ≠ []) :
    SeenAgain b (rs ++ [d]) ↔ SeenAgain b rs ∨ d < b := by
  unfold SeenAgain
  rw [List.tail_append_of_ne_nil h]
  simp [or_and_right, exists_or]

/-- From `n` free spots one has been charged if the car was seen again. -/
def Settled (n b : ℤ) (rs : List ℤ) (avaliableSpots : ℤ) : Prop :=
  avaliableSpots = if SeenAgain b rs then n - 1 else n

/-- What `openProcedure` has done at each of its points, called with `n` free spots and the baseline
`b`: `rs` are its readings. -/
def Charging (n b : ℤ) (rs : List ℤ) (m : Main) (g : Globals) : Prop :=
  match m.pc with
  | .openGuard => rs = [] ∧ g.avaliableSpots = n ∧ 0 < n
  | .openCountInit => rs = [] ∧ g.avaliableSpots = n
  | .openReset | .openStart | .openLed _ | .openGate | .openLcd _ | .openDist =>
    rs = [] ∧ g.avaliableSpots = n ∧ m.count = 0
  | .openTimer | .openNear | .openRead =>
    rs ≠ [] ∧ 0 ≤ m.count ∧ (0 < m.count ↔ SeenAgain b rs) ∧ Settled n b rs g.avaliableSpots
  | .openIf =>
    ∃ ds, rs = ds ++ [m.distanceCm] ∧ ds ≠ [] ∧ 0 ≤ m.count ∧ (0 < m.count ↔ SeenAgain b ds) ∧
      Settled n b ds g.avaliableSpots
  | .openBlue _ | .openLoad => rs ≠ [] ∧ SeenAgain b rs ∧ m.count = 0 ∧ g.avaliableSpots = n
  | .openStore => rs ≠ [] ∧ SeenAgain b rs ∧ m.count = 0 ∧ m.loaded = n
  | .openCount => rs ≠ [] ∧ SeenAgain b rs ∧ m.count = 0 ∧ g.avaliableSpots = n - 1
  | .openStop | .afterOpen => Settled n b rs g.avaliableSpots
  | _ => False

/-- A reading is added at the point behind it. -/
theorem charging_reading {n b : ℤ} {rs : List ℤ} {m : Main} {g : Globals} (e : Env)
    (h : Charging n b rs m g) (hr : m.pc.Reads) :
    Charging n b (rs ++ [e.distance]) (mainStep m g e).1 (mainStep m g e).2 := by
  unfold Charging at h
  unfold mainStep
  rcases hr with hp | hp <;> rw [hp] at h ⊢
  · obtain ⟨rfl, hn, hc⟩ := h
    change m.count = 0 at hc
    have hno : ¬ SeenAgain b ([] ++ [e.distance]) := by simp [SeenAgain]
    refine ⟨by simp, hc.ge, iff_of_false ?_ hno, ?_⟩
    · exact hc.le.not_gt
    · rw [Settled, if_neg hno]
      exact hn
  · exact ⟨rs, rfl, h⟩

/-- Elsewhere the readings stay. -/
theorem charging_quiet {n b : ℤ} {rs : List ℤ} {m : Main} {g : Globals} (e : Env)
    (h : Charging n b rs m g) (hb : m.gateDistanceCm = b) (hr : ¬ m.pc.Reads)
    (hpc : m.pc ≠ .afterOpen) : Charging n b rs (mainStep m g e).1 (mainStep m g e).2 := by
  unfold Charging at h
  unfold mainStep
  cases hp : m.pc <;> rw [hp] at h
  case openGuard =>
    obtain ⟨hrs, hn, hpos⟩ := h
    simp only [Main.goto, hn, hpos, if_true]
    exact ⟨hrs, hn⟩
  case openCountInit => exact ⟨h.1, h.2, rfl⟩
  case openReset | openStart | openGate => exact h
  case openLed p => cases p <;> exact h
  case openLcd p =>
    simp only [Main.write]
    cases p <;> exact h
  case openDist | openRead => exact absurd (by rw [hp]; decide) hr
  case openTimer => simp only [Main.goto]; split_ifs <;> exact h
  case openNear =>
    simp only [Main.goto]
    split_ifs
    · exact h
    · exact h.2.2.2
  case openIf =>
    obtain ⟨ds, rfl, hds, h0, hcount, hs⟩ := h
    have hne : ds ++ [m.distanceCm] ≠ [] := by simp
    simp only [Main.goto, hb]
    by_cases hc : m.count = 0
    · have hno : ¬ SeenAgain b ds := fun hn => (hcount.mpr hn).ne' hc
      rw [Settled, if_neg hno] at hs
      by_cases hd : m.distanceCm < b
      · -- the first near reading of a turn
        rw [if_pos ⟨hc, hd⟩]
        exact ⟨hne, (seenAgain_concat hds).mpr (Or.inr hd), hc, hs⟩
      · have hno' : ¬ SeenAgain b (ds ++ [m.distanceCm]) := fun hn =>
          ((seenAgain_concat hds).mp hn).elim hno hd
        rw [if_neg fun h => hd h.2]
        refine ⟨hne, h0, iff_of_false (fun hp => hp.ne' hc) hno', ?_⟩
        rw [Settled, if_neg hno']
        exact hs
    · have hseen : SeenAgain b ds := hcount.mp (lt_of_le_of_ne h0 (Ne.symm hc))
      have hseen' : SeenAgain b (ds ++ [m.distanceCm]) := (seenAgain_concat hds).mpr (Or.inl hseen)
      rw [if_neg fun h => hc h.1]
      refine ⟨hne, h0, iff_of_true (hcount.mpr hseen) hseen', ?_⟩
      rw [Settled, if_pos hseen']
      rwa [Settled, if_pos hseen] at hs
  case openBlue p => cases p <;> exact h
  case openLoad => exact ⟨h.1, h.2.1, h.2.2.1, h.2.2.2⟩
  case openStore => exact ⟨h.1, h.2.1, h.2.2.1, congrArg (· - 1) h.2.2.2⟩
  case openCount =>
    obtain ⟨hne, hseen, hc, hs⟩ := h
    change m.count = 0 at hc
    refine ⟨hne, ?_, iff_of_true ?_ hseen, ?_⟩
    · show 0 ≤ m.count + 1
      omega
    · show 0 < m.count + 1
      omega
    · rw [Settled, if_pos hseen]
      exact hs
  case openStop => exact h
  case afterOpen => exact absurd hp hpc
  all_goals exact False.elim h

theorem charging_next (n b : ℤ) (p : List ℤ × Main × Globals) (a : Label)
    (ha : a.isLeft = true ∧ p.2.1.pc ≠ .afterOpen)
    (h : Charging n b p.1 p.2.1 p.2.2 ∧ p.2.1.gateDistanceCm = b) :
    let q := ghost next readingsStep p a
    Charging n b q.1 q.2.1 q.2.2 ∧ q.2.1.gateDistanceCm = b := by
  obtain ⟨rs, m, g⟩ := p
  obtain ⟨hc, hb⟩ := h
  obtain e | x := a
  · have hinit : m.pc ≠ .initDist := by
      intro hp
      simp only [Charging, hp] at hc
    rw [ghost, next_main]
    refine ⟨?_, ?_⟩
    · simp only [readingsStep]
      split_ifs with hr
      · exact charging_reading e hc hr
      · exact charging_quiet e hc hb hr ha.2
    · rw [mainStep_gateDistanceCm, if_neg hinit]
      exact hb
  · cases ha.1

/-- **What a call of `openProcedure` charges**, when no handler interrupts it: a spot if the car was
seen by a reading of the loop. -/
theorem settled_run {t : Main × Globals} {es : List Env} (ht : t.1.pc = .openGuard)
    (hs : 0 < t.2.avaliableSpots)
    (hcall : Legal next (fun u _ => u.1.pc ≠ .afterOpen) t (es.map .inl))
    (hend : (run next t (es.map .inl)).1.pc = .afterOpen) :
    Settled t.2.avaliableSpots t.1.gateDistanceCm (readings t (es.map .inl))
      (run next t (es.map .inl)).2.avaliableSpots := by
  have h0 : Charging t.2.avaliableSpots t.1.gateDistanceCm [] t.1 t.2 := by
    rw [Charging, ht]
    exact ⟨rfl, rfl, hs⟩
  have hleft : ∀ a ∈ es.map (Sum.inl : Env → Label), a.isLeft = true := by
    intro a ha
    obtain ⟨e, -, rfl⟩ := List.mem_map.mp ha
    rfl
  have hok := Legal.and (legal_labels hleft t) hcall
  have h := (legal_induction (I := fun p : List ℤ × Main × Globals =>
    Charging t.2.avaliableSpots t.1.gateDistanceCm p.1 p.2.1 p.2.2 ∧
      p.2.1.gateDistanceCm = t.1.gateDistanceCm) (charging_next _ _) ⟨h0, rfl⟩
    ((legal_ghost readingsStep).mpr hok)).1
  rw [run_ghost_snd, Charging, hend] at h
  exact h

/-- A car is charged exactly if it was seen: the free spots go down by one if a reading of the call
is below the baseline, and stay otherwise. -/
def ChargedOnce (t : Main × Globals) (as : List Label) : Prop :=
  (run next t as).2.avaliableSpots =
    if ∃ d ∈ readings t as, d < t.1.gateDistanceCm then t.2.avaliableSpots - 1
    else t.2.avaliableSpots

instance (t : Main × Globals) (as : List Label) : Decidable (ChargedOnce t as) :=
  inferInstanceAs (Decidable (_ = _))

/-- **One admission is charged exactly once**, unless the car was seen by the reading before the
loop and by no later one: for every call of `openProcedure` with a free spot, all readings and all
timer values, when no handler interrupts the call. -/
theorem charged_once_iff (t : Main × Globals) (es : List Env) (ht : t.1.pc = .openGuard)
    (hs : 0 < t.2.avaliableSpots)
    (hcall : Legal next (fun u _ => u.1.pc ≠ .afterOpen) t (es.map .inl))
    (hend : (run next t (es.map .inl)).1.pc = .afterOpen) :
    ChargedOnce t (es.map .inl) ↔
      ((∃ d ∈ (readings t (es.map .inl)).head?, d < t.1.gateDistanceCm) →
        SeenAgain t.1.gateDistanceCm (readings t (es.map .inl))) := by
  have h := settled_run ht hs hcall hend
  rw [Settled] at h
  rw [ChargedOnce, h]
  generalize readings t (es.map .inl) = rs
  cases rs with
  | nil => simp [SeenAgain]
  | cons d ds =>
    have hhead : (∃ x ∈ (d :: ds).head?, x < t.1.gateDistanceCm) ↔ d < t.1.gateDistanceCm := by
      simp
    have hall : (∃ x ∈ d :: ds, x < t.1.gateDistanceCm) ↔
        d < t.1.gateDistanceCm ∨ SeenAgain t.1.gateDistanceCm (d :: ds) := List.exists_mem_cons_iff ..
    rw [hhead]
    simp only [hall]
    by_cases hseen : SeenAgain t.1.gateDistanceCm (d :: ds)
    · rw [if_pos hseen, if_pos (Or.inr hseen)]
      exact iff_of_true rfl fun _ => hseen
    · rw [if_neg hseen]
      by_cases hd : d < t.1.gateDistanceCm
      · rw [if_pos (Or.inl hd)]
        exact iff_of_false (by omega) fun hc => hseen (hc hd)
      · rw [if_neg (not_or.mpr ⟨hd, hseen⟩)]
        exact iff_of_true rfl fun h => absurd h hd

/-- Main is about to admit the master card. -/
def admitting : Main × Globals :=
  run next (LoopEntry.boot { distance := 100 }).state (readCard 0x15 0x89 0x0A 0x0B ++ stay 21 0 0)

/-- A car that stands in the gateway until main has charged it. -/
def slowCar : List Env :=
  List.replicate 20 { distance := 0 } ++ List.replicate 9 { timerGate := 5, distance := 100 }

theorem charged_once_slow_car : ChargedOnce admitting (slowCar.map .inl) :=
  (charged_once_iff admitting slowCar (by decide +kernel) (by decide +kernel) (by decide +kernel)
    (by decide +kernel)).mpr fun _ => by decide +kernel

/-- A car that is in the gateway only at the reading before the loop. -/
def quickCar : List Env :=
  List.replicate 13 { distance := 0 } ++ List.replicate 3 { distance := 100 } ++
    List.replicate 3 { timerGate := 5, distance := 100 }

/-- **A car is admitted for free** when only the reading before the loop sees it. -/
theorem quick_car_not_charged : ¬ ∀ (t : Main × Globals) (es : List Env), t.1.pc = .openGuard →
    0 < t.2.avaliableSpots → (es.map Env.timerGate).Pairwise (· ≤ ·) →
    Legal next (fun u _ => u.1.pc ≠ .afterOpen) t (es.map .inl) →
    (run next t (es.map .inl)).1.pc = .afterOpen → ChargedOnce t (es.map .inl) := by
  intro h
  have h' := h admitting quickCar (by decide +kernel) (by decide +kernel) (by decide +kernel)
    (by decide +kernel) (by decide +kernel)
  revert h'
  decide +kernel

end ParkingLot
