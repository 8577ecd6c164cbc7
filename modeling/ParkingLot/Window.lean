import ParkingLot.Enrolment
import Mathlib.Data.Rat.Floor
import Mathlib.Tactic.Linarith

/-!
# The window for the master card

After a denied card the first phase of a session waits for `min(DEFAULT_LCD_WAIT, (int)(t - 1))`
seconds, where `t` is the time elapsed in the phase.

* `toInt_eq_floor`, `toInt_nonneg_iff`: the truncating conversion.
* `delays`: the times at which a first phase takes such a delay, with the delays it logs.
* `denials`: the times at which its polls show a card that is denied.
* **`window_kept_iff`**: the delays stay in the window of `REGISTER_PERIOD` seconds exactly if the
  cards are denied in time.
-/

namespace ParkingLot

open Machine

/-! ## Truncation -/

theorem toInt_eq_floor {q : ℚ} (h : 0 ≤ q) : toInt q = ⌊q⌋ := by
  rw [toInt, Rat.floor_def', Int.tdiv_eq_ediv_of_nonneg (Rat.num_nonneg.mpr h)]

theorem toInt_neg (q : ℚ) : toInt (-q) = -toInt q := by
  rw [toInt, toInt, Rat.neg_num, Rat.neg_den, Int.neg_tdiv]

/-- Truncation is towards zero. -/
theorem toInt_nonneg_iff {q : ℚ} : 0 ≤ toInt q ↔ -1 < q := by
  rcases le_or_gt 0 q with h | h
  · rw [toInt_eq_floor h]
    exact iff_of_true (Int.floor_nonneg.mpr h) (by linarith)
  · have hq : toInt q = -⌊-q⌋ := by
      rw [← toInt_eq_floor (by linarith), toInt_neg, neg_neg]
    rw [hq, neg_nonneg, ← Int.lt_add_one_iff, Int.floor_lt]
    push_cast
    constructor <;> intro h' <;> linarith

theorem le_toInt {q : ℚ} {n : ℤ} (hn : 0 ≤ n) (h : (n : ℚ) ≤ q) : n ≤ toInt q := by
  have hq : 0 ≤ q := le_trans (by exact_mod_cast hn) h
  rw [toInt_eq_floor hq]
  exact Int.le_floor.mpr h

/-! ## The delay -/

/-- The delay after a card that is denied when `t` seconds of the phase have elapsed. -/
def denialDelay (t : ℚ) : ℤ := min defaultLcdWait (toInt (t - 1))

/-- **When the delay stays in the window.** -/
theorem denialDelay_kept_iff {t : ℚ} :
    0 ≤ denialDelay t ∧ t + denialDelay t ≤ registerPeriod ↔
      0 < t ∧ t + defaultLcdWait ≤ registerPeriod := by
  have hnonneg : 0 ≤ denialDelay t ↔ 0 < t := by
    rw [denialDelay, le_min_iff, toInt_nonneg_iff]
    constructor
    · rintro ⟨-, h⟩
      linarith
    · exact fun h => ⟨by decide, by linarith⟩
  rw [hnonneg]
  refine and_congr_right fun _ => ⟨fun h => ?_, fun h => ?_⟩
  · by_contra hlt
    -- so late that the delay is the full one
    have hd : denialDelay t = defaultLcdWait := by
      refine min_eq_left (le_toInt (by decide) ?_)
      simp only [registerPeriod, defaultLcdWait] at hlt ⊢
      push_cast at hlt ⊢
      linarith
    rw [hd] at h
    exact hlt h
  · have hle : ((denialDelay t : ℤ) : ℚ) ≤ defaultLcdWait := by
      exact_mod_cast min_le_left _ _
    linarith

/-! ## The delays of a phase -/

/-- The time and the delay of a turn that denies a card: it logs a wait behind the ID. -/
def delayTaken (r : Registration) (p : Poll) : Option (ℚ × ℚ) :=
  match (r.masterTurn p).acts.drop r.acts.length with
  | [.request _, .select _, .cardID _, .wait d] => some (p.atDeny, d)
  | _ => none

/-- The delays of a first phase, each with the time elapsed when it is taken. -/
def delays : Registration → List Poll → List (ℚ × ℚ)
  | _, [] => []
  | r, p :: ps =>
    if p.atTest < registerPeriod ∧ r.currentCardID ≠ masterID then
      (delayTaken r p).toList ++ delays (r.masterTurn p) ps
    else []

theorem delayTaken_eq (r : Registration) (p : Poll) :
    delayTaken r p =
      match (p.scan r.g.uid).1 with
      | .card id => if id = masterID then none else some (p.atDeny, (denialDelay p.atDeny : ℚ))
      | _ => none := by
  obtain ⟨-, -, -, hacts⟩ := Registration.masterTurn_eq r p
  rw [delayTaken, hacts, List.drop_left]
  cases (p.scan r.g.uid).1 with
  | noCard | failed => rfl
  | card id =>
    by_cases hid : id = masterID
    · simp only [hid, if_true, ne_eq, not_true_eq_false, if_false]
      rfl
    · simp only [hid, if_false, ne_eq, not_false_eq_true, if_true]
      rfl

/-- The times at which a first phase denies a card, by what its polls show. -/
def denials : Uid → List Poll → List ℚ
  | _, [] => []
  | u, p :: ps =>
    if p.atTest < registerPeriod then
      match (p.scan u).1 with
      | .card id => if id = masterID then [] else p.atDeny :: denials (p.scan u).2 ps
      | _ => denials (p.scan u).2 ps
    else []

theorem delays_of_master {r : Registration} (h : r.currentCardID = masterID) (ps : List Poll) :
    delays r ps = [] := by
  cases ps with
  | nil => rfl
  | cons p ps => rw [delays, if_neg fun hc => hc.2 h]

/-- **Each denial has its delay**, and there are no other delays. -/
theorem delays_eq {r : Registration} (hr : r.currentCardID ≠ masterID) (ps : List Poll) :
    delays r ps = (denials r.g.uid ps).map fun t => (t, (denialDelay t : ℚ)) := by
  induction ps generalizing r with
  | nil => rfl
  | cons p ps ih =>
    rw [delays, denials]
    by_cases hp : p.atTest < registerPeriod
    · obtain ⟨huid, -, hheld, -⟩ := Registration.masterTurn_eq r p
      rw [if_pos ⟨hp, hr⟩, if_pos hp, delayTaken_eq]
      cases ho : (p.scan r.g.uid).1 with
      | noCard | failed =>
        rw [ho] at hheld
        rw [ih (hheld.trans_ne hr), huid]
        rfl
      | card id =>
        rw [ho] at hheld
        by_cases hid : id = masterID
        · simp only [hid, if_true]
          exact delays_of_master (hheld.trans hid) ps
        · simp only [hid, if_false]
          rw [ih (hheld.trans_ne hid), huid]
          rfl
    · rw [if_neg fun h => hp h.1, if_neg hp]
      rfl

/-! ## The window -/

/-- The delays are never negative, and those taken in the window end in it. -/
def WindowKept (r : Registration) (ps : List Poll) : Prop :=
  ∀ x ∈ delays r ps, x.1 < registerPeriod → 0 ≤ x.2 ∧ x.1 + x.2 ≤ registerPeriod

instance (r : Registration) (ps : List Poll) : Decidable (WindowKept r ps) :=
  inferInstanceAs (Decidable (∀ x ∈ _, _ → _))

/-- **The window is kept exactly if cards are denied in time**: whatever the polls of the first
phase are, its delays stay in the window if and only if each card that is denied in the window is
denied after the phase has begun and at least `DEFAULT_LCD_WAIT` before the window ends. -/
theorem window_kept_iff (g : Globals) (ps : List Poll) :
    WindowKept ((Registration.begin g).onLcd lcdRegisterMaster.write) ps ↔
      ∀ t ∈ denials g.uid ps, t < registerPeriod → 0 < t ∧ t + defaultLcdWait ≤ registerPeriod := by
  rw [WindowKept, delays_eq (begin_ne_master g), List.forall_mem_map, Registration.uid_onLcd]
  refine forall₂_congr fun t _ => imp_congr_right fun _ => ?_
  rw [← denialDelay_kept_iff, Int.cast_nonneg_iff]

/-- **The denial of a late card carries the session past the window.** A strange card is denied
after eight seconds. -/
theorem window_not_kept : ¬ ∀ (g : Globals) (ps : List Poll),
    WindowKept ((Registration.begin g).onLcd lcdRegisterMaster.write) ps := by
  intro h
  have h' := h powerOn.2 [.shows 8 0x12 0x34 0x56 0x78]
  revert h'
  decide +kernel

end ParkingLot
