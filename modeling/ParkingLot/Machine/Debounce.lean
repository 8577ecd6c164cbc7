import Mathlib.Algebra.Group.Nat.Even
import Mathlib.Algebra.Order.Monoid.Unbundled.Basic
import Mathlib.Algebra.Order.Group.Defs
import Mathlib.Data.List.Chain
import Mathlib.Tactic.Abel

/-!
# Debouncing by one late sample

A pin toggles at given instants. A rising edge starts a handler that is busy for `d` and samples the
pin then; edges that occur while it is busy are discarded.

* `handlerRuns`: the runs of the handler, each with its start and its sample.
* `Burst`, `Waveform`: bursts of bounces shorter than `d`, alternately up and down, at least `2 d`
  apart.
* **`handlerRuns_eq`**: the handler runs once for each burst up, with a high sample, and at most
  once for each burst down, with a low one.
-/

namespace Machine

variable {α : Type*}

/-- The level of a pin that has toggled at `ts`. -/
def toggled (level : Bool) (ts : List α) : Bool := ts.foldl (fun l _ => !l) level

theorem toggled_eq (level : Bool) (ts : List α) :
    toggled level ts = (level ^^ !decide (Even ts.length)) := by
  induction ts generalizing level with
  | nil => simp [toggled]
  | cons t ts ih =>
    rw [toggled, List.foldl_cons, ← toggled, ih, List.length_cons]
    by_cases h : Even ts.length <;> cases level <;> simp [h, Nat.even_add_one]

variable [LinearOrder α]

/-- The level at `t`. -/
def levelAt (level : Bool) (ts : List α) (t : α) : Bool := toggled level (ts.filter (· ≤ t))

theorem levelAt_append {level : Bool} {ts later : List α} {u : α} (h : ∀ t ∈ ts, t ≤ u)
    (hlater : ∀ t ∈ later, u < t) : levelAt level (ts ++ later) u = toggled level ts := by
  have h1 : ts.filter (· ≤ u) = ts := List.filter_eq_self.mpr fun t ht => decide_eq_true (h t ht)
  have h2 : later.filter (· ≤ u) = [] :=
    List.filter_eq_nil_iff.mpr fun t ht => by simpa using hlater t ht
  rw [levelAt, List.filter_append, h1, h2, List.append_nil]

variable [AddCommGroup α]

/-- The runs of the handler on a pin that is at `level` and toggles at the given instants. It is
busy until `busy`, if at all. -/
def handlerRuns (d : α) : Option α → Bool → List α → List (α × Bool)
  | _, _, [] => []
  | busy, level, t :: ts =>
    if level = false ∧ busy.all (· ≤ t) then
      (t, levelAt true ts (t + d)) :: handlerRuns d (some (t + d)) true ts
    else handlerRuns d busy (!level) ts

/-- Edges that occur while the handler is busy are discarded. -/
theorem handlerRuns_busy {d u : α} {level : Bool} {ts : List α} (h : ∀ t ∈ ts, t < u)
    (later : List α) :
    handlerRuns d (some u) level (ts ++ later) = handlerRuns d (some u) (toggled level ts) later := by
  induction ts generalizing level with
  | nil => rfl
  | cons t ts ih =>
    have ht : ¬ u ≤ t := not_le.mpr (h t List.mem_cons_self)
    rw [List.cons_append, handlerRuns, if_neg (by simp [ht])]
    exact ih fun t' ht' => h t' (List.mem_cons_of_mem t ht')

/-! ## Bursts -/

/-- An odd number of toggles within less than `d`. -/
structure Burst (d : α) where
  first : α
  rest : List α
  sorted : (first :: rest).Pairwise (· ≤ ·)
  short : ∀ t ∈ rest, t < first + d
  even : Even rest.length

namespace Burst

variable {d : α}

def toggles (b : Burst d) : List α := b.first :: b.rest

/-- The pin is steady for at least `2 d` in between. -/
def Before (b c : Burst d) : Prop := ∀ t ∈ b.toggles, t + (d + d) ≤ c.first

instance (b c : Burst d) : Decidable (b.Before c) := inferInstanceAs (Decidable (∀ t ∈ _, _))

theorem first_le (b : Burst d) : ∀ t ∈ b.toggles, b.first ≤ t := by
  intro t ht
  rcases List.mem_cons.mp ht with rfl | ht
  · exact le_rfl
  · exact (List.pairwise_cons.mp b.sorted).1 t ht

/-- **A burst up starts the handler at its first edge**, and the sample is high. -/
theorem handlerRuns_up (b : Burst d) {busy : Option α} (hbusy : ∀ u ∈ busy, u ≤ b.first)
    {later : List α} (hlater : ∀ t ∈ later, b.first + d < t) :
    handlerRuns d busy false (b.toggles ++ later) =
      (b.first, true) :: handlerRuns d (some (b.first + d)) true later := by
  have htoggled : toggled true b.rest = true := by simp [toggled_eq, b.even]
  have hall : busy.all (· ≤ b.first) = true := by
    rw [Option.all_eq_true]
    exact fun u hu => decide_eq_true (hbusy u hu)
  rw [toggles, List.cons_append, handlerRuns, if_pos ⟨rfl, hall⟩,
    levelAt_append (fun t ht => (b.short t ht).le) hlater, htoggled, handlerRuns_busy b.short, htoggled]

variable [IsOrderedAddMonoid α]

theorem Before.trans (hd : 0 ≤ d) {b c e : Burst d} (h : b.Before c) (h' : c.Before e) :
    b.Before e := fun t ht =>
  (h t ht).trans ((le_add_of_nonneg_right (add_nonneg hd hd)).trans (h' _ List.mem_cons_self))

/-- Behind a later burst. -/
theorem Before.lt (hd : 0 < d) {b c : Burst d} (h : b.Before c) {t u : α} (ht : t ∈ b.toggles)
    (hu : u ∈ c.toggles) : t + d < u := by
  have h1 : t + d < t + (d + d) := by
    rw [← add_assoc]
    exact lt_add_of_pos_right _ hd
  exact h1.trans_le ((h t ht).trans (c.first_le u hu))

/-- The instant until which the handler is busy after a burst down. -/
def busyAfter (busy : Option α) (b : Burst d) : Option α :=
  match b.rest with
  | [] => busy
  | r :: _ => some (r + d)

/-- **A burst down starts the handler at its first rising edge**, if it has one, and the sample is
low. -/
theorem handlerRuns_down (b : Burst d) {busy : Option α}
    (hbusy : ∀ u ∈ busy, u ≤ b.first) {later : List α}
    (hlater : ∀ t ∈ b.toggles, ∀ u ∈ later, t + d < u) :
    handlerRuns d busy true (b.toggles ++ later) =
      (b.rest.head?.toList.map fun r => (r, false)) ++
        handlerRuns d (b.busyAfter busy) false later := by
  obtain ⟨first, rest, sorted, short, even⟩ := b
  rw [toggles, List.cons_append, handlerRuns, if_neg (by simp)]
  cases rest with
  | nil => rfl
  | cons r rest =>
    have hfirst : first ≤ r := (List.pairwise_cons.mp sorted).1 r List.mem_cons_self
    have hshort : ∀ t ∈ rest, t < r + d := fun t ht =>
      (short t (List.mem_cons_of_mem r ht)).trans_le (add_le_add_left hfirst d)
    have htoggled : toggled true rest = false := by
      have hodd : ¬ Even rest.length := by simpa [Nat.even_add_one] using even
      simp [toggled_eq, hodd]
    have hall : busy.all (· ≤ r) = true := by
      rw [Option.all_eq_true]
      exact fun u hu => decide_eq_true ((hbusy u hu).trans hfirst)
    have hr : r ∈ toggles (⟨first, r :: rest, sorted, short, even⟩ : Burst d) :=
      List.mem_cons_of_mem _ List.mem_cons_self
    rw [List.cons_append, handlerRuns, if_pos ⟨rfl, hall⟩,
      levelAt_append (fun t ht => (hshort t ht).le) (hlater r hr), htoggled, handlerRuns_busy hshort,
      htoggled]
    rfl

theorem busyAfter_le {b c : Burst d} (hd : 0 < d) (h : b.Before c) {busy : Option α}
    (hbusy : ∀ u ∈ busy, u ≤ b.first) : ∀ u ∈ b.busyAfter busy, u ≤ c.first := by
  intro u hu
  unfold busyAfter at hu
  cases hrest : b.rest with
  | nil =>
    rw [hrest] at hu
    have h1 := h.lt hd List.mem_cons_self (u := c.first) List.mem_cons_self
    exact (hbusy u hu).trans ((le_add_of_nonneg_right hd.le).trans h1.le)
  | cons r rest =>
    rw [hrest] at hu
    have hr : r ∈ b.toggles := by simp [toggles, hrest]
    rw [← Option.mem_some_iff.mp hu]
    exact (h.lt hd hr List.mem_cons_self).le

end Burst

/-! ## Waveforms -/

/-- The bursts of some passages. -/
def bursts {d : α} (ps : List (Burst d × Burst d)) : List (Burst d) := ps.flatMap fun p => [p.1, p.2]

@[simp] theorem bursts_cons {d : α} (p : Burst d × Burst d) (ps : List (Burst d × Burst d)) :
    bursts (p :: ps) = p.1 :: p.2 :: bursts ps := rfl

/-- A pin that is low at first: passages of a burst up and a burst down each, with steady times in
between. -/
structure Waveform (d : α) where
  passages : List (Burst d × Burst d)
  steady : (bursts passages).IsChain Burst.Before

def Waveform.toggles {d : α} (w : Waveform d) : List α := (bursts w.passages).flatMap Burst.toggles

/-- What the handler does on a passage. -/
def passageRuns {d : α} (p : Burst d × Burst d) : List (α × Bool) :=
  (p.1.first, true) :: p.2.rest.head?.toList.map fun r => (r, false)

/-- One high sample for each passage. -/
theorem countP_passageRuns {d : α} (ps : List (Burst d × Burst d)) :
    (ps.flatMap passageRuns).countP Prod.snd = ps.length := by
  induction ps with
  | nil => rfl
  | cons p ps ih =>
    have hlow : (p.2.rest.head?.toList.map fun r => (r, false)).countP Prod.snd = 0 := by
      simp [List.countP_eq_zero]
    rw [List.flatMap_cons, List.countP_append, ih, passageRuns, List.countP_cons, hlow, List.length_cons]
    simp [Nat.add_comm]

variable [IsOrderedAddMonoid α] {d : α}

/-- Behind the later bursts. -/
theorem lt_of_mem_toggles (hd : 0 < d) {b : Burst d} {cs : List (Burst d)}
    (h : ∀ c ∈ cs, b.Before c) {t u : α} (ht : t ∈ b.toggles) (hu : u ∈ cs.flatMap Burst.toggles) :
    t + d < u := by
  obtain ⟨c, hc, huc⟩ := List.mem_flatMap.mp hu
  exact (h c hc).lt hd ht huc

theorem handlerRuns_bursts (hd : 0 < d) {ps : List (Burst d × Burst d)}
    (hps : (bursts ps).Pairwise Burst.Before) {busy : Option α}
    (hbusy : ∀ u ∈ busy, ∀ p ∈ ps, u ≤ p.1.first) :
    handlerRuns d busy false ((bursts ps).flatMap Burst.toggles) = ps.flatMap passageRuns := by
  induction ps generalizing busy with
  | nil => rfl
  | cons p ps ih =>
    rw [bursts_cons] at hps ⊢
    obtain ⟨hup, hps⟩ := List.pairwise_cons.mp hps
    obtain ⟨hdown, hps⟩ := List.pairwise_cons.mp hps
    have hbusyUp : ∀ u ∈ busy, u ≤ p.1.first := fun u hu => hbusy u hu p List.mem_cons_self
    have hbusyDown : ∀ u ∈ some (p.1.first + d), u ≤ p.2.first := by
      intro u hu
      rw [← Option.mem_some_iff.mp hu]
      exact ((hup _ List.mem_cons_self).lt hd List.mem_cons_self List.mem_cons_self).le
    have hafter : ∀ u ∈ p.2.busyAfter (some (p.1.first + d)), ∀ q ∈ ps, u ≤ q.1.first := by
      intro u hu q hq
      have hmem : q.1 ∈ bursts ps := List.mem_flatMap.mpr ⟨q, hq, List.mem_cons_self⟩
      exact Burst.busyAfter_le hd (hdown _ hmem) hbusyDown u hu
    rw [List.flatMap_cons,
      p.1.handlerRuns_up hbusyUp fun t ht => lt_of_mem_toggles hd hup List.mem_cons_self ht,
      List.flatMap_cons, List.flatMap_cons,
      p.2.handlerRuns_down hbusyDown fun t ht u hu => lt_of_mem_toggles hd hdown ht hu,
      ih hps hafter]
    rfl

/-- **The handler runs once with a high sample for each passage**, at its first edge, and at most
once more, with a low sample. -/
theorem handlerRuns_eq (hd : 0 < d) (w : Waveform d) :
    handlerRuns d none false w.toggles = w.passages.flatMap passageRuns := by
  have htrans : IsTrans (Burst d) Burst.Before := ⟨fun _ _ _ => Burst.Before.trans hd.le⟩
  exact handlerRuns_bursts hd (List.isChain_iff_pairwise.mp w.steady) fun u hu => absurd hu (by simp)

end Machine
