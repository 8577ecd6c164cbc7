import Mathlib.Data.List.Infix
import Mathlib.Order.Basic
import Mathlib.Algebra.BigOperators.Group.List.Basic
import Mathlib.Algebra.Order.Monoid.Defs
import Mathlib.Data.Nat.Cast.Defs

/-!
# Runs of a labelled machine

A machine is a total function `next : σ → α → σ`: all choices of the environment are in the
label. A run is a list of labels, so "every run" is a quantifier over lists.

* `run`, `steps`: the state a run ends in, and its labels with the states they were taken in.
* `Legal ok`: every step of the run satisfies `ok`.
* `run_induction`, `legal_induction`: an invariant that each step keeps holds after every run.
* `run_since`: a state in a region of states was entered, and the run stayed in the region since.
* `legal_or_last`: the last step of a run with some property, if there is one.
* `run_balance`: a quantity changes over a run by what the steps credit and debit.
* `run_budget`: a rank bounds what the steps of a run cost.
* `run_rel`: a preorder that each step climbs relates the two ends of every run.
* `ghost`: a history variable, updated at every step and never read by the machine.
* `Tracks.run`: a relation between two machines that single steps keep is kept by runs.
-/

namespace Machine

variable {σ α : Type*} (next : σ → α → σ)

/-- The state after the labels `as`. -/
def run (s : σ) (as : List α) : σ := as.foldl next s

/-- The steps of a run: each label with the state it was taken in. -/
def steps : σ → List α → List (σ × α)
  | _, [] => []
  | s, a :: as => (s, a) :: steps (next s a) as

@[simp] theorem run_nil (s : σ) : run next s [] = s := rfl

@[simp] theorem run_cons (s : σ) (a : α) (as : List α) :
    run next s (a :: as) = run next (next s a) as := rfl

@[simp] theorem run_append (s : σ) (as bs : List α) :
    run next s (as ++ bs) = run next (run next s as) bs := List.foldl_append

@[simp] theorem steps_nil (s : σ) : steps next s [] = [] := rfl

@[simp] theorem steps_cons (s : σ) (a : α) (as : List α) :
    steps next s (a :: as) = (s, a) :: steps next (next s a) as := rfl

@[simp] theorem steps_append (s : σ) (as bs : List α) :
    steps next s (as ++ bs) = steps next s as ++ steps next (run next s as) bs := by
  induction as generalizing s with
  | nil => rfl
  | cons a as ih => simp [ih]

/-! ## Invariants -/

variable {next}

/-- **An invariant of the steps is an invariant of the runs.** -/
theorem run_induction {I : σ → Prop} (hI : ∀ s a, I s → I (next s a)) {s : σ} (hs : I s)
    (as : List α) : I (run next s as) := by
  induction as generalizing s with
  | nil => exact hs
  | cons a as ih => exact ih (hI s a hs)

variable (next) in
/-- Every step of the run satisfies `ok`. -/
def Legal (ok : σ → α → Prop) (s : σ) (as : List α) : Prop := ∀ p ∈ steps next s as, ok p.1 p.2

@[simp] theorem legal_nil {ok : σ → α → Prop} {s : σ} : Legal next ok s [] := by
  simp [Legal]

@[simp] theorem legal_cons {ok : σ → α → Prop} {s : σ} {a : α} {as : List α} :
    Legal next ok s (a :: as) ↔ ok s a ∧ Legal next ok (next s a) as := by
  simp [Legal]

@[simp] theorem legal_append {ok : σ → α → Prop} {s : σ} {as bs : List α} :
    Legal next ok s (as ++ bs) ↔ Legal next ok s as ∧ Legal next ok (run next s as) bs := by
  simp only [Legal, steps_append, List.mem_append]
  constructor
  · exact fun h => ⟨fun p hp => h p (Or.inl hp), fun p hp => h p (Or.inr hp)⟩
  · rintro ⟨h1, h2⟩ p (hp | hp)
    · exact h1 p hp
    · exact h2 p hp

instance (ok : σ → α → Prop) [∀ s a, Decidable (ok s a)] (s : σ) (as : List α) :
    Decidable (Legal next ok s as) := List.decidableBAll _ _

theorem Legal.and {ok ok' : σ → α → Prop} {s : σ} {as : List α} (h : Legal next ok s as)
    (h' : Legal next ok' s as) : Legal next (fun s a => ok s a ∧ ok' s a) s as :=
  fun p hp => ⟨h p hp, h' p hp⟩

/-- A condition on the labels alone. -/
theorem legal_labels {P : α → Prop} {as : List α} (h : ∀ a ∈ as, P a) (s : σ) :
    Legal next (fun _ a => P a) s as := by
  induction as generalizing s with
  | nil => exact legal_nil
  | cons a as ih =>
    exact legal_cons.mpr ⟨h a List.mem_cons_self, ih (fun b hb => h b (List.mem_cons_of_mem a hb)) _⟩

/-- **Invariants of legal runs.** -/
theorem legal_induction {ok : σ → α → Prop} {I : σ → Prop}
    (hI : ∀ s a, ok s a → I s → I (next s a)) {s : σ} (hs : I s) {as : List α}
    (has : Legal next ok s as) : I (run next s as) := by
  induction as generalizing s with
  | nil => exact hs
  | cons a as ih =>
    rw [legal_cons] at has
    exact ih (hI s a has.1 hs) has.2

/-- **Legal runs under an invariant.** -/
theorem legal_of_legal {ok ok' : σ → α → Prop} {I : σ → Prop}
    (hI : ∀ s a, ok s a → I s → I (next s a)) (h : ∀ s a, ok s a → I s → ok' s a) {s : σ}
    (hs : I s) {as : List α} (has : Legal next ok s as) : Legal next ok' s as := by
  induction as generalizing s with
  | nil => exact legal_nil
  | cons a as ih =>
    rw [legal_cons] at has ⊢
    exact ⟨h s a has.1 hs, ih (hI s a has.1 hs) has.2⟩

/-- Under an invariant, conditions that agree step by step agree on runs. -/
theorem legal_congr {ok ok' : σ → α → Prop} {I : σ → Prop} (hI : ∀ s a, I s → I (next s a))
    (h : ∀ s a, I s → (ok s a ↔ ok' s a)) {s : σ} (hs : I s) (as : List α) :
    Legal next ok s as ↔ Legal next ok' s as := by
  constructor
  · exact legal_of_legal (fun s a _ => hI s a) (fun s a hok hi => (h s a hi).mp hok) hs
  · exact legal_of_legal (fun s a _ => hI s a) (fun s a hok hi => (h s a hi).mpr hok) hs

/-- **Monotone runs.** A preorder climbed by each step relates the ends of every run. -/
theorem run_rel {β : Type*} [Preorder β] (f : σ → β) (hf : ∀ s a, f s ≤ f (next s a)) (s : σ)
    (as : List α) : f s ≤ f (run next s as) :=
  run_induction (I := fun t => f s ≤ f t) (fun t a h => le_trans h (hf t a)) le_rfl as

/-- **Since.** A run that ends in a region it did not start in entered the region at some step, and
never left it afterwards. -/
theorem run_since {Q : σ → Prop} {s : σ} (hs : ¬ Q s) {as : List α} (h : Q (run next s as)) :
    ∃ pre a post, as = pre ++ a :: post ∧ ¬ Q (run next s pre) ∧ Q (next (run next s pre) a) ∧
      Legal next (fun t _ => Q t) (next (run next s pre) a) post := by
  induction as using List.reverseRecOn with
  | nil => exact absurd h hs
  | append_singleton bs b ih =>
    by_cases hb : Q (run next s bs)
    · obtain ⟨pre, a, post, rfl, h1, h2, h3⟩ := ih hb
      refine ⟨pre, a, post ++ [b], by simp, h1, h2, ?_⟩
      rw [run_append, run_cons] at hb
      exact legal_append.mpr ⟨h3, by simpa using hb⟩
    · exact ⟨bs, b, [], rfl, hb, by simpa using h, legal_nil⟩

/-- **The last time.** A run has no step that satisfies `p`, or a last one. -/
theorem legal_or_last (p : σ → α → Prop) (s : σ) (as : List α) :
    Legal next (fun s a => ¬ p s a) s as ∨
      ∃ pre a post, as = pre ++ a :: post ∧ p (run next s pre) a ∧
        Legal next (fun s a => ¬ p s a) (next (run next s pre) a) post := by
  induction as using List.reverseRecOn with
  | nil => exact Or.inl legal_nil
  | append_singleton bs b ih =>
    by_cases hb : p (run next s bs) b
    · exact Or.inr ⟨bs, b, [], rfl, hb, legal_nil⟩
    · rcases ih with h | ⟨pre, a, post, rfl, h1, h2⟩
      · exact Or.inl (legal_append.mpr ⟨h, by simpa using hb⟩)
      · refine Or.inr ⟨pre, a, post ++ [b], by simp, h1, legal_append.mpr ⟨h2, ?_⟩⟩
        simpa using hb

/-- **Balances.** Where an invariant holds a step credits `c` and debits `d`; then so does a run. -/
theorem run_balance {M : Type*} [AddCommMonoid M] {I : σ → Prop}
    (hI : ∀ s a, I s → I (next s a)) (f : σ → M) (c d : σ → α → M)
    (h : ∀ s a, I s → f (next s a) + d s a = f s + c s a) {s : σ} (hs : I s) (as : List α) :
    f (run next s as) + ((steps next s as).map fun p => d p.1 p.2).sum =
      f s + ((steps next s as).map fun p => c p.1 p.2).sum := by
  induction as generalizing s with
  | nil => rfl
  | cons a as ih =>
    simp only [run_cons, steps_cons, List.map_cons, List.sum_cons]
    rw [add_left_comm, ih (hI s a hs), ← add_assoc, add_comm (d s a), h s a hs, add_assoc]

/-- **Budgets.** Where a step costs no more than it takes off the rank `f` and pays in, neither does a
run. -/
theorem run_budget {M : Type*} [AddCommMonoid M] [Preorder M] [IsOrderedAddMonoid M]
    {ok : σ → α → Prop} {f : σ → M} {c d : σ → α → M}
    (h : ∀ s a, ok s a → f (next s a) + c s a ≤ f s + d s a) {s : σ} {as : List α}
    (has : Legal next ok s as) :
    f (run next s as) + ((steps next s as).map fun p => c p.1 p.2).sum ≤
      f s + ((steps next s as).map fun p => d p.1 p.2).sum := by
  induction as generalizing s with
  | nil => exact le_rfl
  | cons a as ih =>
    rw [legal_cons] at has
    simp only [run_cons, steps_cons, List.map_cons, List.sum_cons]
    calc f (run next (next s a) as) + (c s a + (List.map _ (steps next (next s a) as)).sum)
        = c s a + (f (run next (next s a) as) + (List.map _ (steps next (next s a) as)).sum) :=
          add_left_comm _ _ _
      _ ≤ c s a + (f (next s a) + (List.map _ (steps next (next s a) as)).sum) :=
          add_le_add_right (ih has.2) _
      _ = f (next s a) + c s a + (List.map _ (steps next (next s a) as)).sum := by
          rw [← add_assoc, add_comm (c s a)]
      _ ≤ f s + d s a + (List.map _ (steps next (next s a) as)).sum :=
          add_le_add_left (h s a has.1) _
      _ = f s + (d s a + (List.map _ (steps next (next s a) as)).sum) := add_assoc _ _ _

variable (next) in
/-- The number of steps of a run at which `p` holds of the state and the label. -/
def count (p : σ → α → Prop) [∀ s a, Decidable (p s a)] (s : σ) (as : List α) : ℕ :=
  (steps next s as).countP fun q => p q.1 q.2

theorem count_eq_zero {p : σ → α → Prop} [∀ s a, Decidable (p s a)] {s : σ} {as : List α} :
    count next p s as = 0 ↔ Legal next (fun s a => ¬ p s a) s as := by
  simp [count, Legal, List.countP_eq_zero]

theorem sum_indicator {M : Type*} [AddCommMonoidWithOne M] {p : σ → α → Prop}
    [∀ s a, Decidable (p s a)] {s : σ} {as : List α} :
    ((steps next s as).map fun q => if p q.1 q.2 then (1 : M) else 0).sum =
      (count next p s as : M) := by
  unfold count
  induction steps next s as with
  | nil => exact Nat.cast_zero.symm
  | cons q qs ih =>
    rw [List.map_cons, List.sum_cons, ih, List.countP_cons]
    split_ifs <;> simp_all [add_comm]

theorem sum_weight {M : Type*} [AddCommMonoid M] {p : σ → α → Prop} [∀ s a, Decidable (p s a)]
    (x : M) (s : σ) (as : List α) :
    ((steps next s as).map fun q => if p q.1 q.2 then x else 0).sum = count next p s as • x := by
  unfold count
  induction steps next s as with
  | nil => exact (zero_nsmul x).symm
  | cons q qs ih =>
    rw [List.map_cons, List.sum_cons, ih, List.countP_cons, add_nsmul, add_comm]
    by_cases h : p q.1 q.2
    · rw [if_pos h, if_pos (decide_eq_true h), one_nsmul]
    · rw [if_neg h, if_neg (by rwa [decide_eq_true_eq]), zero_nsmul]

/-! ## History variables -/

section Ghost

variable {γ : Type*} (upd : γ → σ → α → γ)

variable (next) in
/-- The machine with a history variable `γ` riding along. -/
def ghost (p : γ × σ) (a : α) : γ × σ := (upd p.1 p.2 a, next p.2 a)

/-- **The machine does not read its history variable.** -/
@[simp] theorem run_ghost_snd (g : γ) (s : σ) (as : List α) :
    (run (ghost next upd) (g, s) as).2 = run next s as := by
  induction as generalizing g s with
  | nil => rfl
  | cons a as ih => exact ih _ _

theorem legal_ghost {ok : σ → α → Prop} {g : γ} {s : σ} {as : List α} :
    Legal (ghost next upd) (fun p a => ok p.2 a) (g, s) as ↔ Legal next ok s as := by
  induction as generalizing g s with
  | nil => simp
  | cons a as ih =>
    rw [legal_cons, legal_cons]
    exact and_congr_right fun _ => ih

end Ghost

/-! ## Two machines -/

/-- The machine `next'` tracks `next` along `R`: a step of `next` is matched by the steps
`f s a` of `next'`, possibly none. -/
def Tracks {τ β : Type*} (R : σ → τ → Prop) (next : σ → α → σ) (next' : τ → β → τ)
    (f : σ → α → List β) : Prop :=
  ∀ s t a, R s t → R (next s a) (run next' t (f s a))

/-- **Tracking lifts from steps to runs.** -/
theorem Tracks.run {τ β : Type*} {R : σ → τ → Prop} {next' : τ → β → τ} {f : σ → α → List β}
    (h : Tracks R next next' f) {s : σ} {t : τ} (hst : R s t) (as : List α) :
    R (run next s as)
      (Machine.run next' t ((steps next s as).flatMap fun p => f p.1 p.2)) := by
  induction as generalizing s t with
  | nil => exact hst
  | cons a as ih =>
    rw [steps_cons, List.flatMap_cons, run_append]
    exact ih (h s t a hst)

end Machine
