import Mathlib.Data.List.Basic
import Mathlib.Tactic.Ring
import Mathlib.Tactic.Linarith

/-!
# Spelling without padding

A number below `r * r` is written in base `r` with one digit when it is below `r` and with two
otherwise; a list of numbers is written by concatenation. The widths are lost, so different lists
can be spelled alike. This file says exactly which lists are the only one of their length, and of
given other lengths, with their spelling.

* `spell`, `wides`, `length_spell`: the spelling has one digit for each number and one more for
  each wide one.
* `wides_le_pairs`, `exists_spell`: a digit string has the splittings into numbers that its
  `pairs` allow.
* `Rigid`, `rigid_length`: a rigid list is the shortest one with its spelling, and the only one of
  its length.
* `exists_ne_spell`: a list that is neither rigid nor narrow shares its spelling with another list
  of its length.
* **`spell_unique_iff`**: unique spelling among the lists whose length is in a set `S`.
-/

namespace Spell

variable (r : ℕ)

/-- The digits of one number. -/
def digits (n : ℕ) : List ℕ := if n < r then [n] else [n / r, n % r]

/-- The digits of a list of numbers, run together. -/
def spell (l : List ℕ) : List ℕ := l.flatMap (digits r)

/-- How many numbers take two digits. -/
def wides (l : List ℕ) : ℕ := l.countP (r ≤ ·)

/-- The numbers that two digits can write. -/
def Fits (l : List ℕ) : Prop := ∀ a ∈ l, a < r * r

/-- How many disjoint neighbouring pairs, each starting with a nonzero digit, fit in a digit
string. -/
def pairs : List ℕ → ℕ
  | [] => 0
  | [_] => 0
  | a :: b :: s => if a = 0 then pairs (b :: s) else pairs s + 1

/-- `Rigid` after a number whose last digit is zero (`z`) or not. -/
def RigidFrom : Bool → List ℕ → Prop
  | _, [] => True
  | z, a :: l => (a < r → z = true ∧ (a = 0 ∨ l = [])) ∧ RigidFrom (a % r = 0) l

/-- **Rigid lists.** Each one-digit number is zero or last, and is first or follows a number whose
last digit is zero: it can be joined neither with what follows nor with what precedes. -/
def Rigid (l : List ℕ) : Prop := RigidFrom r true l

instance decidableRigidFrom : ∀ z l, Decidable (RigidFrom r z l)
  | _, [] => .isTrue trivial
  | z, a :: l =>
    have := decidableRigidFrom (a % r = 0) l
    inferInstanceAs (Decidable ((a < r → z = true ∧ (a = 0 ∨ l = [])) ∧ _))

instance (l : List ℕ) : Decidable (Rigid r l) := decidableRigidFrom r true l

instance (l : List ℕ) : Decidable (Fits r l) := List.decidableBAll _ _

/-! ## One number -/

variable {r}

theorem digits_narrow {a : ℕ} (h : a < r) : digits r a = [a] := if_pos h

theorem digits_wide {a : ℕ} (h : r ≤ a) : digits r a = [a / r, a % r] := if_neg (by omega)

theorem div_pos_of_wide {a : ℕ} (hr : 0 < r) (h : r ≤ a) : a / r ≠ 0 :=
  (Nat.div_pos h hr).ne'

@[simp] theorem spell_nil : spell r [] = [] := rfl

@[simp] theorem spell_cons (a : ℕ) (l : List ℕ) : spell r (a :: l) = digits r a ++ spell r l := rfl

@[simp] theorem spell_append (l m : List ℕ) : spell r (l ++ m) = spell r l ++ spell r m := by
  simp [spell]

theorem spell_cons_narrow {a : ℕ} (h : a < r) (l : List ℕ) : spell r (a :: l) = a :: spell r l := by
  rw [spell_cons, digits_narrow h]; rfl

theorem spell_cons_wide {a : ℕ} (h : r ≤ a) (l : List ℕ) :
    spell r (a :: l) = a / r :: a % r :: spell r l := by
  rw [spell_cons, digits_wide h]; rfl

@[simp] theorem wides_nil : wides r [] = 0 := rfl

theorem wides_cons_narrow {a : ℕ} (h : a < r) (l : List ℕ) : wides r (a :: l) = wides r l := by
  simp [wides, List.countP_cons]; omega

theorem wides_cons_wide {a : ℕ} (h : r ≤ a) (l : List ℕ) : wides r (a :: l) = wides r l + 1 := by
  simp [wides, h]

@[simp] theorem wides_append (l m : List ℕ) : wides r (l ++ m) = wides r l + wides r m := by
  simp [wides]

theorem fits_cons {a : ℕ} {l : List ℕ} : Fits r (a :: l) ↔ a < r * r ∧ Fits r l := by
  simp [Fits]

theorem fits_append {l m : List ℕ} : Fits r (l ++ m) ↔ Fits r l ∧ Fits r m := by
  simp [Fits, or_imp, forall_and]

theorem length_spell (l : List ℕ) : (spell r l).length = l.length + wides r l := by
  induction l with
  | nil => rfl
  | cons a l ih =>
    by_cases h : a < r
    · rw [spell_cons_narrow h, wides_cons_narrow h]; simp [ih]; omega
    · have h' : r ≤ a := by omega
      rw [spell_cons_wide h', wides_cons_wide h']; simp [ih]; omega

theorem lt_of_wides_eq_zero {l : List ℕ} (h : wides r l = 0) : ∀ a ∈ l, a < r := by
  simpa [wides] using h

theorem spell_of_wides_eq_zero {l : List ℕ} (h : wides r l = 0) : spell r l = l := by
  have hl := lt_of_wides_eq_zero h
  clear h
  induction l with
  | nil => rfl
  | cons a l ih =>
    rw [spell_cons_narrow (hl a List.mem_cons_self), ih fun b hb => hl b (List.mem_cons_of_mem _ hb)]

theorem digit_lt_of_mem_spell (hr : 0 < r) {l : List ℕ} (hl : Fits r l) : ∀ d ∈ spell r l, d < r := by
  intro d hd
  obtain ⟨a, ha, hda⟩ := List.mem_flatMap.mp hd
  by_cases h : a < r
  · rw [digits_narrow h, List.mem_singleton] at hda; omega
  · rw [digits_wide (by omega)] at hda
    have hdiv : a / r < r := Nat.div_lt_of_lt_mul (hl a ha)
    have hmod : a % r < r := Nat.mod_lt _ hr
    simp only [List.mem_cons, List.not_mem_nil, or_false] at hda
    omega

/-! ## Splittings of a digit string -/

theorem pairs_le_cons (a : ℕ) (s : List ℕ) : pairs s ≤ pairs (a :: s) ∧ pairs (a :: s) ≤ pairs s + 1 := by
  induction s generalizing a with
  | nil => simp [pairs]
  | cons b s ih =>
    have h := ih b
    rw [pairs]
    split_ifs <;> omega

theorem pairs_cons_cons {a b : ℕ} {s : List ℕ} (h : a ≠ 0) : pairs (a :: b :: s) = pairs s + 1 := by
  rw [pairs, if_neg h]

theorem two_mul_pairs_le : ∀ s : List ℕ, 2 * pairs s ≤ s.length
  | [] => by simp [pairs]
  | [_] => by simp [pairs]
  | a :: b :: s => by
    have h1 := two_mul_pairs_le (b :: s)
    have h2 := two_mul_pairs_le s
    rw [pairs]
    split_ifs <;> simp only [List.length_cons] at h1 ⊢ <;> omega

/-- **No splitting has more wide numbers than the digit string has pairs.** -/
theorem wides_le_pairs (hr : 0 < r) (l : List ℕ) : wides r l ≤ pairs (spell r l) := by
  induction l with
  | nil => simp
  | cons a l ih =>
    by_cases h : a < r
    · rw [spell_cons_narrow h, wides_cons_narrow h]
      exact ih.trans (pairs_le_cons a _).1
    · have h' : r ≤ a := by omega
      rw [spell_cons_wide h', wides_cons_wide h', pairs_cons_cons (div_pos_of_wide hr h')]
      omega

theorem join_lt {a b : ℕ} (ha : a < r) (hb : b < r) : r * a + b < r * r := by
  have : r * a + b < r * (a + 1) := by rw [Nat.mul_succ]; omega
  exact this.trans_le (Nat.mul_le_mul_left r ha)

theorem digits_join {a b : ℕ} (ha : a ≠ 0) (hb : b < r) : digits r (r * a + b) = [a, b] := by
  have hle : r ≤ r * a + b := (Nat.le_mul_of_pos_right r (Nat.pos_of_ne_zero ha)).trans (by omega)
  have hr : 0 < r := by omega
  rw [digits_wide hle, Nat.mul_add_div hr, Nat.div_eq_of_lt hb, Nat.mul_add_mod, Nat.mod_eq_of_lt hb,
    Nat.add_zero]

/-- **A digit string has splittings with any number of wide numbers up to its pairs.** -/
theorem exists_spell : ∀ (s : List ℕ), (∀ d ∈ s, d < r) → ∀ k ≤ pairs s,
    ∃ l, Fits r l ∧ spell r l = s ∧ l.length + k = s.length
  | [], _, k, hk => ⟨[], by simp [Fits], rfl, by simpa [pairs] using hk⟩
  | [a], hs, k, hk => by
    have ha : a < r := hs a (by simp)
    refine ⟨[a], by simp [Fits]; nlinarith, by rw [spell_cons_narrow ha]; rfl, ?_⟩
    simpa [pairs] using hk
  | a :: b :: s, hs, k, hk => by
    have ha : a < r := hs a (by simp)
    have hb : b < r := hs b (by simp)
    -- read `a` alone where it cannot start a pair or no pair is wanted any more
    by_cases h : k ≤ pairs (b :: s)
    · obtain ⟨l, hl, hsp, hlen⟩ := exists_spell (b :: s) (fun d hd => hs d (by simp_all)) k h
      refine ⟨a :: l, fits_cons.mpr ⟨by nlinarith, hl⟩, by rw [spell_cons_narrow ha, hsp], ?_⟩
      simp only [List.length_cons] at hlen ⊢; omega
    · have h0 : a ≠ 0 := by rintro rfl; rw [pairs, if_pos rfl] at hk; omega
      rw [pairs_cons_cons h0] at hk
      obtain ⟨l, hl, hsp, hlen⟩ := exists_spell s (fun d hd => hs d (by simp_all)) (k - 1) (by omega)
      refine ⟨(r * a + b) :: l, fits_cons.mpr ⟨join_lt ha hb, hl⟩, ?_, ?_⟩
      · rw [spell_cons, digits_join h0 hb, hsp]; rfl
      · have : 0 < k := by omega
        simp only [List.length_cons] at hlen ⊢; omega

theorem exists_longer (hr : 0 < r) {l : List ℕ} (hl : Fits r l) {m : ℕ} (hm : l.length ≤ m)
    (hm' : m ≤ l.length + wides r l) : ∃ v, Fits r v ∧ spell r v = spell r l ∧ v.length = m := by
  have hlen := length_spell (r := r) l
  have hk : (spell r l).length - m ≤ pairs (spell r l) := by
    have := wides_le_pairs hr l; omega
  obtain ⟨v, hv, hsp, hvl⟩ := exists_spell _ (digit_lt_of_mem_spell hr hl) _ hk
  exact ⟨v, hv, hsp, by omega⟩

theorem length_le_of_spell_eq {u v : List ℕ} (h : spell r u = spell r v) :
    v.length ≤ u.length + wides r u := by
  have h1 := length_spell (r := r) u
  have h2 := length_spell (r := r) v
  rw [h] at h1
  omega

/-! ## Rigid lists -/

/-- A rigid list and a list spelled alike, and a rigid list with one digit still to be written
before it. -/
theorem rigid_aux (hr : 0 < r) : ∀ u : List ℕ,
    (∀ z v, RigidFrom r z u → spell r u = spell r v →
      u.length ≤ v.length ∧ (u.length = v.length → u = v)) ∧
    (∀ d v, RigidFrom r (decide (d = 0)) u → d :: spell r u = spell r v → u.length < v.length) := by
  intro u
  induction u with
  | nil =>
    refine ⟨fun z v _ h => ?_, fun d v _ h => ?_⟩
    · have : v = [] := by
        have h2 := length_spell (r := r) v
        rw [← h] at h2
        exact List.eq_nil_of_length_eq_zero (by simp at h2; omega)
      simp [this]
    · cases v with
      | nil => simp at h
      | cons b v => simp
  | cons a u ih =>
    obtain ⟨ihA, ihB⟩ := ih
    have hA : ∀ z v, RigidFrom r z (a :: u) → spell r (a :: u) = spell r v →
        (a :: u).length ≤ v.length ∧ ((a :: u).length = v.length → a :: u = v) := by
      rintro z v ⟨hz, hu⟩ h
      cases v with
      | nil => by_cases ha : a < r <;> simp [spell_cons, digits, ha] at h
      | cons b v =>
        by_cases ha : a < r <;> by_cases hb : b < r
        · rw [spell_cons_narrow ha, spell_cons_narrow hb] at h
          obtain ⟨hab, hs⟩ := List.cons.inj h
          have := ihA _ v hu hs
          simpa [hab] using this
        · -- `a` is zero or last, so no wide number starts with its digit
          have hb' : r ≤ b := by omega
          rw [spell_cons_narrow ha, spell_cons_wide hb'] at h
          obtain ⟨hab, h⟩ := List.cons.inj h
          rcases (hz ha).2 with h0 | h0
          · exact absurd (hab ▸ h0) (div_pos_of_wide hr hb')
          · rw [h0] at h; simp at h
        · have ha' : r ≤ a := by omega
          rw [spell_cons_wide ha', spell_cons_narrow hb] at h
          obtain ⟨-, h⟩ := List.cons.inj h
          have := ihB _ v hu h
          simp only [List.length_cons]
          omega
        · have ha' : r ≤ a := by omega
          have hb' : r ≤ b := by omega
          rw [spell_cons_wide ha', spell_cons_wide hb'] at h
          obtain ⟨h1, h⟩ := List.cons.inj h
          obtain ⟨h2, h⟩ := List.cons.inj h
          have hab : a = b := by rw [← Nat.div_add_mod a r, ← Nat.div_add_mod b r, h1, h2]
          have := ihA _ v hu h
          simpa [hab] using this
    refine ⟨hA, ?_⟩
    intro d v hd h
    cases v with
    | nil => simp at h
    | cons b v =>
      by_cases hb : b < r
      · rw [spell_cons_narrow hb] at h
        have := (hA _ v hd (List.cons.inj h).2).1
        simp only [List.length_cons] at this ⊢
        omega
      · -- the digit before is nonzero, so the rigid list goes on with a wide number
        have hb' : r ≤ b := by omega
        rw [spell_cons_wide hb'] at h
        obtain ⟨hdb, h⟩ := List.cons.inj h
        have hd0 : d ≠ 0 := hdb ▸ div_pos_of_wide hr hb'
        have ha : r ≤ a := by
          by_contra ha
          simpa [hd0] using (hd.1 (by omega)).1
        rw [spell_cons_wide ha] at h
        have := ihB _ v hd.2 (List.cons.inj h).2
        simp only [List.length_cons]
        omega

/-- **A rigid list is the shortest with its spelling, and the only one of its length.** -/
theorem rigid_length (hr : 0 < r) {u v : List ℕ} (hu : Rigid r u) (h : spell r u = spell r v) :
    u.length ≤ v.length ∧ (u.length = v.length → u = v) :=
  (rigid_aux hr u).1 true v hu h

theorem eq_of_wides_eq_zero {u v : List ℕ} (hu : wides r u = 0) (h : spell r u = spell r v)
    (hlen : u.length = v.length) : u = v := by
  have hv : wides r v = 0 := by
    have h1 := length_spell (r := r) u
    have h2 := length_spell (r := r) v
    rw [h] at h1
    omega
  rwa [spell_of_wides_eq_zero hu, spell_of_wides_eq_zero hv] at h

/-! ## Lists that can be split again -/

/-- Where a list is not rigid, two neighbours touch: the first is a nonzero digit, or the second
is a digit after a nonzero one. -/
theorem exists_touch : ∀ (u : List ℕ) (z : Bool), ¬ RigidFrom r z u →
    (z = false ∧ ∃ a q, u = a :: q ∧ a < r) ∨
      ∃ p a x q, u = p ++ a :: x :: q ∧ (a < r ∧ a ≠ 0 ∨ a % r ≠ 0 ∧ x < r)
  | [], z, h => absurd trivial h
  | a :: u, z, h => by
    by_cases hu : RigidFrom r (decide (a % r = 0)) u
    · have ha : a < r ∧ ¬ (z = true ∧ (a = 0 ∨ u = [])) := by
        by_contra hc
        exact h ⟨fun ha => by by_contra hz; exact hc ⟨ha, hz⟩, hu⟩
      by_cases hz : z = true
      · obtain ⟨h0, hne⟩ : a ≠ 0 ∧ u ≠ [] := by
          constructor <;> intro hc <;> exact ha.2 ⟨hz, by simp [hc]⟩
        obtain ⟨x, q, rfl⟩ := List.exists_cons_of_ne_nil hne
        exact Or.inr ⟨[], a, x, q, rfl, Or.inl ⟨ha.1, h0⟩⟩
      · exact Or.inl ⟨by simpa using hz, a, u, rfl, ha.1⟩
    · rcases exists_touch u _ hu with ⟨h0, x, q, rfl, hx⟩ | ⟨p, b, x, q, rfl, hb⟩
      · exact Or.inr ⟨[], a, x, q, rfl, Or.inr ⟨by simpa using h0, hx⟩⟩
      · exact Or.inr ⟨a :: p, b, x, q, rfl, hb⟩

theorem join_ge {a b : ℕ} (ha : a ≠ 0) : r ≤ r * a + b :=
  (Nat.le_mul_of_pos_right r (Nat.pos_of_ne_zero ha)).trans (by omega)

/-- Two touching digits are joined, and a wide number elsewhere is taken apart. -/
theorem exists_ne_of_narrow_narrow (hr : 0 < r) {p q : List ℕ} {a x : ℕ}
    (hu : Fits r (p ++ a :: x :: q)) (ha : a < r) (h0 : a ≠ 0) (hx : x < r)
    (hw : wides r (p ++ a :: x :: q) ≠ 0) :
    ∃ v, Fits r v ∧ v.length = (p ++ a :: x :: q).length ∧
      spell r v = spell r (p ++ a :: x :: q) ∧ v ≠ p ++ a :: x :: q := by
  obtain ⟨hp, hq⟩ := fits_append.mp hu
  have hq' : Fits r q := (fits_cons.mp (fits_cons.mp hq).2).2
  rw [wides_append, wides_cons_narrow ha, wides_cons_narrow hx] at hw
  have hsp : spell r (a :: x :: q) = digits r (r * a + x) ++ spell r q := by
    rw [spell_cons_narrow ha, spell_cons_narrow hx, digits_join h0 hx]; rfl
  by_cases hwp : wides r p = 0
  · obtain ⟨v, hv, hvs, hvl⟩ := exists_longer hr hq' (m := q.length + 1) (by omega) (by omega)
    refine ⟨p ++ (r * a + x) :: v, fits_append.mpr ⟨hp, fits_cons.mpr ⟨join_lt ha hx, hv⟩⟩,
      by simp [hvl], by rw [spell_append, spell_append, hsp, spell_cons, hvs], fun h => ?_⟩
    have := (List.cons.inj (List.append_cancel_left h)).1
    have := join_ge (r := r) (b := x) h0
    omega
  · obtain ⟨v, hv, hvs, hvl⟩ := exists_longer hr hp (m := p.length + 1) (by omega) (by omega)
    refine ⟨v ++ (r * a + x) :: q, fits_append.mpr ⟨hv, fits_cons.mpr ⟨join_lt ha hx, hq'⟩⟩,
      by simp [hvl]; omega, by rw [spell_append, spell_append, hsp, spell_cons, hvs], fun h => ?_⟩
    -- the two prefixes of length `p.length + 1` have spellings of different length
    have hva : v = p ++ [a] := by
      have h' : v ++ (r * a + x) :: q = (p ++ [a]) ++ x :: q := by simpa using h
      exact List.append_inj_left h' (by simp [hvl])
    rw [hva, spell_append, spell_cons_narrow ha] at hvs
    simpa using congrArg List.length hvs

/-- **A list that is neither rigid nor narrow can be split again without changing its length.** -/
theorem exists_ne_spell (hr : 0 < r) {u : List ℕ} (hu : Fits r u) (hw : wides r u ≠ 0)
    (h : ¬ Rigid r u) : ∃ v, Fits r v ∧ v.length = u.length ∧ spell r v = spell r u ∧ v ≠ u := by
  obtain ⟨h0, -⟩ | ⟨p, a, x, q, rfl, hax⟩ := exists_touch u true h
  · exact absurd h0 (by simp)
  obtain ⟨hp, hq⟩ := fits_append.mp hu
  obtain ⟨haf, hq⟩ := fits_cons.mp hq
  obtain ⟨hxf, hq⟩ := fits_cons.mp hq
  have hmod : ∀ n : ℕ, n % r < r := fun n => Nat.mod_lt n hr
  have hdiv : ∀ n : ℕ, n < r * r → n / r < r := fun n hn => Nat.div_lt_of_lt_mul hn
  have hnarrow : ∀ n : ℕ, n < r → n < r * r := fun n hn => by nlinarith
  by_cases ha : a < r
  · have ha0 : a ≠ 0 := by
      rcases hax with hax | hax
      · exact hax.2
      · intro hc; simp [hc] at hax
    by_cases hx : x < r
    · exact exists_ne_of_narrow_narrow hr hu ha ha0 hx hw
    · -- a digit before a wide number: shift the boundary by one digit
      have hx' : r ≤ x := by omega
      refine ⟨p ++ (r * a + x / r) :: (x % r) :: q, fits_append.mpr ⟨hp, fits_cons.mpr
        ⟨join_lt ha (hdiv x hxf), fits_cons.mpr ⟨hnarrow _ (hmod x), hq⟩⟩⟩, by simp, ?_, fun hc => ?_⟩
      · rw [spell_append, spell_append, spell_cons_narrow ha, spell_cons_wide hx', spell_cons,
          digits_join ha0 (hdiv x hxf), spell_cons_narrow (hmod x)]
        rfl
      · have := (List.cons.inj (List.append_cancel_left hc)).1
        have := join_ge (r := r) (b := x / r) ha0
        omega
  · -- a wide number ending in a nonzero digit before a digit
    have ha' : r ≤ a := by omega
    obtain ⟨ham, hx⟩ : a % r ≠ 0 ∧ x < r := by
      rcases hax with hax | hax
      · omega
      · exact hax
    refine ⟨p ++ (a / r) :: (r * (a % r) + x) :: q, fits_append.mpr ⟨hp, fits_cons.mpr
      ⟨hnarrow _ (hdiv a haf), fits_cons.mpr ⟨join_lt (hmod a) hx, hq⟩⟩⟩, by simp, ?_, fun hc => ?_⟩
    · rw [spell_append, spell_append, spell_cons_narrow (hdiv a haf), spell_cons,
        digits_join ham hx, spell_cons_wide ha', spell_cons_narrow hx]
      rfl
    · have := (List.cons.inj (List.append_cancel_left hc)).1
      have := hdiv a haf
      omega

/-! ## Unique spelling -/

/-- Among the lists whose length is in `S`, `u` is the only one with its spelling: no longer list
fits its digits, and it is rigid or, when all its numbers have one digit, no shorter list has
enough pairs. -/
def Unambiguous (r : ℕ) (S : Set ℕ) (u : List ℕ) : Prop :=
  (∀ m ∈ S, u.length < m → u.length + wides r u < m) ∧
    (Rigid r u ∨ wides r u = 0 ∧ ∀ m ∈ S, m < u.length → m + pairs u < u.length)

theorem spell_unique_iff (hr : 0 < r) (S : Set ℕ) {u : List ℕ} (hu : Fits r u)
    (hS : u.length ∈ S) :
    (∀ v, Fits r v → v.length ∈ S → spell r u = spell r v → u = v) ↔ Unambiguous r S u := by
  constructor
  · intro h
    refine ⟨fun m hm hlt => ?_, ?_⟩
    · by_contra hc
      obtain ⟨v, hv, hvs, hvl⟩ := exists_longer hr hu hlt.le (by omega)
      have := congrArg List.length (h v hv (hvl ▸ hm) hvs.symm)
      omega
    · by_contra hc
      obtain ⟨hrig, hnar⟩ := not_or.mp hc
      by_cases hw : wides r u = 0
      · -- all digits: a shorter list with enough pairs is spelled alike
        obtain ⟨m, hm, hlt, hp⟩ : ∃ m ∈ S, m < u.length ∧ u.length ≤ m + pairs u := by
          by_contra hno
          refine hnar ⟨hw, fun m hm hlt => ?_⟩
          by_contra hge
          exact hno ⟨m, hm, hlt, by omega⟩
        have hsu : spell r u = u := spell_of_wides_eq_zero hw
        obtain ⟨v, hv, hvs, hvl⟩ := exists_spell u (lt_of_wides_eq_zero hw) (u.length - m) (by omega)
        have hvm : v.length = m := by omega
        have := congrArg List.length (h v hv (hvm ▸ hm) (by rw [hsu, hvs]))
        omega
      · obtain ⟨v, hv, hvl, hvs, hne⟩ := exists_ne_spell hr hu hw hrig
        exact hne (h v hv (hvl ▸ hS) hvs.symm).symm
  · rintro ⟨hlong, hshort⟩ v hv hvS hs
    have hle : v.length ≤ u.length := by
      by_contra hc
      have := hlong v.length hvS (by omega)
      have := length_le_of_spell_eq hs
      omega
    rcases hshort with hrig | ⟨hw, hpairs⟩
    · have := rigid_length hr hrig hs
      exact this.2 (by omega)
    · by_cases hlt : v.length < u.length
      · have h1 := hpairs v.length hvS hlt
        have h2 := wides_le_pairs hr v
        have h3 := length_spell (r := r) v
        rw [← hs, spell_of_wides_eq_zero hw] at h2 h3
        omega
      · exact eq_of_wides_eq_zero hw hs (by omega)

end Spell
