import ParkingLot.Machine.Run

/-!
# A foreground program and its interrupt handlers

* `Preempted`: a foreground with local state `L` and handlers that run to completion between two of
  its steps, over one shared state `G`.
* **`Preempted.run_keeps`**: an invariant of the whole is one of the foreground that the handlers
  keep for whatever locals they interrupt.
* `polled`, `polledTrace`: a loop whose test and body read one input a turn, and its rules.
-/

namespace Machine

/-- A foreground with inputs `A` over locals and shared state, and handlers with inputs `H` over the
shared state alone. -/
structure Preempted (L G A H : Type*) where
  fore : L → G → A → L × G
  handler : G → H → G

namespace Preempted

variable {L G A H : Type*} (P : Preempted L G A H)

/-- One step of the foreground, or one whole handler. -/
def next (s : L × G) : A ⊕ H → L × G
  | .inl a => P.fore s.1 s.2 a
  | .inr h => (s.1, P.handler s.2 h)

@[simp] theorem next_inl (s : L × G) (a : A) : P.next s (.inl a) = P.fore s.1 s.2 a := rfl

@[simp] theorem next_inr (s : L × G) (h : H) : P.next s (.inr h) = (s.1, P.handler s.2 h) := rfl

variable {P}

/-- **Invariants under interrupts.** -/
theorem run_keeps {I : L → G → Prop}
    (hfore : ∀ l g a, I l g → I (P.fore l g a).1 (P.fore l g a).2)
    (hhandler : ∀ l g h, I l g → I l (P.handler g h)) {s : L × G} (hs : I s.1 s.2)
    (as : List (A ⊕ H)) : I (run P.next s as).1 (run P.next s as).2 := by
  refine run_induction (I := fun s : L × G => I s.1 s.2) ?_ hs as
  rintro s (a | h) hI
  · exact hfore _ _ a hI
  · exact hhandler _ _ h hI

end Preempted

/-! ## Polling loops -/

section Polled

variable {σ α : Type*} (test : σ → α → Prop) [∀ s a, Decidable (test s a)] (body : σ → α → σ)

/-- `while (test) body`, one input a turn. The list ends where the input makes the test fail. -/
def polled : σ → List α → σ
  | s, [] => s
  | s, a :: as => if test s a then polled (body s a) as else s

variable {test body}

/-- **The invariant rule of a polling loop.** -/
theorem polled_induction {I : σ → Prop} (hI : ∀ s a, test s a → I s → I (body s a)) {s : σ}
    (hs : I s) (as : List α) : I (polled test body s as) := by
  induction as generalizing s with
  | nil => exact hs
  | cons a as ih =>
    rw [polled]
    split_ifs with h
    · exact ih (hI s a h hs)
    · exact hs

theorem polled_eq {β : Type*} (f : σ → β) (hf : ∀ s a, f (body s a) = f s) (s : σ) (as : List α) :
    f (polled test body s as) = f s :=
  polled_induction (I := fun t => f t = f s) (fun t a _ h => (hf t a).trans h) rfl as

variable {τ β : Type*}

end Polled

end Machine
