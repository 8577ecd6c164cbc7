import Mathlib.Data.List.Basic

/-!
# Computations that take inputs and leave outputs

A computation over a state that consists of the inputs to come and the outputs so far. On one
stretch of inputs it behaves in one way, whatever comes after the inputs and went before the
outputs. A listener on the outputs turns them into messages.

* `Port`, `Port.Says`: such a state; the inputs a computation takes, its outputs and its result.
* `Listener`, `Listener.Hears`: a machine on the outputs; the messages it makes of them.
* `Listener.Talks`: inputs, messages and result.
* **`Talks.bind`**: behaviours compose as the computations do.
-/

namespace Machine

variable {σ ι ω τ μ α β : Type}

/-- A state made of the inputs to come and the outputs so far. -/
structure Port (σ ι ω : Type) where
  state : List ι → List ω → σ

/-- The computation takes the inputs `ins`, adds the outputs `outs` and ends with `a`. -/
def Port.Says (p : Port σ ι ω) (x : StateM σ α) (ins : List ι) (outs : List ω) (a : α) : Prop :=
  ∀ rest past, x (p.state (ins ++ rest) past) = (a, p.state rest (past ++ outs))

namespace Port

variable {p : Port σ ι ω} {x : StateM σ α} {f : α → StateM σ β} {ins ins' : List ι}
  {outs outs' : List ω} {a a' : α} {b : β}

theorem Says.pure (a : α) : p.Says (Pure.pure a) [] [] a := fun rest past => by
  rw [List.nil_append, List.append_nil]
  rfl

theorem Says.bind (hx : p.Says x ins outs a) (hf : p.Says (f a) ins' outs' b) :
    p.Says (x >>= f) (ins ++ ins') (outs ++ outs') b := fun rest past => by
  have h : (x >>= f) (p.state (ins ++ ins' ++ rest) past) =
      f (x (p.state (ins ++ (ins' ++ rest)) past)).1 (x (p.state (ins ++ (ins' ++ rest)) past)).2 := by
    rw [List.append_assoc]
    rfl
  rw [h, hx, hf, List.append_assoc]

end Port

/-! ## Listening to the outputs -/

/-- A machine that is fed the outputs one by one. -/
structure Listener (τ ω μ : Type) where
  step : τ → ω → τ × List μ

namespace Listener

variable (l : Listener τ ω μ)

def after (s : τ) (outs : List ω) : τ := outs.foldl (fun s o => (l.step s o).1) s

/-- The messages made of `outs`, from the state `s` on. -/
def messages : τ → List ω → List μ
  | _, [] => []
  | s, o :: outs => (l.step s o).2 ++ messages (l.step s o).1 outs

theorem messages_append (s : τ) (outs outs' : List ω) :
    l.messages s (outs ++ outs') = l.messages s outs ++ l.messages (l.after s outs) outs' := by
  induction outs generalizing s with
  | nil => rfl
  | cons o outs ih =>
    rw [List.cons_append, messages, messages, ih, List.append_assoc]
    rfl

/-- In every state the outputs make these messages. -/
def Hears (outs : List ω) (ms : List μ) : Prop := ∀ s, l.messages s outs = ms

variable {l}

theorem Hears.nil : l.Hears [] [] := fun _ => rfl

theorem Hears.append {outs outs' : List ω} {ms ms' : List μ} (h : l.Hears outs ms)
    (h' : l.Hears outs' ms') : l.Hears (outs ++ outs') (ms ++ ms') := fun s => by
  rw [messages_append, h, h']

/-! ## Inputs and messages -/

variable (l) in
/-- The computation takes the inputs `ins`, makes the messages `ms` and ends with `a`. -/
def Talks (p : Port σ ι ω) (x : StateM σ α) (ins : List ι) (ms : List μ) (a : α) : Prop :=
  ∃ outs, p.Says x ins outs a ∧ l.Hears outs ms

variable {p : Port σ ι ω} {x : StateM σ α} {f : α → StateM σ β} {ins ins' : List ι}
  {ms ms' : List μ} {a : α} {b : β}

theorem Talks.pure (a : α) : l.Talks p (Pure.pure a) [] [] a := ⟨[], .pure a, .nil⟩

/-- **Behaviours compose.** -/
theorem Talks.bind (hx : l.Talks p x ins ms a) (hf : l.Talks p (f a) ins' ms' b) :
    l.Talks p (x >>= f) (ins ++ ins') (ms ++ ms') b := by
  obtain ⟨outs, hs, hh⟩ := hx
  obtain ⟨outs', hs', hh'⟩ := hf
  exact ⟨outs ++ outs', hs.bind hs', hh.append hh'⟩

/-- A computation that takes no input and makes no message. -/
theorem Talks.silent_bind (hx : l.Talks p x [] [] a) (hf : l.Talks p (f a) ins ms b) :
    l.Talks p (x >>= f) ins ms b := hx.bind hf

/-- The rest takes no input and makes no message. -/
theorem Talks.bind_silent (hx : l.Talks p x ins ms a) (hf : l.Talks p (f a) [] [] b) :
    l.Talks p (x >>= f) ins ms b := by
  have h := hx.bind hf
  rwa [List.append_nil, List.append_nil] at h

/-- What a computation does at the end of the inputs. -/
theorem Talks.run (h : l.Talks p x ins ms a) (s : τ) :
    ∃ outs, x (p.state ins []) = (a, p.state [] outs) ∧ l.messages s outs = ms := by
  obtain ⟨outs, hs, hh⟩ := h
  have := hs [] []
  rw [List.append_nil, List.nil_append] at this
  exact ⟨outs, this, hh s⟩

end Listener

end Machine
