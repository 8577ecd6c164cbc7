import Mathlib.Logic.Function.Basic

/-!
# An interrupt line

Several pins share one interrupt. Handlers do not nest: an edge leaves one pending flag per pin, and
a pending pin is served when no handler runs.

* `Line`, `Line.edge`, `Line.serve`, `Line.done`: the line and what happens on it.
* `Line.Busy`: a pin is pending or being served.
* `busy_serve`, `busy_edge_of_ne`, `busy_done_of_ne`: what keeps a pin busy.
-/

/-- The pending flags, and the running handler with the instant it was started at. -/
@[ext] structure Line (P T : Type*) where
  pending : P → Bool
  running : Option (P × T)

namespace Line

variable {P T : Type*}

def quiet : Line P T := ⟨fun _ => false, none⟩

def done (l : Line P T) : Line P T := { l with running := none }

/-- The handler of `p` is running. -/
def Serves (l : Line P T) (p : P) : Prop := l.running.map Prod.fst = some p

/-- The pin `p` is pending or being served. -/
def Busy (l : Line P T) (p : P) : Prop := l.pending p = true ∨ l.Serves p

variable {l : Line P T} {p q : P} {t : T}

@[simp] theorem not_serves_done : ¬ l.done.Serves q := by
  simp [Serves, done]

@[simp] theorem pending_done : l.done.pending q = l.pending q := rfl

theorem Serves.unique (hp : l.Serves p) (hq : l.Serves q) : p = q :=
  Option.some.inj (hp.symm.trans hq)

theorem busy_done_of_ne (hp : l.Serves p) (h : q ≠ p) : l.done.Busy q ↔ l.Busy q := by
  have hs : ¬ l.Serves q := fun hq => h (hq.unique hp)
  simp [Busy, hs]

variable [DecidableEq P]

instance (l : Line P T) (p : P) : Decidable (l.Serves p) := inferInstanceAs (Decidable (_ = _))

instance (l : Line P T) (p : P) : Decidable (l.Busy p) := inferInstanceAs (Decidable (_ ∨ _))

def edge (l : Line P T) (p : P) : Line P T :=
  { l with pending := Function.update l.pending p true }

def serve (l : Line P T) (p : P) (t : T) : Line P T :=
  { pending := Function.update l.pending p false, running := some (p, t) }

@[simp] theorem serves_edge : (l.edge p).Serves q ↔ l.Serves q := Iff.rfl

@[simp] theorem serves_serve : (l.serve p t).Serves q ↔ p = q := by
  simp [Serves, serve]

@[simp] theorem pending_edge : (l.edge p).pending q = true ↔ q = p ∨ l.pending q = true := by
  by_cases h : q = p <;> simp [edge, Function.update, h]

@[simp] theorem pending_serve : (l.serve p t).pending q = true ↔ q ≠ p ∧ l.pending q = true := by
  by_cases h : q = p <;> simp [serve, Function.update, h]

/-- Serving a pending pin keeps every pin as busy as it was. -/
theorem busy_serve (hp : l.pending p = true) (hfree : l.running = none) :
    (l.serve p t).Busy q ↔ l.Busy q := by
  have hs : ¬ l.Serves q := by simp [Serves, hfree]
  by_cases h : q = p
  · subst h
    simp [Busy, hp]
  · simp [Busy, h, Ne.symm h, hs]

theorem busy_edge_of_ne (h : q ≠ p) : (l.edge p).Busy q ↔ l.Busy q := by
  simp [Busy, h]

end Line
