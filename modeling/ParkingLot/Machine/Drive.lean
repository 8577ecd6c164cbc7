import ParkingLot.Machine.Run

/-!
# A program that writes to a device

A program that reads nothing is the list of what it writes. The device takes it write by write, each
time with an input of its own, of which the program knows a rule at most.

* `Drives`: from wherever `P` holds, the writes bring the device to where `Q` holds.
* `emit`: what a driver with a state of its own writes, call by call.
* **`Drives.emit`**: a driver that refines an abstract device call by call does so over any calls.
-/

namespace Machine

variable {σ α ν : Type*} (dev : σ → α × ν → σ) (ok : ν → Prop)

/-- From `P` the writes `ws` lead to `Q`, whatever else the device sees under the rule `ok`. -/
def Drives (P : σ → Prop) (ws : List α) (Q : σ → Prop) : Prop :=
  ∀ s, P s → ∀ bs : List (α × ν), bs.map Prod.fst = ws → (∀ b ∈ bs, ok b.2) → Q (run dev s bs)

variable {dev ok} {P P' Q Q' R : σ → Prop} {ws ws' : List α}

theorem Drives.nil (h : ∀ s, P s → Q s) : Drives dev ok P [] Q := by
  intro s hs bs hbs _
  rw [List.map_eq_nil_iff.mp hbs]
  exact h s hs

theorem Drives.single {w : α} (h : ∀ s n, ok n → P s → Q (dev s (w, n))) :
    Drives dev ok P [w] Q := by
  intro s hs bs hbs hok
  obtain ⟨⟨a, n⟩, bs', rfl, rfl, hbs'⟩ := List.map_eq_cons_iff.mp hbs
  rw [List.map_eq_nil_iff.mp hbs']
  exact h s n (hok _ List.mem_cons_self) hs

/-- **Writes compose.** -/
theorem Drives.append (h : Drives dev ok P ws Q) (h' : Drives dev ok Q ws' R) :
    Drives dev ok P (ws ++ ws') R := by
  intro s hs bs hbs hok
  obtain ⟨as, as', rfl, h1, h2⟩ := List.map_eq_append_iff.mp hbs
  rw [run_append]
  exact h' _ (h s hs as h1 fun b hb => hok b (List.mem_append_left _ hb)) as' h2
    fun b hb => hok b (List.mem_append_right _ hb)

theorem Drives.cons {w : α} (h : Drives dev ok P [w] Q) (h' : Drives dev ok Q ws R) :
    Drives dev ok P (w :: ws) R := h.append h'

theorem Drives.mono (h : Drives dev ok P ws Q) (hP : ∀ s, P' s → P s) (hQ : ∀ s, Q s → Q' s) :
    Drives dev ok P' ws Q' := fun s hs bs hbs hok => hQ _ (h s (hP s hs) bs hbs hok)

/-- Writes that lead back to where they began can be repeated. -/
theorem Drives.replicate (h : Drives dev ok P ws P) (n : ℕ) :
    Drives dev ok P (List.replicate n ws).flatten P := by
  induction n with
  | zero => exact .nil fun _ => id
  | succ n ih => exact h.append ih

/-- A fact about no state may be used to show the rest. -/
theorem Drives.pure {p : Prop} (h : p → Drives dev ok P ws Q) :
    Drives dev ok (fun s => p ∧ P s) ws Q := fun s hs => h hs.1 s hs.2

/-- The same input of the device at every write. -/
@[simp] theorem map_fst_constantly (ws : List α) (n : ν) :
    (ws.map fun w => (w, n)).map Prod.fst = ws := by
  rw [List.map_map]
  exact List.map_id ws

/-! ## Drivers -/

variable {δ κ τ : Type*}

/-- A driver answers the calls `ks` one after the other: all it writes, and the state it ends in. -/
def emit (f : δ → κ → List α × δ) : δ → List κ → List α × δ
  | d, [] => ([], d)
  | d, k :: ks => ((f d k).1 ++ (emit f (f d k).2 ks).1, (emit f (f d k).2 ks).2)

/-- **Refinement, call by call.** `A` relates the state of the driver and that of the abstract device
to the device. -/
theorem Drives.emit {f : δ → κ → List α × δ} {abs : τ → κ → τ} {A : δ → τ → σ → Prop}
    {C : κ → Prop} (h : ∀ d t k, C k → Drives dev ok (A d t) (f d k).1 (A (f d k).2 (abs t k)))
    (d : δ) (t : τ) {ks : List κ} (hks : ∀ k ∈ ks, C k) :
    Drives dev ok (A d t) (Machine.emit f d ks).1 (A (Machine.emit f d ks).2 (run abs t ks)) := by
  induction ks generalizing d t with
  | nil => exact .nil fun _ => id
  | cons k ks ih =>
    exact (h d t k (hks k List.mem_cons_self)).append
      (ih _ _ fun k' hk' => hks k' (List.mem_cons_of_mem k hk'))

end Machine
