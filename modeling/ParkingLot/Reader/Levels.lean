import ParkingLot.Reader.Select
import Mathlib.Tactic.SplitIfs

/-!
# What the cascade levels depend on

* `selectLoop_fuel`: the anticollision loop of `PICC_Select` ends within its 33 turns.
* `levels`, **`cascade_eq`**: without known bits the exchange with the card does not depend on the
  `Uid`; its levels are fixed by the answers of the chip, and then written to the `Uid` in order.
-/

namespace ParkingLot

theorem spi_bind {α β : Type} (x : Spi α) (f : α → Spi β) (b : Bus) :
    (x >>= f) b = f (x b).1 (x b).2 := rfl

theorem spi_pure {α : Type} (a : α) (b : Bus) : (pure a : Spi α) b = (a, b) := rfl

theorem spi_ext {α : Type} {x y : Spi α} (h : ∀ b : Bus, x b = y b) : x = y := funext h

/-! ## The anticollision loop ends -/

theorem collisionPos_le (result : UInt8) : collisionPos result ≤ 32 := by
  unfold collisionPos
  split_ifs
  · exact Nat.le_refl _
  · rw [UInt8.toNat_and]
    exact Nat.le_trans Nat.and_le_right (by decide)

/-- A collision leads on only with more bits known, and never with more than 32. -/
theorem collided_again {buffer buffer' : List UInt8} {known known' : ℕ} {b : Bus}
    (h : (collided buffer known b).1 = .again buffer' known') : known < known' ∧ known' ≤ 32 := by
  simp only [collided, spi_bind] at h
  split at h
  · simp [spi_pure] at h
  · split at h
    · simp [spi_pure] at h
    · next hlt =>
      simp only [spi_pure, Turn.again.injEq] at h
      rw [← h.2]
      exact ⟨by omega, collisionPos_le _⟩

theorem answered_again {known known' : ℕ} {onOk : Selected → Turn} {result : StatusCode}
    {r : Selected} {buffer' : List UInt8} {b : Bus}
    (h : (answered known onOk result r b).1 = .again buffer' known') :
    known < known' ∧ known' ≤ 32 ∨ onOk r = .again buffer' known' := by
  unfold answered at h
  split_ifs at h
  · exact Or.inl (collided_again h)
  · simp [spi_pure] at h
  · exact Or.inr h

theorem selectStep_again {buffer buffer' : List UInt8} {known known' : ℕ} {b : Bus}
    (h : (selectStep buffer known b).1 = .again buffer' known') : known < known' ∧ known' ≤ 32 := by
  unfold selectStep at h
  split_ifs at h with hk
  · simp only [selectTurn, spi_bind] at h
    generalize pcdCalculateCRC _ b = x at h
    obtain ⟨crc, b'⟩ := x
    cases crc with
    | error e => simp [spi_pure] at h
    | ok crc =>
      rcases answered_again h with h | h
      · exact h
      · cases h
  · simp only [anticollisionTurn, spi_bind] at h
    rcases answered_again h with h | h
    · exact h
    · cases h
      omega

/-- **The anticollision loop does not run out of turns.** -/
theorem selectLoop_fuel (n m : ℕ) (buffer : List UInt8) (known : ℕ) (hn : 33 ≤ n + min known 32)
    (hm : 33 ≤ m + min known 32) : selectLoop n buffer known = selectLoop m buffer known := by
  induction n generalizing m buffer known with
  | zero => omega
  | succ n ih =>
    obtain ⟨m, rfl⟩ : ∃ k, m = k + 1 := ⟨m - 1, by omega⟩
    refine spi_ext fun b => ?_
    simp only [selectLoop, spi_bind]
    cases h : (selectStep buffer known b).1 with
    | done r => rfl
    | fail e => rfl
    | again buffer' known' =>
      have := selectStep_again h
      exact congrFun (ih m buffer' known' (by omega) (by omega)) _

/-! ## Levels without known bits -/

/-- Without known bits a level does not look at the `Uid`. -/
theorem selectLevel_zero (u v : Uid) (level : ℕ) (buffer : List UInt8) :
    selectLevel u 0 level buffer = selectLevel v 0 level buffer := by
  have h : levelStart u 0 level buffer = levelStart v 0 level buffer := by
    have ht : ∀ w : Uid, useCascadeTag w 0 level = false := fun w => by
      unfold useCascadeTag; split <;> simp
    simp [levelStart, ht]
  unfold selectLevel
  rw [h]

/-- The levels of a select without known bits, with `n` of them left. -/
def levels : ℕ → List UInt8 → Spi (List Level)
  | 0, _ => pure []
  | n + 1, buffer => do
    let l ← selectLevel Uid.init 0 (3 - n) buffer
    match l with
    | .copied _ (.ok (buffer, sak)) =>
      if sak &&& 0x04 ≠ 0 then do
        let ls ← levels n buffer
        pure (l :: ls)
      else pure [l]
    | _ => pure [l]

/-- The levels are written to the `Uid`, from level `4 - n` on. -/
def store : ℕ → Uid → List Level → StatusCode × Uid
  | 0, u, _ => (.internalError, u)
  | _ + 1, u, [] => (.internalError, u)
  | _ + 1, u, .failed e :: _ => (e.1, u)
  | n + 1, u, .copied data (.error e) :: _ => (e.1, u.copy (uidIndex (3 - n)) data.bytes)
  | n + 1, u, .copied data (.ok (_, sak)) :: ls =>
    let u := u.copy (uidIndex (3 - n)) data.bytes
    if sak &&& 0x04 ≠ 0 then store n u ls
    else (.ok, { u with sak := sak, size := 3 * (3 - n) + 1, size_le := level_size_le n })

/-- **The answers of the chip fix the levels; the `Uid` is only written.** -/
theorem cascade_eq (n : ℕ) (u : Uid) (buffer : List UInt8) (b : Bus) :
    cascade 0 n u buffer b = (store n u (levels n buffer b).1, (levels n buffer b).2) := by
  induction n generalizing u buffer b with
  | zero => rfl
  | succ n ih =>
    simp only [cascade, levels, spi_bind, selectLevel_zero u Uid.init]
    generalize selectLevel Uid.init 0 (3 - n) buffer b = x
    obtain ⟨l, b'⟩ := x
    cases l with
    | failed e => rfl
    | copied data outcome =>
      cases outcome with
      | error e => rfl
      | ok o =>
        obtain ⟨buffer', sak⟩ := o
        dsimp only
        split_ifs with h
        · simp only [spi_bind, spi_pure, store, if_pos h]
          exact ih _ _ _
        · simp [spi_pure, store, if_neg h]

end ParkingLot
