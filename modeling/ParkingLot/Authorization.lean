import ParkingLot.System

/-!
# The authorized list and the gate

* **`idList_invariant`**: the master card stays first on the list, no string is on it twice, and
  nothing ever leaves it.
* **`gate_authorised`**: the gate opens only for a string that `checkList` found, while there is a
  free spot; and every string on the list is the master ID or was enrolled after a read of it.
-/

namespace ParkingLot

open Machine

theorem idList_prefix (s : LoopEntry) (as bs : List Label) :
    (run next s.state as).2.idList <+: (run next s.state (as ++ bs)).2.idList := by
  rw [roster_run s (as ++ bs), roster_run s as, enrolments_append, run_append]
  exact Roster.prefix_run _ _

/-- **The authorized list only ever grows.** After every run from the loop entry the list starts
with the master ID and repeats no string, and after every continuation it is a prefix of the list
then. -/
theorem idList_invariant (s : LoopEntry) (as bs : List Label) :
    let l := (run next s.state as).2.idList
    let l' := (run next s.state (as ++ bs)).2.idList
    l.head? = some masterID ∧ l.Nodup ∧ l <+: l' ∧
      ∀ cardID, checkList cardID l = true → checkList cardID l' = true := by
  have hl := roster_run s as
  have hp := idList_prefix s as bs
  refine ⟨hl ▸ Roster.head_eq _, hl ▸ Roster.nodup _, hp, fun cardID h => ?_⟩
  exact checkList_iff.mpr (hp.subset (checkList_iff.mp h))

/-! ## The way to the gate -/

/-- The points between a successful `checkList` and `gate_open`. -/
def PC.Accepted : PC → Prop
  | .openGuard | .openCountInit | .openReset | .openStart | .openLed _ | .openGate => True
  | _ => False

/-- The points between the guard of `openProcedure` and `gate_open`. -/
def PC.Guarded : PC → Prop
  | .openCountInit | .openReset | .openStart | .openLed _ | .openGate => True
  | _ => False

instance (p : PC) : Decidable p.Accepted := by
  apply PC.casesOn (motive := fun p => Decidable p.Accepted) p <;> intros <;>
    first | exact instDecidableTrue | exact instDecidableFalse

instance (p : PC) : Decidable p.Guarded := by
  apply PC.casesOn (motive := fun p => Decidable p.Guarded) p <;> intros <;>
    first | exact instDecidableTrue | exact instDecidableFalse

theorem flow_accepted : ∀ p : PC, ¬ p.Accepted → ∀ q ∈ p.flow, q.Accepted →
    p = .scanCompare ∧ q = .openGuard := by decide +kernel

theorem flow_guarded : ∀ p : PC, ¬ p.Guarded → ∀ q ∈ p.flow, q.Guarded →
    p = .openGuard ∧ q = .openCountInit := by decide +kernel

theorem flow_scanCompare : ∀ p : PC, .scanCompare ∈ p.flow → p = .scanTest := by decide +kernel

def InRange (m : Main) (g : Globals) : Prop := m.pc = .scanCompare → m.i < g.idList.length

/-- The only comparison that `checkList` makes is in range. -/
theorem inRange_mainStep {m : Main} {g : Globals} (e : Env) :
    InRange (mainStep m g e).1 (mainStep m g e).2 := by
  intro h
  have hpc : m.pc = .scanTest := flow_scanCompare _ (h ▸ mainStep_flow m g e)
  have hi : m.i < g.idList.length := by simpa [mainStep_pc, hpc] using h
  rw [mainStep_i, mainStep_idList, hpc, if_neg (by decide)]
  exact hi

theorem inRange_run (s : LoopEntry) (as : List Label) :
    InRange (run next s.state as).1 (run next s.state as).2 := by
  induction as using List.reverseRecOn with
  | nil =>
    intro h
    rw [run_nil, s.state_pc] at h
    exact PC.noConfusion h
  | append_singleton as a ih =>
    have hl := idList_prefix s as [a]
    rw [run_append, run_cons, run_nil] at hl ⊢
    revert hl ih
    generalize run next s.state as = t
    obtain ⟨m, g⟩ := t
    intro ih hl
    obtain e | h := a
    · exact inRange_mainStep e
    · exact fun hpc => (ih hpc).trans_le hl.length_le

/-- Behind an accepting `checkList` main holds a string that was on the list when it was found. -/
theorem accepted_since (s : LoopEntry) {as : List Label}
    (h : (run next s.state as).1.pc.Accepted) :
    ∃ pre e post, as = pre ++ .inl e :: post ∧
      let t := run next s.state pre
      t.1.pc = .scanCompare ∧ t.1.currentCardID ∈ t.2.idList ∧
        (run next s.state as).1.currentCardID = t.1.currentCardID ∧
        Legal next (fun t _ => t.1.pc.Accepted) (next t (.inl e)) post := by
  have h0 : ¬ s.state.1.pc.Accepted := by
    rw [s.state_pc]
    exact id
  obtain ⟨pre, a, post, rfl, h1, h2, h3⟩ :=
    run_since (Q := fun t : Main × Globals => t.1.pc.Accepted) h0 h
  have hrange := inRange_run s pre
  revert h1 h2 h3 hrange
  generalize ht : run next s.state pre = t
  obtain ⟨m, g⟩ := t
  intro h1 h2 h3 hrange
  -- only a statement of main enters the region
  obtain e | ha := a
  · rw [next_main] at h2
    obtain ⟨hpc, hq⟩ := flow_accepted m.pc h1 _ (mainStep_flow m g e) h2
    have hfound : m.currentCardID = g.idList.getD m.i "" := by
      simpa [mainStep_pc, hpc] using hq
    refine ⟨pre, e, post, rfl, ?_⟩
    simp only [run_append, run_cons, ht]
    refine ⟨hpc, ?_, ?_, h3⟩
    · rw [hfound, List.getD_eq_getElem _ _ (hrange hpc)]
      exact List.getElem_mem _
    · refine legal_induction (I := fun t => t.1.currentCardID = m.currentCardID) ?_ ?_ h3
      · rintro ⟨m', g'⟩ (e' | h') hok hI
        · refine Eq.trans ?_ hI
          rw [next_main, mainStep_currentCardID]
          cases hpc' : m'.pc <;> first | rfl | (rw [hpc'] at hok; exact hok.elim)
        · exact hI
      · rw [next_main, mainStep_currentCardID, hpc]
  · exact absurd h2 h1

/-- Behind the guard of `openProcedure` there is a free spot until the gate is open. -/
theorem guarded_pos (s : LoopEntry) {as : List Label} (h : (run next s.state as).1.pc.Guarded) :
    0 < (run next s.state as).2.avaliableSpots := by
  have h0 : ¬ s.state.1.pc.Guarded := by
    rw [s.state_pc]
    exact id
  obtain ⟨pre, a, post, rfl, h1, h2, h3⟩ :=
    run_since (Q := fun t : Main × Globals => t.1.pc.Guarded) h0 h
  rw [run_append, run_cons]
  revert h1 h2 h3
  generalize run next s.state pre = t
  obtain ⟨m, g⟩ := t
  intro h1 h2 h3
  refine legal_induction (I := fun t => 0 < t.2.avaliableSpots) ?_ ?_ h3
  · rintro ⟨m', g'⟩ (e' | pin | r) hok hI
    · rw [next_main, mainStep_avaliableSpots]
      cases hpc' : m'.pc <;> first | exact hI | (rw [hpc'] at hok; exact hok.elim)
    · change 0 < g'.avaliableSpots at hI
      rw [next_handler, handle_fish]
      split_ifs
      · exact Int.lt_add_one_of_le hI.le
      · exact hI
    · rw [next_handler, handle_register_spots]
      exact hI
  · obtain e | ha := a
    · rw [next_main] at h2
      obtain ⟨hpc, hq⟩ := flow_guarded m.pc h1 _ (mainStep_flow m g e) h2
      have hpos : 0 < g.avaliableSpots := by simpa [mainStep_pc, hpc] using hq
      rw [next_main, mainStep_avaliableSpots, hpc]
      exact hpos
    · exact absurd h2 h1

/-! ## Where an entry comes from -/

/-- A string on the list that the master card is not was put there by a session, after the session
had read the master card. -/
theorem enrolled_by (s : LoopEntry) {as : List Label} {id : String} (hid : id ≠ masterID)
    (h : id ∈ (run next s.state as).2.idList) :
    ∃ pre r post, as = pre ++ .inr (.register r) :: post ∧
      let t := run next s.state pre
      id ∉ t.2.idList ∧ id ∈ (next t (.inr (.register r))).2.idList ∧
        ∃ before, before ++ [.enrol id] <+: (registerISR r t.2).2 ∧ MasterRead before := by
  have h0 : id ∉ s.state.2.idList := by
    rw [LoopEntry.state, s.idList_eq]
    simpa using hid
  obtain ⟨pre, a, post, rfl, h1, h2, -⟩ :=
    run_since (Q := fun t : Main × Globals => id ∈ t.2.idList) h0 h
  have hR : Listed (run next s.state pre) (run Roster.enrol (Roster.found masterID)
      (enrolments s.state pre)) := ⟨not_booting s pre, roster_run s pre⟩
  have hmem : id ∈ enrolledBy (run next s.state pre) a := by
    rw [(tracks_roster _ _ a hR).2, Roster.mem_run, ← hR.2] at h2
    exact h2.resolve_left h1
  obtain e | pin | r := a
  · exact absurd hmem List.not_mem_nil
  · exact absurd hmem List.not_mem_nil
  · refine ⟨pre, r, post, rfl, h1, h2, ?_⟩
    rw [enrolledBy] at hmem
    split_ifs at hmem
    · obtain ⟨before, after, hacts⟩ := List.append_of_mem (mem_enrolled.mp hmem)
      have hp : before ++ [.enrol id] <+: (registerISR r (run next s.state pre).2).2 :=
        ⟨after, by rw [hacts, List.append_assoc]; rfl⟩
      exact ⟨before, hp, (registerISR_sound r _ _ hR.2).2 before id hp⟩
    · exact absurd hmem List.not_mem_nil

/-- **Provenance.** When main is about to open the gate there is a free spot, and its string was on
the list when `checkList` found it, in the same turn of the loop. And every string on the list is
the master ID, or was put there by a session that had computed the master ID from a card it had
read. -/
theorem gate_authorised (s : LoopEntry) (as : List Label) :
    ((run next s.state as).1.pc = .openGate →
      0 < (run next s.state as).2.avaliableSpots ∧
        ∃ pre e post, as = pre ++ .inl e :: post ∧
          let t := run next s.state pre
          t.1.pc = .scanCompare ∧ t.1.currentCardID ∈ t.2.idList ∧
            (run next s.state as).1.currentCardID = t.1.currentCardID ∧
            Legal next (fun t _ => t.1.pc.Accepted) (next t (.inl e)) post) ∧
    ∀ id ∈ (run next s.state as).2.idList, id = masterID ∨
      ∃ pre r post, as = pre ++ .inr (.register r) :: post ∧
        let t := run next s.state pre
        id ∉ t.2.idList ∧ id ∈ (next t (.inr (.register r))).2.idList ∧
          ∃ before, before ++ [.enrol id] <+: (registerISR r t.2).2 ∧ MasterRead before := by
  constructor
  · intro h
    refine ⟨guarded_pos s ?_, accepted_since s ?_⟩ <;> rw [h] <;> exact trivial
  · intro id h
    by_cases hid : id = masterID
    · exact Or.inl hid
    · exact Or.inr (enrolled_by s hid h)

end ParkingLot
