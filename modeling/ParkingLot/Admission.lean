import ParkingLot.Reader.Collisions
import ParkingLot.OwnRead
import ParkingLot.Scan

/-!
# From the air to the decision

A card in the field answers REQA, is singled out and read, and main decides about it: the whole way
from the frames to `openProcedure` or `intruderProcedure`, with handlers in between.

* `AtqaAnswers`, `talks_isNewCardPresent`: cards answer REQA.
* `idOf`: the string of the bytes of a UID.
* `Identified`: main holds what will be the string of the card, or scans the list for it.
* **`decides_on_card`**: main decides about the card that was singled out, by the list as it is at the
  moment of the decision.
-/

namespace ParkingLot

open Machine

/-! ## REQA -/

/-- The answers of the chip to a REQA: two bytes of ATQA, with a collision when cards differ in
them, or nothing. -/
inductive AtqaAnswers : Bool → List UInt8 → Prop
  | silence {coll : UInt8} {ins : List UInt8} : Answers 0x07 .silence ins →
    AtqaAnswers false ([coll] ++ ins)
  | clear {coll : UInt8} {data ins : List UInt8} : data.length = 2 → Answers 0x07 (.clear data) ins →
    AtqaAnswers true ([coll] ++ ins)
  | collision {coll lastBits : UInt8} {data ins : List UInt8} : data.length ≤ 2 →
    Answers 0x07 (.collision data lastBits) ins → AtqaAnswers true ([coll] ++ ins)

theorem talks_requestA {coll : UInt8} {rec : Reception} {ins bufferATQA : List UInt8}
    {r : StatusCode × Back} (h : Answers 0x07 rec ins) (hfit : rec.Fits 2)
    (hr : Talks (let x := rec.exchange bufferATQA 2 7 0
      let back := x.back.getD ⟨bufferATQA, 2⟩
      if x.status ≠ .ok then pure (x.status, back)
      else if back.len ≠ 2 ∨ x.validBits ≠ some 0 then pure (.error, back)
      else pure (.ok, back)) [] [] r) :
    Talks (piccRequestA ⟨bufferATQA, 2⟩) ([coll] ++ ins) [airBits [piccCmdREQA] 7] r := by
  have hx : Talks (pcdTransceiveData [piccCmdREQA] (some ⟨bufferATQA, 2⟩) (some 7) 0 false) ins
      [airBits [piccCmdREQA] 7] (rec.exchange bufferATQA 2 7 0) :=
    talks_transceive (r := 0) (t := 7) h hfit
  rw [piccRequestA, piccREQAorWUPA, if_neg (Nat.lt_irrefl 2)]
  exact (talks_clrBits coll).bind (hx.bind_silent hr)

/-- **A REQA finds out whether a card answers.** It is one frame of seven bits. -/
theorem talks_isNewCardPresent {b : Bool} {ins : List UInt8} (h : AtqaAnswers b ins)
    (bufferATQA : List UInt8) :
    Talks (piccIsNewCardPresent bufferATQA) ins [airBits [piccCmdREQA] 7] b := by
  cases h with
  | silence ha =>
    exact (talks_requestA ha trivial (Listener.Talks.pure _)).bind_silent (Listener.Talks.pure _)
  | @clear coll data ins hlen ha =>
    have hr : Talks (piccRequestA ⟨bufferATQA, 2⟩) ([coll] ++ ins) [airBits [piccCmdREQA] 7]
        (.ok, ⟨stored 0 bufferATQA data, data.length⟩) := by
      refine talks_requestA ha (Nat.le_of_eq hlen) ?_
      simp only [Reception.exchange, Option.getD_some, hlen]
      exact Listener.Talks.pure _
    exact hr.bind_silent (Listener.Talks.pure _)
  | @collision coll lastBits data ins hlen ha =>
    exact (talks_requestA ha hlen (Listener.Talks.pure _)).bind_silent (Listener.Talks.pure _)

/-! ## The string of a card -/

/-- What `getCardID` makes of the bytes of a UID. -/
def idOf (bytes : List UInt8) : String := bytes.foldl (fun s b => s ++ sprintfX b) ""

theorem getCardID_of_bytes {u : Uid} {bytes : List UInt8} (h : u.bytes = bytes) :
    getCardID u = idOf bytes := by
  rw [idOf, ← h, getCardID, cardIDUpTo, Uid.bytes, List.foldl_map]

/-! ## From the read to the decision -/

/-- The points of `getCardID` and of `checkList`. -/
def PC.Identifying (p : PC) : Prop := p.Formatting ∨ p.Scanning

instance (p : PC) : Decidable p.Identifying := inferInstanceAs (Decidable (_ ∨ _))

theorem flow_scanning : ∀ p : PC, ¬ p.Scanning → ∀ q ∈ p.flow, q.Scanning → q = .scanInit := by
  decide +kernel

theorem flow_formatted : ∀ p : PC, p.Formatting → ¬ p.Scanning → ∀ q ∈ p.flow, q.Formatting := by
  decide +kernel

/-- The string that main holds, or will hold, is `id`, and a scan of the list is a scan for it. -/
structure Identified (id : String) (t : Main × Globals) : Prop where
  formatting : t.1.pc.Formatting → Prophecy id t.1 t.2.uid
  scanning : t.1.pc.Scanning → Scanned id [] t.1 t.2

theorem scanned_start {id : String} {m : Main} {g : Globals} (hpc : m.pc = .scanInit)
    (h : Prophecy id m g.uid) : Scanned id [] m g := by
  have hn : scanned m = 0 := by rw [scanned, hpc]
  refine ⟨by rw [hpc]; trivial, ?_, List.nil_prefix, by rw [hn]; exact Nat.zero_le _,
    fun hc => PC.noConfusion (hpc.symm.trans hc), by rw [hn, List.take_zero]; exact List.not_mem_nil⟩
  rw [← h.1, toBe, soFar, remaining, hpc]
  rfl

/-- **A step keeps the string**, if no handler changes the bytes still to be formatted. -/
theorem identified_next {id : String} (t : Main × Globals) (a : Label)
    (hok : t.1.pc.Identifying ∧ Undisturbed t a) (h : Identified id t) : Identified id (next t a) := by
  obtain ⟨m, g⟩ := t
  obtain ⟨hid, hu⟩ := hok
  obtain e | x := a
  · rw [next_main]
    have hne : m.pc ≠ .readCard := by
      intro hpc
      rw [hpc] at hid
      rcases hid with hid | hid <;> exact hid
    have hflow := mainStep_flow m g e
    have hformat : (mainStep m g e).1.pc.Formatting →
        Prophecy id (mainStep m g e).1 (mainStep m g e).2.uid := by
      intro hm'
      by_cases hm : m.pc.Formatting
      · rw [mainStep_uid, if_neg hne]
        exact prophecy_mainStep e (h.formatting hm) hm hm'
      · exact absurd (flow_formatting m.pc hm _ hflow hm').1 hne
    refine ⟨hformat, fun hm' => ?_⟩
    by_cases hm : m.pc.Scanning
    · rcases mainStep_scan e (h.scanning hm) with ⟨h1, -⟩ | ⟨hpc, -⟩ | ⟨hpc, -⟩
      · exact h1
      · rw [hpc] at hm'
        exact hm'.elim
      · rw [hpc] at hm'
        exact hm'.elim
    · have hq := flow_scanning m.pc hm _ hflow hm'
      refine scanned_start hq (hformat ?_)
      rw [hq]
      trivial
  · exact ⟨fun hm => (h.formatting hm).of_remaining hu,
      fun hm => (h.scanning hm).append <| handle_prefix g x⟩

/-- A successful read of a card. -/
theorem identified_read {crc : Checksum} {cards : List Card} {frames : List Frame} {c : Card}
    {t : Main × Globals} (hpc : t.1.pc = .readCard) {e : Env} (hb : e.buffer.length = 9)
    (h : FieldAnswers crc cards frames (some c) e.responses) :
    (next t (.inl e)).1.pc = .idClear ∧ Identified (idOf (c.stored t.2.uid)) (next t (.inl e)) := by
  obtain ⟨m, g⟩ := t
  have hread := h.readsCard g.uid hb
  have hq : (mainStep m g e).1.pc = .idClear := by
    have hm : m.pc = .readCard := hpc
    rw [mainStep_pc, hm]
    simp only [hread.result, Option.isSome_some, if_true]
  rw [next_main]
  refine ⟨hq, fun _ => ⟨?_, fun hc => PC.noConfusion (hq.symm.trans hc)⟩, fun hs => ?_⟩
  · rw [toBe_idClear _ hq, mainStep_uid, if_pos hpc]
    exact getCardID_of_bytes (hread.uid c rfl).2.1
  · rw [hq] at hs
    exact hs.elim

theorem run_handlers (t : Main × Globals) (hs : List Handler) :
    (run next t (hs.map .inr)).1 = t.1 := by
  induction hs generalizing t with
  | nil => rfl
  | cons h hs ih => exact ih _

/-- An answered REQA. -/
theorem pc_of_answered {t : Main × Globals} (hpc : t.1.pc = .newCard) {e : Env}
    (h : AtqaAnswers true e.responses) : (next t (.inl e)).1.pc = .readCard := by
  obtain ⟨m, g⟩ := t
  obtain ⟨outs, hrun, -⟩ := (talks_isNewCardPresent h e.bufferATQA).run ⟨[], 0⟩
  have hp : (piccIsNewCardPresent e.bufferATQA (Bus.of e.responses)).1 = true :=
    congrArg Prod.fst hrun
  have hm : m.pc = .newCard := hpc
  rw [next_main, mainStep_pc, hm]
  simp only [hp, if_true]

/-- **Main decides about the card that was singled out.** Cards answer REQA, handlers may run, and
of the cards in the field `c` is singled out. Then `c` is in the field, and in every run through
`getCardID` and `checkList` in which no handler changes the bytes still to be formatted, the
statement that ends the scan leads to `openProcedure` if the string of `c` is on the list at that
moment, and to `intruderProcedure` if it is not. The string is that of the UID, unless the last four
bytes begin like a cascade tag: then it is that of the bytes that are stored over `u`. -/
theorem decides_on_card {crc : Checksum} {cards : List Card} {frames : List Frame} {c : Card}
    {t : Main × Globals} (hpc : t.1.pc = .newCard) (e₀ e : Env)
    (h₀ : AtqaAnswers true e₀.responses) (hs : List Handler) (hb : e.buffer.length = 9)
    (h : FieldAnswers crc cards frames (some c) e.responses) (as : List Label)
    (has : Legal next (fun t a => t.1.pc.Identifying ∧ Undisturbed t a)
      (run next t (.inl e₀ :: hs.map .inr ++ [.inl e])) as) (e' : Env) :
    let u := (run next t (.inl e₀ :: hs.map .inr)).2.uid
    let t' := run next t (.inl e₀ :: hs.map .inr ++ [.inl e] ++ as)
    c ∈ cards ∧ (c.Tagged ∨ c.stored u = c.uid) ∧
      (t'.1.pc.Identifying → ¬ (mainStep t'.1 t'.2 e').1.pc.Identifying →
      ((mainStep t'.1 t'.2 e').1.pc = .openGuard ↔ idOf (c.stored u) ∈ t'.2.idList) ∧
      ((mainStep t'.1 t'.2 e').1.pc = .denyLed .red ↔ idOf (c.stored u) ∉ t'.2.idList)) := by
  intro u t'
  -- main is at `idClear`, with the UID of `c`
  have hread : (run next t (.inl e₀ :: hs.map .inr)).1.pc = .readCard := by
    rw [run_cons, run_handlers]
    exact pc_of_answered hpc h₀
  obtain ⟨hclear, hid⟩ := identified_read hread hb h
  have hstart : run next t (.inl e₀ :: hs.map .inr ++ [.inl e]) =
      next (run next t (.inl e₀ :: hs.map .inr)) (.inl e) := by
    rw [run_append]
    rfl
  have ht' : Identified (idOf (c.stored u)) t' := by
    have hrun : t' = run next (run next t (.inl e₀ :: hs.map .inr ++ [.inl e])) as :=
      run_append ..
    rw [hrun]
    refine legal_induction identified_next ?_ has
    rw [hstart]
    exact hid
  refine ⟨((h.readsCard Uid.init hb).uid c rfl).1, ?_, fun hin hout => ?_⟩
  · exact or_iff_not_imp_left.mpr fun hc => if_neg hc
  · have hflow := mainStep_flow t'.1 t'.2 e'
    by_cases hscan : t'.1.pc.Scanning
    · rcases mainStep_scan e' (ht'.scanning hscan) with ⟨h1, -⟩ | ⟨hq, hmem⟩ | ⟨hq, hmem⟩
      · exact absurd (Or.inr h1.scanning) hout
      · refine ⟨iff_of_true hq hmem, iff_of_false ?_ (not_not.mpr hmem)⟩
        rw [hq]
        decide
      · refine ⟨iff_of_false ?_ hmem, iff_of_true hq hmem⟩
        rw [hq]
        decide
    · rcases hin with hformat | hs'
      · exact absurd (Or.inl (flow_formatted _ hformat hscan _ hflow)) hout
      · exact absurd hs' hscan

/-! ## One card with a UID of four bytes -/

/-- The checksum of a coprocessor that `selectAnswers` are the answers of. -/
def selectChecksum : Checksum := fun data => if data = [0x08] then (0xB6, 0xDD) else (0, 0)

/-- **`selectAnswers` are the answers of a field with one card.** -/
theorem fieldAnswers_plain (a b c d : UInt8) :
    FieldAnswers selectChecksum [plainCard a b c d]
      [anticollisionFrame 1 (fun _ => false) 0, selectFrame selectChecksum 1 [a, b, c, d]]
      (some (plainCard a b c d)) (selectAnswers a b c d) := by
  have hw : [a, b, c, d] ∈ blocks 1 [plainCard a b c d] := ⟨_, List.mem_cons_self, rfl⟩
  have hcarries : Carries 0 32 [a, b, c, d] [a, b, c, d, a ^^^ b ^^^ c ^^^ d] :=
    carries_drop rfl 0 32 (Nat.le_refl _)
  have halone : Alone bitAt (blocks 1 [plainCard a b c d]) (fun _ => false) 0 32 [a, b, c, d] := by
    refine ⟨hw, nofun, fun v hv _ i _ => ?_⟩
    obtain ⟨c', hc', rfl⟩ := hv
    rw [List.mem_singleton.mp hc']
    rfl
  have hbits : ∀ i < 32, bitAt [a, b, c, d] i =
      received 0 (fun _ => false) [a, b, c, d, a ^^^ b ^^^ c ^^^ d] i :=
    fun i hi => (hcarries.bit_eq i (Nat.zero_le i) hi).symm
  have hsak : ∀ c' ∈ [plainCard a b c d], c'.block 1 = [a, b, c, d] → c'.sakAt 1 = 0x08 := by
    intro c' hc' _
    rw [List.mem_singleton.mp hc']
    rfl
  have hselect : CrcAnswers selectChecksum (selectBytes 1 [a, b, c, d]) ([0] ++ ([0x04] ++ [0, 0])) :=
    @CrcAnswers.done _ _ 0 [0x04] (.hit (by decide))
  have hcrc : CrcAnswers selectChecksum [0x08] ([0] ++ ([0x04] ++ [0xB6, 0xDD])) :=
    @CrcAnswers.done _ _ 0 [0x04] (.hit (by decide))
  have hfirst : Answers (framing 0) (.clear [a, b, c, d, a ^^^ b ^^^ c ^^^ d])
      ([0] ++ ([0] ++ ([0x30] ++ ([0] ++ ([5] ++ ([a, b, c, d, a ^^^ b ^^^ c ^^^ d] ++ [0])))))) :=
    @Answers.clear _ 0 0 0 [0x30] _ (.hit (by decide)) (by decide) (by decide) (by decide)
      (show 5 < 256 by decide)
  have hlast : Answers (framing 0) (.clear [0x08, 0xB6, 0xDD])
      ([0] ++ ([0] ++ ([0x30] ++ ([0] ++ ([3] ++ ([0x08, 0xB6, 0xDD] ++ [0])))))) :=
    @Answers.clear _ 0 0 0 [0x30] _ (.hit (by decide)) (by decide) (by decide) (by decide) (by decide)
  exact @FieldAnswers.intro _ _ _ _ 0 _ (.last
    (.clear (by decide) halone hcarries hfirst (.selected rfl hbits hw hsak hselect hlast))
    (mem_chosen.mpr ⟨List.mem_cons_self, rfl⟩) (by decide) hcrc)

/-- From the head of the loop to `PICC_IsNewCardPresent`. -/
def looking : Main × Globals := run next (LoopEntry.boot { distance := 100 }).state (stay 4 0 0)

theorem decides_on_card_plain :
    let e₀ : Env := { responses := [0, 0, 7, 0x30, 0, 2, 0x04, 0x00, 0], bufferATQA := [0, 0] }
    let e : Env := { responses := selectAnswers 0x12 0x34 0x56 0x78, buffer := List.replicate 9 0 }
    let t' := run next looking (.inl e₀ :: [Handler.fish true].map .inr ++ [.inl e] ++ stay 22 0 0)
    (mainStep t'.1 t'.2 {}).1.pc = .denyLed .red ↔ "12345678" ∉ t'.2.idList := by
  have ha : AtqaAnswers true [0, 0, 7, 0x30, 0, 2, 0x04, 0x00, 0] :=
    @AtqaAnswers.clear 0 [0x04, 0x00] _ rfl
      (@Answers.clear _ 0 0 0 [0x30] _ (.hit (by decide)) (by decide) (by decide) (by decide) (by decide))
  have h := decides_on_card (t := looking) (by decide +kernel)
    { responses := [0, 0, 7, 0x30, 0, 2, 0x04, 0x00, 0], bufferATQA := [0, 0] }
    { responses := selectAnswers 0x12 0x34 0x56 0x78, buffer := List.replicate 9 0 } ha
    [.fish true] rfl (fieldAnswers_plain 0x12 0x34 0x56 0x78) (stay 22 0 0)
    (by decide +kernel) {}
  exact (h.2.2 (by decide +kernel) (by decide +kernel)).2

end ParkingLot
