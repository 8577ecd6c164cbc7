import ParkingLot.Reader.Field
import ParkingLot.Reader.Levels

/-!
# The driver plays its part

The anticollision loop against the cards in the field: on the answers of a course it sends the frames
of the course and ends as the course does.

* `Holds`: what the anticollision buffer holds at the head of the loop.
* `talks_anticollisionTurn`, `talks_selectTurn`: one turn.
* **`talks_selectLoop`**: the loop of one level follows every `Course`.
* `talks_selectLevel`, `talks_selectLevel_lost`: one cascade level.
-/

namespace ParkingLot

open Machine

/-! ## The buffer -/

/-- The buffer at the head of the loop: SEL, and from byte 2 on the known bits. -/
structure Holds (level : ℕ) (buffer : List UInt8) (k : ℕ) (p : ℕ → Bool) : Prop where
  length_eq : buffer.length = 9
  sel : buffer.getD 0 0 = selCommand level
  bit_eq : ∀ i < k, bitAt buffer (16 + i) = p i

/-- The UID bytes in the buffer. -/
def uidBytes (buffer : List UInt8) : List UInt8 :=
  [buffer.getD 2 0, buffer.getD 3 0, buffer.getD 4 0, buffer.getD 5 0]

theorem bitAt_uidBytes (buffer : List UInt8) {i : ℕ} (hi : i < 32) :
    bitAt (uidBytes buffer) i = bitAt buffer (16 + i) := by
  rw [bitAt, bitAt, show (16 + i) / 8 = i / 8 + 2 by omega, show (16 + i) % 8 = i % 8 by omega]
  congr 2
  have : i / 8 < 4 := by omega
  interval_cases i / 8 <;> rfl

theorem Holds.uidBytes_eq {level : ℕ} {buffer w : List UInt8} {p : ℕ → Bool}
    (h : Holds level buffer 32 p) (hl : w.length = 4) (hw : ∀ i < 32, bitAt w i = p i) :
    uidBytes buffer = w := by
  refine bytes_ext (by rw [hl]; rfl) fun i hi => ?_
  have hi : i < 32 := hi
  rw [bitAt_uidBytes _ hi, h.bit_eq i hi, hw i hi]

/-! ## Frames of the driver -/

theorem nvb_eq : ∀ k : Fin 32,
    (UInt8.ofNat (2 + k / 8) <<< 4) + UInt8.ofNat (k % 8) = nvb k := by decide +kernel

theorem ofNat_ne_zero {t : ℕ} (ht : t < 8) : UInt8.ofNat t ≠ 0 ↔ t ≠ 0 := by
  interval_cases t <;> decide

/-- The bits of an ANTICOLLISION frame, as the driver has them in its buffer. -/
theorem airBits_anticollision {level : ℕ} {buffer : List UInt8} {k : ℕ} {p : ℕ → Bool}
    (h : Holds level buffer k p) (hk : k < 32) :
    airBits ((buffer.set 1 (nvb k)).take (2 + k / 8 + if UInt8.ofNat (k % 8) ≠ 0 then 1 else 0))
      (UInt8.ofNat (k % 8)) = anticollisionFrame level p k := by
  have hused : 2 + k / 8 + (if UInt8.ofNat (k % 8) ≠ 0 then 1 else 0) ≤ 9 := by
    split_ifs <;> omega
  have hnum : 8 * (2 + k / 8 + if UInt8.ofNat (k % 8) ≠ 0 then 1 else 0) -
      (8 - (UInt8.ofNat (k % 8)).toNat) % 8 = 16 + k := by
    rw [UInt8.toNat_ofNat', Nat.mod_eq_of_lt (a := k % 8) (by omega)]
    simp only [ofNat_ne_zero (Nat.mod_lt k (by decide : 8 > 0))]
    split_ifs <;> omega
  have hlen : (buffer.set 1 (nvb k)).length = 9 := by rw [List.length_set, h.length_eq]
  rw [airBits, List.length_take, hlen, Nat.min_eq_left hused, hnum, List.range_add, List.map_append,
    List.map_map, anticollisionFrame]
  congr 1
  · apply List.map_congr_left
    intro i hi
    have hi : i < 16 := List.mem_range.mp hi
    rw [bitAt_take, if_pos (by split_ifs <;> omega), bitAt_set]
    by_cases h8 : i < 8
    · rw [if_neg (by omega), bitAt, bitAt, show i / 8 = 0 by omega, h.sel]
      rfl
    · rw [if_pos ⟨by omega, by rw [h.length_eq]; decide⟩, bitAt, show i / 8 = 1 by omega]
      rfl
  · apply List.map_congr_left
    intro i hi
    have hi : i < k := List.mem_range.mp hi
    have hin : 16 + i < 8 * (2 + k / 8 + if UInt8.ofNat (k % 8) ≠ 0 then 1 else 0) := by
      simp only [ofNat_ne_zero (Nat.mod_lt k (by decide : 8 > 0))]
      split_ifs <;> omega
    rw [Function.comp_apply, bitAt_take, if_pos hin, bitAt_set, if_neg (by omega), h.bit_eq i hi]

/-- The SELECT command, as the driver has it in its buffer. -/
theorem take_select {level : ℕ} {buffer : List UInt8} {p : ℕ → Bool} (h : Holds level buffer 32 p) :
    ((buffer.set 1 0x70).set 6 (buffer.getD 2 0 ^^^ buffer.getD 3 0 ^^^ buffer.getD 4 0 ^^^
      buffer.getD 5 0)).take 7 = selectBytes level (uidBytes buffer) := by
  obtain ⟨hl, hs, -⟩ := h
  match buffer, hl with
  | [b0, b1, b2, b3, b4, b5, b6, b7, b8], _ =>
    have hs : b0 = selCommand level := hs
    subst hs
    rfl

theorem set_select {level : ℕ} {buffer : List UInt8} {p : ℕ → Bool} (h : Holds level buffer 32 p)
    (low high : UInt8) :
    (((buffer.set 1 0x70).set 6 (buffer.getD 2 0 ^^^ buffer.getD 3 0 ^^^ buffer.getD 4 0 ^^^
      buffer.getD 5 0)).set 7 low).set 8 high =
        selectBytes level (uidBytes buffer) ++ [low, high] := by
  obtain ⟨hl, hs, -⟩ := h
  match buffer, hl with
  | [b0, b1, b2, b3, b4, b5, b6, b7, b8], _ =>
    have hs : b0 = selCommand level := hs
    subst hs
    rfl

/-! ## One transmission -/

theorem framing_eq (k : ℕ) :
    framing k = (UInt8.ofNat (⟨k % 8, Nat.mod_lt k (by decide)⟩ : Fin 8) <<< 4) +
      UInt8.ofNat (⟨k % 8, Nat.mod_lt k (by decide)⟩ : Fin 8) := rfl

/-- What a transmission leaves, its answer stored from `index` of the buffer on. -/
def Reception.transmitted (buffer : List UInt8) (index len : ℕ) (t : UInt8) :
    Reception → StatusCode × Selected
  | silence => (.timeout, ⟨buffer.take index ++ buffer.drop index, len, t⟩)
  | clear data => (.ok, ⟨buffer.take index ++ stored t (buffer.drop index) data, data.length, 0⟩)
  | collision data lastBits =>
    (.collision, ⟨buffer.take index ++ stored t (buffer.drop index) data, data.length, lastBits⟩)

/-- The driver transmits the first `used` bytes of its buffer. -/
theorem talks_transmit {buffer ins : List UInt8} (used : ℕ) {index len : ℕ} (k : ℕ)
    {rec : Reception} (h : Answers (framing k) rec ins) (hfit : rec.Fits len) :
    Talks (transmit buffer used index len (UInt8.ofNat (k % 8))) ins
      [airBits (buffer.take used) (UInt8.ofNat (k % 8))]
      (rec.transmitted buffer index len (UInt8.ofNat (k % 8))) := by
  have hw : Talks (pcdWriteRegister .bitFramingReg [framing k]) [] [] () := by
    refine ⟨[(.bitFramingReg, [framing k])], says_write _ _, fun s => ?_⟩
    have hf : ¬ framing k &&& 0x80 = 0x80 := by
      rw [framing_eq, (framing_bits _ _).1]
      decide
    simp only [Listener.messages, ear, Chip.write, hf, false_and, if_false, List.append_nil]
  have hx : Talks (pcdTransceiveData (buffer.take used) (some ⟨buffer.drop index, len⟩)
      (some (UInt8.ofNat (k % 8))) (UInt8.ofNat (k % 8)) false) ins
      [airBits (buffer.take used) (UInt8.ofNat (k % 8))]
      (rec.exchange (buffer.drop index) len (UInt8.ofNat (k % 8)) (UInt8.ofNat (k % 8))) :=
    talks_transceive (r := ⟨k % 8, Nat.mod_lt k (by decide)⟩)
      (t := ⟨k % 8, Nat.mod_lt k (by decide)⟩) h hfit
  refine hw.silent_bind (hx.bind_silent ?_)
  cases rec with
  | silence => exact Listener.Talks.pure _
  | clear data => exact Listener.Talks.pure _
  | collision data lastBits => exact Listener.Talks.pure _

/-! ## What the turns leave in the buffer -/

/-- An answer is stored behind the known bits. -/
theorem Holds.receive {level k n : ℕ} {buffer data : List UInt8} {p : ℕ → Bool}
    (h : Holds level buffer k p) (hk : k < 32) (hn : n ≤ 32) (hd : data.length = 5 - k / 8)
    (v : UInt8) :
    Holds level ((buffer.set 1 v).take (2 + k / 8) ++
      stored (UInt8.ofNat (k % 8)) ((buffer.set 1 v).drop (2 + k / 8)) data) n
      (received k p data) := by
  have hlen : (buffer.set 1 v).length = 9 := by rw [List.length_set, h.length_eq]
  refine ⟨?_, ?_, fun i hi => ?_⟩
  · rw [List.length_append, length_stored, ← List.length_append, List.take_append_drop, hlen]
  · rw [List.getD_append _ _ _ _ (by rw [List.length_take, hlen]; omega), ← h.sel]
    simp [List.getD_eq_getElem?_getD]
  · rw [bitAt_append, List.length_take, hlen, Nat.min_eq_left (by omega)]
    by_cases hlow : 16 + i < 8 * (2 + k / 8)
    · have hik : i < k := by omega
      rw [if_pos hlow, bitAt_take, if_pos hlow, bitAt_set, if_neg (by omega), h.bit_eq i hik,
        received, if_pos hik]
    · rw [if_neg hlow, bitAt_stored (Nat.mod_lt k (by decide)) (by omega)
        (by rw [List.length_drop, hlen]; omega), received]
      by_cases hik : i < k
      · rw [if_neg (by omega), if_pos hik, bitAt_drop, bitAt_set, if_neg (by omega), ← h.bit_eq i hik]
        congr 1
        omega
      · rw [if_pos (by omega), if_neg hik]
        congr 1
        omega

theorem bit_one : ∀ c j : Fin 8,
    ((1 : UInt8) <<< UInt8.ofNat c).toBitVec.getLsbD j = decide (c = j) := by decide +kernel

theorem bitAt_set_or {bs : List UInt8} {index c : ℕ} (hi : index < bs.length) (hc : c < 8) (j : ℕ) :
    bitAt (bs.set index (bs.getD index 0 ||| (1 <<< UInt8.ofNat c))) j =
      (bitAt bs j || decide (j = 8 * index + c)) := by
  rw [bitAt_set]
  by_cases hj : j / 8 = index
  · have h1 := bit_one ⟨c, hc⟩ ⟨j % 8, Nat.mod_lt _ (by decide)⟩
    simp only [Fin.mk.injEq] at h1
    have hiff : c = j % 8 ↔ j = 8 * index + c := by omega
    rw [if_pos ⟨hj, hi⟩, UInt8.toBitVec_or, BitVec.getLsbD_or, h1, decide_eq_decide.mpr hiff, bitAt, hj]
  · have hne : ¬ j = 8 * index + c := by omega
    rw [if_neg (fun h => hj h.1), decide_eq_false hne, Bool.or_false]

/-- The bit that is set after a collision. -/
theorem Holds.mark {level d : ℕ} {buffer : List UInt8} {p : ℕ → Bool}
    (h : Holds level buffer (d + 1) p) (hd : d < 32) :
    Holds level (buffer.set (1 + (d + 1) / 8 + if d % 8 ≠ 0 then 1 else 0)
      (buffer.getD (1 + (d + 1) / 8 + if d % 8 ≠ 0 then 1 else 0) 0 |||
        (1 <<< UInt8.ofNat (d % 8)))) (d + 1) (mark d p) := by
  have hlt : 1 + (d + 1) / 8 + (if d % 8 ≠ 0 then 1 else 0) < buffer.length := by
    rw [h.length_eq]
    split_ifs <;> omega
  refine ⟨by rw [List.length_set, h.length_eq], ?_, fun i hi => ?_⟩
  · rw [← h.sel, List.getD_eq_getElem?_getD, List.getElem?_set_ne (by omega),
      ← List.getD_eq_getElem?_getD]
  · have hiff : 16 + i = 8 * (1 + (d + 1) / 8 + if d % 8 ≠ 0 then 1 else 0) + d % 8 ↔
        i + (if d % 8 = 0 then 8 else 0) = d + if d % 8 = 7 then 8 else 0 := by
      split_ifs <;> omega
    rw [bitAt_set_or hlt (by omega), h.bit_eq i hi, decide_eq_decide.mpr hiff]
    rfl

/-- After a collision at bit `d` the loop goes on with `d + 1` bits. -/
theorem talks_collided {buffer : List UInt8} {known d : ℕ} {coll : UInt8} (hc : coll &&& 0x20 = 0)
    (hpos : collisionPos coll = d + 1) (hlt : known < d + 1) :
    Talks (collided buffer known) [coll] []
      (.again (buffer.set (1 + (d + 1) / 8 + if d % 8 ≠ 0 then 1 else 0)
        (buffer.getD (1 + (d + 1) / 8 + if d % 8 ≠ 0 then 1 else 0) 0 |||
          (1 <<< UInt8.ofNat (d % 8)))) (d + 1)) := by
  refine (talks_read _ coll).bind_silent ?_
  rw [if_neg (not_not.mpr hc)]
  simp only [hpos]
  rw [if_neg (by omega), Nat.add_sub_cancel]
  exact Listener.Talks.pure _

/-- After a collision with all bits known the loop does not go on. -/
theorem talks_collided_known (coll : UInt8) :
    ∃ e, ∀ buffer : List UInt8, Talks (collided buffer 32) [coll] [] (.fail e) := by
  by_cases hc : coll &&& 0x20 = 0
  · refine ⟨⟨.internalError, by decide⟩, fun buffer => (talks_read _ coll).bind_silent ?_⟩
    rw [if_neg (not_not.mpr hc)]
    simp only
    rw [if_pos (collisionPos_le coll)]
    exact Listener.Talks.pure _
  · refine ⟨⟨.collision, by decide⟩, fun buffer => (talks_read _ coll).bind_silent ?_⟩
    rw [if_pos hc]
    exact Listener.Talks.pure _

/-! ## One turn -/

/-- A turn that is an ANTICOLLISION. -/
theorem talks_anticollisionTurn {level k : ℕ} {buffer ins rest : List UInt8} {p : ℕ → Bool}
    {rec : Reception} {t : Turn} (h : Holds level buffer k p) (hk : k < 32)
    (ha : Answers (framing k) rec ins) (hfit : rec.Fits (9 - (2 + k / 8)))
    (hr : Talks (answered k (fun r => .again r.buffer 32)
      (rec.transmitted (buffer.set 1 (nvb k)) (2 + k / 8) (9 - (2 + k / 8)) (UInt8.ofNat (k % 8))).1
      (rec.transmitted (buffer.set 1 (nvb k)) (2 + k / 8) (9 - (2 + k / 8))
        (UInt8.ofNat (k % 8))).2) rest [] t) :
    Talks (selectStep buffer k) (ins ++ rest) [anticollisionFrame level p k] t := by
  have hnvb := nvb_eq ⟨k, hk⟩
  rw [selectStep, if_neg (by omega), anticollisionTurn]
  simp only at hnvb ⊢
  rw [hnvb, ← airBits_anticollision h hk]
  exact (talks_transmit _ k ha hfit).bind hr

/-- A finished SELECT. -/
def finished (crc : Checksum) (level : ℕ) (w : List UInt8) (sak : UInt8) : Selected :=
  ⟨[selCommand level, 0x70] ++ w ++ [sak, (crc [sak]).1, (crc [sak]).2], 3, 0⟩

/-- A turn that is a SELECT. -/
theorem talks_selectTurn {crc : Checksum} {level : ℕ} {buffer ins ins' rest : List UInt8}
    {p : ℕ → Bool} {rec : Reception} (h : Holds level buffer 32 p)
    (hc : CrcAnswers crc (selectBytes level (uidBytes buffer)) ins)
    (ha : Answers (framing 0) rec ins') (hfit : rec.Fits 3) {t : Turn}
    (hr : ∀ low high, Talks (answered 32 .done
      (rec.transmitted (selectBytes level (uidBytes buffer) ++ [low, high]) 6 3 0).1
      (rec.transmitted (selectBytes level (uidBytes buffer) ++ [low, high]) 6 3 0).2) rest [] t) :
    Talks (selectStep buffer 32) (ins ++ (ins' ++ rest)) [selectFrame crc level (uidBytes buffer)] t := by
  have hcalc := talks_calculateCRC hc
  rw [← take_select h] at hcalc
  rw [selectStep, if_pos (Nat.le_refl _), selectTurn]
  refine hcalc.bind ?_
  rw [take_select h]
  simp only [set_select h]
  exact (talks_transmit 9 0 ha hfit).bind (hr _ _)

/-! ## The loop of one level -/

/-- How the loop ends: it fails, or the level is selected. -/
def LoopEnd (crc : Checksum) (level : ℕ) :
    Option (List UInt8 × UInt8) → Except Failure Selected → Prop
  | none, r => ∃ e, r = .error e
  | some ws, r => r = .ok (finished crc level ws.1 ws.2)

theorem talks_selectLoop_fail {n k : ℕ} {buffer ins : List UInt8} {frames : List Frame} {e : Failure}
    (h : Talks (selectStep buffer k) ins frames (.fail e)) :
    Talks (selectLoop (n + 1) buffer k) ins frames (.error e) :=
  h.bind_silent (Listener.Talks.pure _)

/-- **The loop follows every course.** -/
theorem talks_selectLoop {crc : Checksum} {level k : ℕ} {cards : List Card} {p : ℕ → Bool}
    {ins : List UInt8} {frames : List Frame} {o : Option (List UInt8 × UInt8)}
    (h : Course crc level cards k p ins frames o) {n : ℕ} {buffer : List UInt8}
    (hb : Holds level buffer k p) (hn : 33 ≤ n + k) :
    ∃ r, Talks (selectLoop n buffer k) ins frames r ∧ LoopEnd crc level o r := by
  induction h generalizing n buffer with
  | @silent k p ins hk hnone ha =>
    obtain ⟨n, rfl⟩ : ∃ m, n = m + 1 := ⟨n - 1, by omega⟩
    have hturn : Talks (selectStep buffer k) (ins ++ []) [anticollisionFrame level p k]
        (.fail ⟨.timeout, by decide⟩) :=
      talks_anticollisionTurn hb hk ha trivial (Listener.Talks.pure _)
    rw [List.append_nil] at hturn
    exact ⟨_, talks_selectLoop_fail hturn, _, rfl⟩
  | @clear k p w data ins ins' frames o hk halone hcarries ha _ ih =>
    obtain ⟨n, rfl⟩ : ∃ m, n = m + 1 := ⟨n - 1, by omega⟩
    have hfit : (Reception.clear data).Fits (9 - (2 + k / 8)) := by
      simp only [Reception.Fits, hcarries.length_eq]
      omega
    have hturn := talks_anticollisionTurn hb hk ha hfit (Listener.Talks.pure _)
    rw [List.append_nil] at hturn
    obtain ⟨r, hr, hend⟩ := ih (n := n) (hb.receive hk (Nat.le_refl _) hcarries.length_eq _) (by omega)
    exact ⟨r, hturn.bind hr, hend⟩
  | @collision k d p w data ins ins' coll lastBits frames o hk hcoll hcarries ha hvalid hpos _ ih =>
    obtain ⟨n, rfl⟩ : ∃ m, n = m + 1 := ⟨n - 1, by omega⟩
    have hkd := hcoll.le
    have hd := hcoll.lt
    have hfit : (Reception.collision data lastBits).Fits (9 - (2 + k / 8)) := by
      simp only [Reception.Fits, hcarries.length_eq]
      omega
    have hturn := talks_anticollisionTurn hb hk ha hfit
      (talks_collided hvalid hpos (by omega))
    obtain ⟨r, hr, hend⟩ :=
      ih (n := n) ((hb.receive hk (by omega) hcarries.length_eq _).mark hd) (by omega)
    refine ⟨r, ?_, hend⟩
    rw [← List.append_assoc]
    exact hturn.bind hr
  | @refused p w ins ins' hl hw hno hc ha =>
    obtain ⟨n, rfl⟩ : ∃ m, n = m + 1 := ⟨n - 1, by omega⟩
    obtain rfl := hb.uidBytes_eq hl hw
    have hturn : Talks (selectStep buffer 32) (ins ++ (ins' ++ []))
        [selectFrame crc level (uidBytes buffer)] (.fail ⟨.timeout, by decide⟩) :=
      talks_selectTurn hb hc ha trivial fun _ _ => Listener.Talks.pure _
    rw [List.append_nil] at hturn
    exact ⟨_, talks_selectLoop_fail hturn, _, rfl⟩
  | @selected p w ins ins' sak hl hw hmem hsak hc ha =>
    obtain ⟨n, rfl⟩ : ∃ m, n = m + 1 := ⟨n - 1, by omega⟩
    obtain rfl := hb.uidBytes_eq hl hw
    have hfit : (Reception.clear [sak, (crc [sak]).1, (crc [sak]).2]).Fits 3 := Nat.le_refl _
    have hturn : Talks (selectStep buffer 32) (ins ++ (ins' ++ []))
        [selectFrame crc level (uidBytes buffer)]
        (.done (finished crc level (uidBytes buffer) sak)) :=
      talks_selectTurn hb hc ha hfit fun _ _ => Listener.Talks.pure _
    rw [List.append_nil] at hturn
    exact ⟨_, hturn.bind_silent (Listener.Talks.pure _), rfl⟩
  | @disputed p w data ins ins' coll lastBits c c' hl hw _ _ _ _ _ hc hfit ha =>
    obtain ⟨n, rfl⟩ : ∃ m, n = m + 1 := ⟨n - 1, by omega⟩
    obtain rfl := hb.uidBytes_eq hl hw
    obtain ⟨e, he⟩ := talks_collided_known coll
    have hfit : (Reception.collision data lastBits).Fits 3 := hfit
    exact ⟨_, talks_selectLoop_fail (talks_selectTurn hb hc ha hfit fun _ _ => he _), e, rfl⟩

/-! ## One cascade level -/

/-- The level that is selected is that of a card in the field, with its SAK. -/
theorem Course.of_card {crc : Checksum} {level k : ℕ} {cards : List Card} {p : ℕ → Bool}
    {ins : List UInt8} {frames : List Frame} {o : Option (List UInt8 × UInt8)}
    (h : Course crc level cards k p ins frames o) {w : List UInt8} {sak : UInt8}
    (ho : o = some (w, sak)) :
    w.length = 4 ∧ (∃ c ∈ cards, c.block level = w) ∧
      ∀ c ∈ cards, c.block level = w → c.sakAt level = sak := by
  induction h with
  | silent => cases ho
  | clear _ _ _ _ _ ih => exact ih ho
  | collision _ _ _ _ _ _ _ ih => exact ih ho
  | refused => cases ho
  | selected hl _ hmem hsak =>
    cases ho
    exact ⟨hl, hmem, hsak⟩
  | disputed => cases ho

theorem levelStart_zero (u : Uid) (level : ℕ) (buffer : List UInt8) :
    levelStart u 0 level buffer = (buffer.set 0 (selCommand level), 0) := by
  have ht : useCascadeTag u 0 level = false := by
    unfold useCascadeTag
    split <;> rfl
  simp [levelStart, ht]

theorem holds_start (level : ℕ) {buffer : List UInt8} (hl : buffer.length = 9) (p : ℕ → Bool) :
    Holds level (buffer.set 0 (selCommand level)) 0 p := by
  refine ⟨by rw [List.length_set, hl], ?_, nofun⟩
  rw [List.getD_eq_getElem?_getD, List.getElem?_set_self (by omega)]
  rfl

/-- The UID bytes of a level. -/
def blockData (w : List UInt8) : LevelData :=
  if w.getD 0 0 = piccCmdCT then .tagged (w.getD 1 0) (w.getD 2 0) (w.getD 3 0)
  else .plain (w.getD 0 0) (w.getD 1 0) (w.getD 2 0) (w.getD 3 0)

theorem levelData_finished (crc : Checksum) (level : ℕ) {w : List UInt8} (hl : w.length = 4)
    (sak : UInt8) : levelData (finished crc level w sak).buffer = blockData w := by
  match w, hl with
  | [a, b, c, d], _ => rfl

theorem talks_checkSak {crc : Checksum} (level : ℕ) {w ins : List UInt8} (hl : w.length = 4)
    {sak : UInt8} (hc : CrcAnswers crc [sak] ins) :
    ∃ buffer : List UInt8, buffer.length = 9 ∧
      Talks (checkSak (finished crc level w sak)) ins [] (.ok (buffer, sak)) := by
  match w, hl with
  | [a, b, c, d], _ =>
    refine ⟨[selCommand level, 0x70, (crc [sak]).1, (crc [sak]).2, c, d, sak, (crc [sak]).1,
      (crc [sak]).2], rfl, ?_⟩
    have hlen : ¬ ((finished crc level [a, b, c, d] sak).responseLength ≠ 3 ∨
        (finished crc level [a, b, c, d] sak).txLastBits ≠ 0) := by
      simp [finished]
    rw [checkSak, if_neg hlen]
    refine (talks_calculateCRC hc).bind_silent ?_
    have hcrc : ¬ ((crc [sak]).1 ≠ (finished crc level [a, b, c, d] sak).buffer.getD 7 0 ∨
        (crc [sak]).2 ≠ (finished crc level [a, b, c, d] sak).buffer.getD 8 0) := by
      simp [finished]
    simp only
    rw [if_neg hcrc]
    exact Listener.Talks.pure _

theorem talks_selectLevel {crc : Checksum} {level : ℕ} {cards : List Card} {p : ℕ → Bool}
    {ins ins' : List UInt8} {frames : List Frame} {w : List UInt8} {sak : UInt8}
    (h : Course crc level cards 0 p ins frames (some (w, sak))) (hc : CrcAnswers crc [sak] ins')
    (u : Uid) {buffer : List UInt8} (hb : buffer.length = 9) :
    ∃ buffer' : List UInt8, buffer'.length = 9 ∧
      Talks (selectLevel u 0 level buffer) (ins ++ ins') frames
        (.copied (blockData w) (.ok (buffer', sak))) := by
  have hl := (h.of_card rfl).1
  obtain ⟨buffer', hb', hcheck⟩ := talks_checkSak level hl hc
  refine ⟨buffer', hb', ?_⟩
  obtain ⟨r, hloop, rfl⟩ := talks_selectLoop h (holds_start level hb p) (Nat.le_refl 33)
  rw [selectLevel, levelStart_zero, ← List.append_nil frames, ← levelData_finished crc level hl sak]
  exact hloop.bind (hcheck.bind_silent (Listener.Talks.pure _))

theorem talks_selectLevel_lost {crc : Checksum} {level : ℕ} {cards : List Card} {p : ℕ → Bool}
    {ins : List UInt8} {frames : List Frame} (h : Course crc level cards 0 p ins frames none)
    (u : Uid) {buffer : List UInt8} (hb : buffer.length = 9) :
    ∃ e, Talks (selectLevel u 0 level buffer) ins frames (.failed e) := by
  obtain ⟨r, hloop, e, rfl⟩ := talks_selectLoop h (holds_start level hb p) (Nat.le_refl 33)
  rw [selectLevel, levelStart_zero]
  exact ⟨e, hloop.bind_silent (Listener.Talks.pure _)⟩

end ParkingLot
