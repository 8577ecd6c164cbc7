import ParkingLot.Reader.Anticollision

/-!
# Which card is read

`PICC_ReadCardSerial` against the cards in the field, through all cascade levels. The driver takes a
first byte `88` of any level for a cascade tag, that of the last level too.

* `Card.Seen`: the part of the UID that the levels before have stored is that of a card.
* `Card.stored`: the bytes that are left in `RfChip.uid`.
* `Cascade.mem`: the card that is singled out is in the field.
* **`talks_cascade`**, **`talks_readCardSerial`**: the driver follows every `Cascade`, and stores the
  UID and the SAK of the card that is singled out.
-/

namespace ParkingLot

open Machine

/-! ## The UID through the levels -/

/-- The bytes of a level that go to the UID. -/
theorem bytes_blockData {w : List UInt8} (hl : w.length = 4) :
    (blockData w).bytes = if w.getD 0 0 = piccCmdCT then w.drop 1 else w := by
  match w, hl with
  | [x, y, z, t], _ =>
    rw [blockData]
    split_ifs <;> rfl

theorem uidIndex_eq {level : ℕ} (h1 : 1 ≤ level) (h3 : level ≤ 3) :
    uidIndex level = 3 * (level - 1) := by
  interval_cases level <;> rfl

namespace Card

/-- The UID as it is handed over: if the last four bytes begin like a cascade tag, this byte is left
out, and the last byte is the one that `u` holds there. -/
def stored (c : Card) (u : Uid) : List UInt8 :=
  if c.Tagged then c.uid.eraseIdx (3 * (c.levels - 1)) ++ [u.byte (3 * c.levels)] else c.uid

/-- The bytes of the levels before are stored. -/
def Seen (c : Card) (level : ℕ) (u : Uid) : Prop := ∀ j < 3 * (level - 1), u.byte j = c.uid.getD j 0

variable {c : Card} {level : ℕ} {u : Uid}

/-- What a level that is not the last one stores. -/
theorem byte_copy_block (h1 : 1 ≤ level) (h2 : level < c.levels) (j : ℕ) :
    (u.copy (uidIndex level) (blockData (c.block level)).bytes).byte j =
      if 3 * (level - 1) ≤ j ∧ j < 3 * level then c.uid.getD j 0 else u.byte j := by
  have hlen := c.length_uid
  have hlev := c.levels_le
  have hbytes : (blockData (c.block level)).bytes = (c.uid.drop (3 * (level - 1))).take 3 := by
    rw [bytes_blockData (length_block h1 (Nat.le_of_lt h2)), block_of_lt h2, List.getD_cons_zero,
      if_pos rfl, List.drop_one, List.tail_cons]
  have h3 : ((c.uid.drop (3 * (level - 1))).take 3).length = 3 := by
    rw [List.length_take, List.length_drop]
    omega
  rw [hbytes, uidIndex_eq h1 (by omega), Uid.byte_copy _ _ _ _ (by omega), h3]
  refine ite_congr (propext (by omega)) (fun hj => ?_) fun _ => rfl
  rw [List.getD_eq_getElem?_getD, List.getElem?_take, if_pos (by omega), List.getElem?_drop,
    ← List.getD_eq_getElem?_getD]
  congr 1
  omega

theorem Seen.next (hs : c.Seen level u) (h1 : 1 ≤ level) (h2 : level < c.levels) :
    c.Seen (level + 1) (u.copy (uidIndex level) (blockData (c.block level)).bytes) := by
  intro j hj
  rw [byte_copy_block h1 h2]
  split_ifs with hin
  · rfl
  · exact hs j (by omega)

/-- What the last level stores. -/
theorem byte_copy_last (hs : c.Seen c.levels u) {j : ℕ} (hj : j < 3 * c.levels + 1) :
    (u.copy (uidIndex c.levels) (blockData (c.block c.levels)).bytes).byte j =
      (c.stored u).getD j 0 := by
  have hlen := c.length_uid
  have hpos := c.levels_pos
  have hlev := c.levels_le
  have htag : (c.uid.drop (3 * (c.levels - 1))).getD 0 0 = piccCmdCT ↔ c.Tagged := by
    rw [List.getD_eq_getElem?_getD, List.getElem?_drop, ← List.getD_eq_getElem?_getD]
    rfl
  have h4 : (c.uid.drop (3 * (c.levels - 1))).length = 4 := by
    rw [List.length_drop]
    omega
  rw [block_last, bytes_blockData h4, uidIndex_eq hpos hlev]
  by_cases ht : c.Tagged
  · rw [if_pos (htag.mpr ht), stored, if_pos ht, List.drop_drop,
      Uid.byte_copy _ _ _ _ (by rw [List.length_drop]; omega), List.length_drop,
      List.getD_eq_getElem?_getD, List.getD_eq_getElem?_getD, List.getElem?_append,
      List.length_eraseIdx_of_lt (by omega), List.getElem?_eraseIdx, List.getElem?_drop]
    by_cases h1 : j < 3 * (c.levels - 1)
    · rw [if_neg (by omega), if_pos (by omega), if_pos h1, hs j h1, List.getD_eq_getElem?_getD]
    · by_cases h2 : j < 3 * c.levels
      · rw [if_pos (by omega), if_pos (by omega), if_neg h1]
        congr 2
        omega
      · obtain rfl : j = 3 * c.levels := by omega
        rw [if_neg (by omega), if_neg (by omega),
          show 3 * c.levels - (c.uid.length - 1) = 0 by omega]
        rfl
  · rw [if_neg (mt htag.mp ht), stored, if_neg ht, Uid.byte_copy _ _ _ _ (by omega), h4]
    by_cases h1 : j < 3 * (c.levels - 1)
    · rw [if_neg (by omega), hs j h1]
    · rw [if_pos (by omega), List.getD_eq_getElem?_getD, List.getElem?_drop,
        ← List.getD_eq_getElem?_getD]
      congr 1
      omega

theorem length_stored (c : Card) (u : Uid) : (c.stored u).length = 3 * c.levels + 1 := by
  have hlen := c.length_uid
  have hpos := c.levels_pos
  unfold stored
  split_ifs
  · rw [List.length_append, List.length_eraseIdx_of_lt (by omega), List.length_singleton]
    omega
  · exact hlen

/-- After the last level. -/
theorem bytes_eq (hs : c.Seen c.levels u) {v : Uid} (hsize : v.size = 3 * c.levels + 1)
    (hv : v.uidByte = (u.copy (uidIndex c.levels) (blockData (c.block c.levels)).bytes).uidByte) :
    v.bytes = c.stored u := by
  apply List.ext_getElem
  · rw [length_stored, Uid.bytes, List.length_map, List.length_range, hsize]
  · intro j hj hj'
    have hb := byte_copy_last hs (j := j) (by rwa [length_stored] at hj')
    rw [List.getD_eq_getElem _ _ hj'] at hb
    simp only [Uid.bytes, List.getElem_map, List.getElem_range]
    rw [← hb, Uid.byte, Uid.byte, hv]

end Card

/-! ## The cascade -/

theorem mem_chosen {level : ℕ} {w : List UInt8} {cards : List Card} {c : Card} :
    c ∈ chosen level w cards ↔ c ∈ cards ∧ c.block level = w := by
  simp [chosen]

theorem Cascade.mem {crc : Checksum} {level : ℕ} {cards : List Card} {ins : List UInt8}
    {frames : List Frame} {o : Option Card} (h : Cascade crc level cards ins frames o) {c : Card}
    (ho : o = some c) : c ∈ cards := by
  induction h with
  | lost => cases ho
  | last _ hmem _ _ =>
    cases ho
    exact (mem_chosen.mp hmem).1
  | deeper _ _ _ _ ih => exact (mem_chosen.mp (ih ho)).1

/-- How `PICC_Select` ends over the `Uid` `u`: nothing was completed, or the UID and the SAK of the
card are stored. -/
def SelectEnd (u : Uid) : Option Card → StatusCode × Uid → Prop
  | none, r => r.1 ≠ .ok ∧ r.2.size = u.size ∧ r.2.sak = u.sak
  | some c, r => r.1 = .ok ∧ r.2.bytes = c.stored u ∧ r.2.sak = c.sak

theorem SelectEnd.congr {u v : Uid} {o : Option Card} {r : StatusCode × Uid} (h : SelectEnd v o r)
    (hsize : v.size = u.size) (hsak : v.sak = u.sak)
    (hbyte : ∀ c, o = some c → v.byte (3 * c.levels) = u.byte (3 * c.levels)) : SelectEnd u o r := by
  cases o with
  | none => exact ⟨h.1, h.2.1.trans hsize, h.2.2.trans hsak⟩
  | some c =>
    refine ⟨h.1, h.2.1.trans ?_, h.2.2⟩
    rw [Card.stored, Card.stored, hbyte c rfl]

@[simp] theorem Uid.sak_copy (u : Uid) (i : ℕ) (bs : List UInt8) : (u.copy i bs).sak = u.sak := by
  induction bs generalizing u i with
  | nil => rfl
  | cons b bs ih => exact ih _ _

/-- **The driver follows every cascade.** -/
theorem talks_cascade {crc : Checksum} {level : ℕ} {cards : List Card} {ins : List UInt8}
    {frames : List Frame} {o : Option Card} (h : Cascade crc level cards ins frames o) {n : ℕ}
    (hn : n + level = 4) (h1 : 1 ≤ level) (h3 : level ≤ 3) {u : Uid} {buffer : List UInt8}
    (hb : buffer.length = 9) (hc : ∀ c ∈ cards, level ≤ c.levels ∧ c.Seen level u) :
    ∃ r, Talks (cascade 0 n u buffer) ins frames r ∧ SelectEnd u o r := by
  induction h generalizing n u buffer with
  | @lost level cards p ins frames hcourse =>
    obtain ⟨n, rfl⟩ : ∃ m, n = m + 1 := ⟨n - 1, by omega⟩
    obtain rfl : level = 3 - n := by omega
    obtain ⟨e, he⟩ := talks_selectLevel_lost hcourse u hb
    exact ⟨(e.1, u), he.bind_silent (Listener.Talks.pure _), e.2, rfl, rfl⟩
  | @last level cards p w ins ins' sak frames c hcourse hmem hsak hcrc =>
    obtain ⟨n, rfl⟩ : ∃ m, n = m + 1 := ⟨n - 1, by omega⟩
    obtain rfl : level = 3 - n := by omega
    obtain ⟨hcard, rfl⟩ := mem_chosen.mp hmem
    obtain ⟨hlev, hseen⟩ := hc c hcard
    have hsakc : c.sakAt (3 - n) = sak := (hcourse.of_card rfl).2.2 c hcard rfl
    have hlast : ¬ 3 - n < c.levels := fun hlt =>
      (Card.sakAt_iff h1 hlev).mpr hlt (by rw [hsakc, hsak])
    have hlevels : 3 - n = c.levels := by omega
    obtain ⟨buffer', -, hlevel⟩ := talks_selectLevel hcourse hcrc u hb
    refine ⟨(.ok, { u.copy (uidIndex (3 - n)) (blockData (c.block (3 - n))).bytes with
      sak := sak, size := 3 * (3 - n) + 1, size_le := level_size_le n }), ?_, rfl, ?_, ?_⟩
    · refine hlevel.bind_silent ?_
      simp only
      rw [if_neg (not_not.mpr hsak)]
      exact Listener.Talks.pure _
    · rw [hlevels] at hseen
      refine Card.bytes_eq hseen ?_ ?_
      · show 3 * (3 - n) + 1 = 3 * c.levels + 1
        rw [hlevels]
      · show (u.copy (uidIndex (3 - n)) (blockData (c.block (3 - n))).bytes).uidByte = _
        rw [hlevels]
    · show sak = c.sak
      rw [← hsakc, hlevels, Card.sak]
  | @deeper level cards p w ins ins' ins'' sak frames frames' o hcourse hsak hcrc hrest ih =>
    obtain ⟨n, rfl⟩ : ∃ m, n = m + 1 := ⟨n - 1, by omega⟩
    obtain rfl : level = 3 - n := by omega
    obtain ⟨-, ⟨c₀, hc₀, hw⟩, hsaks⟩ := hcourse.of_card rfl
    have hdeep : ∀ c ∈ cards, c.block (3 - n) = w → 3 - n < c.levels := fun c hcard hcw =>
      (Card.sakAt_iff h1 (hc c hcard).1).mp (by rw [hsaks c hcard hcw]; exact hsak)
    have hlevels := hdeep c₀ hc₀ hw
    have h3' := c₀.levels_le
    obtain ⟨buffer', hb', hlevel⟩ := talks_selectLevel hcourse hcrc u hb
    obtain ⟨r, hr, hout⟩ := @ih n (by omega) (by omega) (by omega)
      (u.copy (uidIndex (3 - n)) (blockData w).bytes) buffer' hb' fun c hmem => by
        obtain ⟨hcard, hcw⟩ := mem_chosen.mp hmem
        have hlt := hdeep c hcard hcw
        refine ⟨by omega, ?_⟩
        rw [← hcw]
        exact (hc c hcard).2.next h1 hlt
    refine ⟨r, ?_, hout.congr (Uid.size_copy ..) (Uid.sak_copy ..) fun c ho => ?_⟩
    · rw [← List.append_assoc]
      refine hlevel.bind ?_
      simp only
      rw [if_pos hsak]
      exact hr
    · -- the level does not reach the last byte
      obtain ⟨hcard, hcw⟩ := mem_chosen.mp (hrest.mem ho)
      have hlt := hdeep c hcard hcw
      rw [← hcw, Card.byte_copy_block h1 hlt, if_neg (by omega)]

/-- The answers of the chip when `PICC_Select` is called and the cards are read. -/
inductive FieldAnswers (crc : Checksum) (cards : List Card) (frames : List Frame) (o : Option Card) :
    List UInt8 → Prop
  | intro {coll : UInt8} {ins : List UInt8} : Cascade crc 1 cards ins frames o →
    FieldAnswers crc cards frames o ([coll] ++ ins)

theorem talks_clrBits (v : UInt8) : Talks (pcdClrRegisterBits .collReg 0x80) [v] [] () :=
  ⟨[(.collReg, [v &&& ~~~0x80])], says_clrBits .collReg 0x80 v, fun _ => rfl⟩

/-- **The driver reads the card that is singled out.** -/
theorem talks_readCardSerial {crc : Checksum} {cards : List Card} {ins : List UInt8}
    {frames : List Frame} {o : Option Card} (h : FieldAnswers crc cards frames o ins) (u : Uid)
    {buffer : List UInt8} (hb : buffer.length = 9) :
    ∃ r, Talks (piccReadCardSerial u buffer) ins frames (o.isSome, r) ∧
      ∃ status, SelectEnd u o (status, r) := by
  obtain ⟨hread⟩ := h
  rename_i coll ins
  obtain ⟨⟨status, v⟩, hr, hout⟩ := talks_cascade hread (by rfl) (by decide) (by decide) hb
    (fun c _ => ⟨c.levels_pos, fun j hj => absurd hj (by omega)⟩)
  refine ⟨v, ?_, status, hout⟩
  have hselect : Talks (piccSelect u 0 buffer) ([coll] ++ ins) frames (status, v) := by
    rw [piccSelect, if_neg (by decide)]
    exact (talks_clrBits coll).bind hr
  refine hselect.bind_silent ?_
  cases o with
  | none =>
    have hs : decide (status = .ok) = false := decide_eq_false hout.1
    show Talks (Pure.pure (decide (status = .ok), v)) [] [] (false, v)
    rw [hs]
    exact Listener.Talks.pure _
  | some c =>
    have hs : status = .ok := hout.1
    subst hs
    exact Listener.Talks.pure _

end ParkingLot
