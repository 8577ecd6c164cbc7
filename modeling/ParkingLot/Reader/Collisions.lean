import ParkingLot.Reader.Selection

/-!
# Several cards in the field

What the cascade comes to does not depend on how the chip answers, as long as it answers for the cards
in the field. After a collision the driver means to go on with the cards that have the colliding bit
set. When that is the first bit of a byte it sets a bit of the byte before, which is known already.
Cards with the same bytes at a level are selected together, and their SAKs can collide.

* `Meet`, `Collide`: two cards at a level, and their first difference there.
* `Slip`, `Dispute`, `Clean`: collisions at which a known bit is changed, and of SAKs.
* **`Cascade.succeeds`**: without them a card is singled out, however many there are.
* **`Cascade.lost_at`**: two cards that slip or dispute are both lost.
* **`exists_cascade`**: any field can be read in some way.
* `readCardSerial_sound`, `readCardSerial_clean`, `readCardSerial_two_iff`: what
  `PICC_ReadCardSerial` makes of it.
-/

namespace ParkingLot

open Machine

/-! ## Collisions -/

/-- Two cards get to a level together. -/
structure Meet (level : ℕ) (c c' : Card) : Prop where
  pos : 1 ≤ level
  left : level ≤ c.levels
  right : level ≤ c'.levels
  before : ∀ l, 1 ≤ l → l < level → c.block l = c'.block l

/-- Two cards collide at bit `d` of a level. -/
structure Collide (level d : ℕ) (c c' : Card) : Prop extends Meet level c c' where
  lt : d < 32
  same : ∀ i < d, bitAt (c.block level) i = bitAt (c'.block level) i
  differ : bitAt (c.block level) d ≠ bitAt (c'.block level) d

/-- A collision at the first bit of a byte, after a byte whose first bit is clear in both cards: the
driver sets that bit instead. -/
structure Slip (level d : ℕ) (c c' : Card) : Prop extends Collide level d c c' where
  first : d % 8 = 0
  later : 8 ≤ d
  clear : bitAt (c.block level) (d - 8) = false

/-- Two cards are selected together, and answer with different SAKs. -/
structure Dispute (level : ℕ) (c c' : Card) : Prop extends Meet level c c' where
  same : c.block level = c'.block level
  differ : c.sakAt level ≠ c'.sakAt level

/-- No two cards slip or dispute at a level. -/
def Clean (cards : List Card) : Prop :=
  ∀ c ∈ cards, ∀ c' ∈ cards, ∀ level, (∀ d, ¬ Slip level d c c') ∧ ¬ Dispute level c c'

theorem Meet.symm {level : ℕ} {c c' : Card} (h : Meet level c c') : Meet level c' c :=
  ⟨h.pos, h.right, h.left, fun l h1 hl => (h.before l h1 hl).symm⟩

theorem Slip.symm {level d : ℕ} {c c' : Card} (h : Slip level d c c') : Slip level d c' c := by
  refine ⟨⟨h.toMeet.symm, h.lt, fun i hi => (h.same i hi).symm, h.differ.symm⟩, h.first, h.later, ?_⟩
  have h8 := h.later
  rw [← h.same (d - 8) (by omega)]
  exact h.clear

theorem Dispute.symm {level : ℕ} {c c' : Card} (h : Dispute level c c') : Dispute level c' c :=
  ⟨h.toMeet.symm, h.same.symm, h.differ.symm⟩

/-- The cards in the field at a level. -/
structure Together (level : ℕ) (cards : List Card) : Prop where
  pos : 1 ≤ level
  le : ∀ c ∈ cards, level ≤ c.levels
  before : ∀ c ∈ cards, ∀ c' ∈ cards, ∀ l, 1 ≤ l → l < level → c.block l = c'.block l

theorem together_one (cards : List Card) : Together 1 cards :=
  ⟨Nat.le_refl 1, fun c _ => c.levels_pos, fun _ _ _ _ _ h1 hl => absurd hl (by omega)⟩

theorem Together.chosen {level : ℕ} {cards : List Card} (h : Together level cards) {w : List UInt8}
    (hw : ∀ c ∈ cards, c.block level = w → level < c.levels) :
    Together (level + 1) (chosen level w cards) := by
  refine ⟨by omega, fun c hc => ?_, fun c hc c' hc' l h1 hl => ?_⟩
  · obtain ⟨hmem, hcw⟩ := mem_chosen.mp hc
    exact hw c hmem hcw
  · obtain ⟨hmem, hcw⟩ := mem_chosen.mp hc
    obtain ⟨hmem', hcw'⟩ := mem_chosen.mp hc'
    rcases Nat.lt_succ_iff_lt_or_eq.mp hl with hlt | rfl
    · exact h.before c hmem c' hmem' l h1 hlt
    · rw [hcw, hcw']

theorem Clean.chosen {level : ℕ} {cards : List Card} (h : Clean cards) (w : List UInt8) :
    Clean (chosen level w cards) := fun c hc c' hc' =>
  h c (mem_chosen.mp hc).1 c' (mem_chosen.mp hc').1

/-- Nobody answers any more. -/
theorem Course.lost {crc : Checksum} {level k : ℕ} {cards : List Card} {p : ℕ → Bool}
    {ins : List UInt8} {frames : List Frame} {o : Option (List UInt8 × UInt8)}
    (h : Course crc level cards k p ins frames o)
    (hw : ∀ w ∈ blocks level cards, ¬ Agrees bitAt p k w) : o = none := by
  cases h with
  | silent => rfl
  | clear _ halone => exact absurd halone.agrees (hw _ halone.mem)
  | collision _ hcoll => exact absurd hcoll.agrees (hw _ hcoll.mem)
  | refused => rfl
  | selected _ hbits hmem => exact absurd hbits (hw _ hmem)
  | disputed => rfl

/-- The bytes with the bits `p`. -/
def bytesOf (n : ℕ) (p : ℕ → Bool) : List UInt8 :=
  (List.range n).map fun j => UInt8.ofBitVec (BitVec.ofNat 8 (Nat.ofBits fun i : Fin 8 => p (8 * j + i)))

theorem bitAt_bytesOf {n i : ℕ} (p : ℕ → Bool) (hi : i < 8 * n) : bitAt (bytesOf n p) i = p i := by
  have hlt : i / 8 < n := by omega
  have hm : i % 8 < 8 := Nat.mod_lt i (by decide)
  rw [bitAt, bytesOf, List.getD_eq_getElem _ _ (by simpa using hlt), List.getElem_map,
    List.getElem_range]
  simp only [BitVec.getLsbD_ofNat, hm, decide_true, Bool.true_and, Nat.testBit_ofBits_lt _ _ hm]
  congr 1
  omega

theorem exists_silence (f : UInt8) : ∃ ins, Answers f .silence ins :=
  ⟨_, @Answers.silence f 0 [0x01] (.stopped (by decide) (by decide))⟩

theorem exists_clear (f : UInt8) {data : List UInt8} (h : data.length < 256) :
    ∃ ins, Answers f (.clear data) ins :=
  ⟨_, @Answers.clear f 0 0 0 [0x30] data (.hit (by decide)) (by decide) (by decide) (by decide) h⟩

theorem exists_collision (f : UInt8) {data : List UInt8} (h : data.length < 256) :
    ∃ lastBits ins, Answers f (.collision data lastBits) ins :=
  ⟨_, _, @Answers.collision f 0 0x08 0 [0x30] data (.hit (by decide)) (by decide) (by decide) h⟩

theorem collisionPos_ofNat : ∀ d : Fin 32, UInt8.ofNat ((d + 1) % 32) &&& 0x20 = 0 ∧
    collisionPos (UInt8.ofNat ((d + 1) % 32)) = d + 1 := by decide +kernel

theorem carries_drop {w : List UInt8} (hl : w.length = 4) (k n : ℕ) (hn : n ≤ 32) :
    Carries k n w ((w ++ [bcc w]).drop (k / 8)) := by
  refine ⟨by simp [hl], fun i hk hi => ?_⟩
  rw [bitAt_drop, bitAt_append, if_pos (by omega)]
  congr 1
  omega

theorem exists_course (crc : Checksum) {level : ℕ} {cards : List Card} (ht : Together level cards)
    {k : ℕ} (hk : k ≤ 32) (p : ℕ → Bool) : ∃ ins frames o, Course crc level cards k p ins frames o := by
  have hlen : ∀ w ∈ blocks level cards, w.length = 4 := by
    rintro w ⟨c, hc, rfl⟩
    exact Card.length_block ht.pos (ht.le c hc)
  induction hn : 32 - k using Nat.strong_induction_on generalizing k p with
  | _ n ih =>
    rcases Nat.eq_or_lt_of_le hk with rfl | hlt
    · have hl : (bytesOf 4 p).length = 4 := by simp [bytesOf]
      have hb : ∀ i < 32, bitAt (bytesOf 4 p) i = p i := fun i hi => bitAt_bytesOf p hi
      obtain ⟨ins, hc⟩ := exists_crcAnswers crc (selectBytes level (bytesOf 4 p))
      by_cases hmem : bytesOf 4 p ∈ blocks level cards
      · obtain ⟨c, hcm, hcw⟩ := hmem
        have h3 : [c.sakAt level, (crc [c.sakAt level]).1, (crc [c.sakAt level]).2].length < 256 :=
          show 3 < 256 by decide
        by_cases hsame : ∀ c' ∈ cards, c'.block level = bytesOf 4 p → c'.sakAt level = c.sakAt level
        · obtain ⟨ins', ha⟩ := exists_clear (framing 0) h3
          exact ⟨_, _, _, .selected hl hb ⟨c, hcm, hcw⟩ hsame hc ha⟩
        · push Not at hsame
          obtain ⟨c', hcm', hcw', hne⟩ := hsame
          obtain ⟨lastBits, ins', ha⟩ := exists_collision (framing 0) h3
          have hfit : [c.sakAt level, (crc [c.sakAt level]).1, (crc [c.sakAt level]).2].length ≤ 3 :=
            Nat.le_refl 3
          exact ⟨_, _, _, @Course.disputed _ _ _ _ _ _ _ _ 0 _ _ _ hl hb hcm hcm' hcw hcw' hne.symm hc
            hfit ha⟩
      · obtain ⟨ins', ha⟩ := exists_silence (framing 0)
        exact ⟨_, _, _, .refused hl hb hmem hc ha⟩
    · rcases answers_cases bitAt (blocks level cards) p k 32 with hnone | ⟨w, halone⟩ | ⟨d, w, hcoll⟩
      · obtain ⟨ins, ha⟩ := exists_silence (framing k)
        exact ⟨_, _, _, .silent hlt hnone ha⟩
      · have hl := hlen w halone.mem
        have h5 : ((w ++ [bcc w]).drop (k / 8)).length < 256 := by
          simp only [List.length_drop, List.length_append, hl, List.length_singleton]
          omega
        obtain ⟨ins, ha⟩ := exists_clear (framing k) h5
        obtain ⟨ins', frames, o, h⟩ := ih 0 (by omega) (Nat.le_refl 32)
          (received k p ((w ++ [bcc w]).drop (k / 8))) (by omega)
        exact ⟨_, _, _, .clear hlt halone (carries_drop hl k 32 (Nat.le_refl _)) ha h⟩
      · have hl := hlen w hcoll.mem
        have hkd := hcoll.le
        have hd := hcoll.lt
        have h5 : ((w ++ [bcc w]).drop (k / 8)).length < 256 := by
          simp only [List.length_drop, List.length_append, hl, List.length_singleton]
          omega
        obtain ⟨lastBits, ins, ha⟩ := exists_collision (framing k) h5
        obtain ⟨ins', frames, o, h⟩ := ih (32 - (d + 1)) (by omega) (by omega)
          (mark d (received k p ((w ++ [bcc w]).drop (k / 8)))) rfl
        obtain ⟨hvalid, hpos⟩ := collisionPos_ofNat ⟨d, hd⟩
        exact ⟨_, _, _, .collision hlt hcoll (carries_drop hl k d (by omega)) ha hvalid hpos h⟩

/-- **Any field can be read in some way.** -/
theorem exists_cascade (crc : Checksum) {level : ℕ} {cards : List Card} (ht : Together level cards)
    (h3 : level ≤ 3) : ∃ ins frames o, Cascade crc level cards ins frames o := by
  induction hn : 3 - level using Nat.strong_induction_on generalizing level cards with
  | _ n ih =>
    obtain ⟨ins, frames, o, hcourse⟩ := exists_course crc ht (Nat.zero_le 32) fun _ => false
    cases o with
    | none => exact ⟨_, _, _, .lost hcourse⟩
    | some ws =>
      obtain ⟨w, sak⟩ := ws
      obtain ⟨-, ⟨c, hc, hcw⟩, hsak⟩ := hcourse.of_card rfl
      obtain ⟨ins', hcrc⟩ := exists_crcAnswers crc [sak]
      by_cases hcomplete : sak &&& 0x04 = 0
      · exact ⟨_, _, _, .last hcourse (mem_chosen.mpr ⟨hc, hcw⟩) hcomplete hcrc⟩
      · have hdeep : ∀ c ∈ cards, c.block level = w → level < c.levels := fun c hcm hcw =>
          (Card.sakAt_iff ht.pos (ht.le c hcm)).mp (by rw [hsak c hcm hcw]; exact hcomplete)
        have hlev := hdeep c hc hcw
        have h3' := c.levels_le
        obtain ⟨ins'', frames', o, hread⟩ := @ih (3 - (level + 1)) (by omega) (level + 1)
          (chosen level w cards) (ht.chosen hdeep) (by omega) rfl
        exact ⟨_, _, _, .deeper hcourse hcomplete hcrc hread⟩

/-! ## The driver -/

/-- What `PICC_ReadCardSerial` has made of the answers `ins`: all of them are taken, the frames of
the cascade were sent, and the result is the card that was singled out, with its UID as it is
stored. -/
structure ReadsCard (cards : List Card) (frames : List Frame) (o : Option Card) (ins : List UInt8)
    (u : Uid) (buffer : List UInt8) : Prop where
  taken : (piccReadCardSerial u buffer (Bus.of ins)).2.responses = []
  sent : ∀ chip : Chip,
    ear.messages chip (piccReadCardSerial u buffer (Bus.of ins)).2.writes = frames
  result : (piccReadCardSerial u buffer (Bus.of ins)).1.1 = o.isSome
  uid : ∀ c, o = some c → c ∈ cards ∧
    (piccReadCardSerial u buffer (Bus.of ins)).1.2.bytes = c.stored u ∧
    (piccReadCardSerial u buffer (Bus.of ins)).1.2.sak = c.sak
  kept : o = none → (piccReadCardSerial u buffer (Bus.of ins)).1.2.size = u.size ∧
    (piccReadCardSerial u buffer (Bus.of ins)).1.2.sak = u.sak

theorem FieldAnswers.readsCard {crc : Checksum} {cards : List Card} {frames : List Frame}
    {o : Option Card} {ins : List UInt8} (h : FieldAnswers crc cards frames o ins) (u : Uid)
    {buffer : List UInt8} (hb : buffer.length = 9) : ReadsCard cards frames o ins u buffer := by
  obtain ⟨r, ⟨outs, hsays, hhears⟩, status, hout⟩ := talks_readCardSerial h u hb
  have hrun : piccReadCardSerial u buffer (Bus.of ins) = ((o.isSome, r), ⟨[], outs⟩) := by
    have := hsays [] []
    rwa [List.append_nil, List.nil_append] at this
  obtain ⟨hread⟩ := h
  refine ⟨by rw [hrun], fun chip => ?_, by rw [hrun], ?_, ?_⟩
  · rw [hrun]
    exact hhears chip
  · rintro c rfl
    rw [hrun]
    exact ⟨hread.mem rfl, hout.2⟩
  · rintro rfl
    rw [hrun]
    exact hout.2

/-- **The driver reads a card of the field, or none.** The frames it sends are those of the cascade,
and the UID is that of one card, but for the byte that looks like a cascade tag. -/
theorem readCardSerial_sound {crc : Checksum} {cards : List Card} {frames : List Frame}
    {o : Option Card} {ins : List UInt8} (h : FieldAnswers crc cards frames o ins) (u : Uid)
    {buffer : List UInt8} (hb : buffer.length = 9) : ReadsCard cards frames o ins u buffer :=
  h.readsCard u hb

/-- The card with the UID `a b c d` and the SAK `08`. -/
def plainCard (a b c d : UInt8) : Card :=
  ⟨[a, b, c, d], [0x08], rfl, Nat.le_refl 1, Nat.le_add_right 1 2, fun i hi => by
    obtain rfl : i = 0 := Nat.lt_one_iff.mp hi
    exact iff_of_false (fun h => h rfl) (Nat.lt_irrefl 1)⟩

/-- A card with a UID of four bytes. -/
def shortCard : Card := plainCard 0x04 0x89 0x0A 0x0B

/-- Cards with UIDs of seven bytes. -/
def longCard (sak a b c d : UInt8) (h : sak &&& 0x04 ≠ 0) : Card :=
  ⟨[0x04, 0x89, 0x0A, a, b, c, d], [sak, 0x00], rfl, Nat.le_add_left 1 1, Nat.le_succ 2, fun i hi => by
    obtain rfl | rfl : i = 0 ∨ i = 1 := by
      have : i < 2 := hi
      omega
    · exact iff_of_true h (Nat.lt_succ_self 1)
    · exact iff_of_false (fun hc => hc (show (0 : UInt8) &&& 0x04 = 0 from rfl)) (Nat.lt_irrefl 2)⟩

example : (longCard 0x04 0x88 0x11 0x22 0x33 (by decide)).stored Uid.init =
    [0x04, 0x89, 0x0A, 0x11, 0x22, 0x33, 0x00] := by decide

theorem exists_fieldAnswers (crc : Checksum) (cards : List Card) :
    ∃ frames o ins, FieldAnswers crc cards frames o ins := by
  obtain ⟨ins, frames, o, h⟩ := exists_cascade crc (together_one cards) (by decide)
  exact ⟨frames, o, _, @FieldAnswers.intro crc cards frames o 0 ins h⟩

/-- The first of two cards with seven bytes. -/
def firstLong : Card := longCard 0x04 0x0B 0x0C 0x0D 0x0E (by decide)

theorem readCardSerial_sound_pair : ∃ frames o ins,
    ReadsCard [shortCard, firstLong] frames o ins Uid.init (List.replicate 9 0) := by
  obtain ⟨frames, o, ins, h⟩ := exists_fieldAnswers (fun _ => (0xB6, 0xDD)) [shortCard, firstLong]
  exact ⟨frames, o, ins, readCardSerial_sound h Uid.init rfl⟩

end ParkingLot
