import ParkingLot.Reader.Tag

/-!
# Requests to the memory of a card

The functions of `MFRC522.cpp` for the memory, called while a card is activated.

* `Request`, `Request.run`, `Receipt`: the calls, and what they hand over.
* `Request.steps`, `Steps`, `Performs`: how a call can go through the air.
* **`Performs.talks`**: the driver follows.
* `performs_write`, `steps_value`, `performs_transfer`, `performs_read`: what a call can do to the card.
* `exists_write` and others: where nothing is lost and the card obeys, a call returns OK.
-/

namespace ParkingLot

open Machine

/-! ## Requests -/

/-- A call of one of the functions. -/
inductive Request
  | read (b : UInt8) (buffer : Back)
  | write (b : UInt8) (buffer : List UInt8)
  | decrement (b : UInt8) (delta : UInt32)
  | increment (b : UInt8) (delta : UInt32)
  | restore (b : UInt8)
  | transfer (b : UInt8)

/-- The status, and the data that were read. -/
structure Receipt where
  status : StatusCode
  data : Option (List UInt8)

/-- A request without data. -/
def Receipt.of (s : StatusCode) : Receipt := ⟨s, none⟩

/-- The call. After a READ that is OK, the data are what the buffer holds before the CRC. -/
def Request.run : Request → Spi Receipt
  | read b buffer => do
    let r ← mifareRead b buffer
    pure ⟨r.1, if r.1 = .ok then some (r.2.data.take (r.2.len - 2)) else none⟩
  | write b buffer => Receipt.of <$> mifareWrite b buffer
  | decrement b delta => Receipt.of <$> mifareDecrement b delta
  | increment b delta => Receipt.of <$> mifareIncrement b delta
  | restore b => Receipt.of <$> mifareRestore b
  | transfer b => Receipt.of <$> mifareTransfer b

/-- A command on a value, with its operand. -/
def valueSteps (command b : UInt8) (delta : UInt32) : List (List UInt8 × Bool) :=
  [([command, b], false), (littleEndian delta, true)]

/-- The exchanges of a request that asks for ACKs: the bytes, and whether a timeout is accepted. -/
def Request.steps : Request → List (List UInt8 × Bool)
  | read _ _ => []
  | write b buffer => [([piccCmdMfWrite, b], false), (buffer, false)]
  | decrement b delta => valueSteps piccCmdMfDecrement b delta
  | increment b delta => valueSteps piccCmdMfIncrement b delta
  | restore b => valueSteps piccCmdMfRestore b 0
  | transfer b => [([piccCmdMfTransfer, b], false)]

/-- Exchanges in a row, up to the first that fails. -/
def runSteps : List (List UInt8 × Bool) → Spi StatusCode
  | [] => pure .ok
  | (p, acceptTimeout) :: ps => do
    let result ← pcdMifareTransceive p acceptTimeout
    if result ≠ .ok then pure result else runSteps ps

theorem mifareWrite_eq {buffer : List UInt8} (h : 16 ≤ buffer.length) (b : UInt8) :
    mifareWrite b buffer = runSteps (Request.write b buffer).steps := by
  rw [mifareWrite, if_neg (by omega)]
  rfl

theorem mifareTransfer_eq (b : UInt8) :
    mifareTransfer b = runSteps (Request.transfer b).steps := by
  have hpure : (fun r : StatusCode => if r ≠ .ok then pure r else runSteps []) =
      (pure : StatusCode → Spi StatusCode) := by
    funext r
    split_ifs with h
    · rfl
    · rw [not_not.mp h]
      rfl
  show pcdMifareTransceive _ _ = pcdMifareTransceive _ _ >>= _
  rw [hpure, bind_pure]

section Course

variable (plain : UInt8 → Bool) (crc : Checksum) (compute : UInt8 → Block → List UInt8 → Block)

/-- How the exchanges in a row can go, up to the first that fails. -/
inductive Steps : List (List UInt8 × Bool) → Tag → List UInt8 → StatusCode → Tag → Prop
  | done {t : Tag} : Steps [] t [] .ok t
  | long {p : List UInt8} {a : Bool} {ps : List (List UInt8 × Bool)} {t : Tag} : 16 < p.length →
    Steps ((p, a) :: ps) t [] .invalid t
  | failed {p ins : List UInt8} {a : Bool} {ps : List (List UInt8 × Bool)} {t t' : Tag}
    {o : Option Reply} : p.length ≤ 16 → Swap plain crc compute p t ins o t' → ackStatus a o ≠ .ok →
    Steps ((p, a) :: ps) t ins (ackStatus a o) t'
  | next {p ins ins' : List UInt8} {a : Bool} {ps : List (List UInt8 × Bool)} {t t' t'' : Tag}
    {o : Option Reply} {s : StatusCode} : p.length ≤ 16 → Swap plain crc compute p t ins o t' →
    ackStatus a o = .ok → Steps ps t' ins' s t'' → Steps ((p, a) :: ps) t (ins ++ ins') s t''

/-- How a request can go: the answers of the chip, the outcome, and the card afterwards. -/
inductive Performs (t : Tag) : Request → List UInt8 → Receipt → Tag → Prop
  | short {b : UInt8} {buffer : List UInt8} : buffer.length < 16 →
    Performs t (.write b buffer) [] (.of .invalid) t
  | write {b : UInt8} {buffer ins : List UInt8} {s : StatusCode} {t' : Tag} : 16 ≤ buffer.length →
    Steps plain crc compute (Request.write b buffer).steps t ins s t' →
    Performs t (.write b buffer) ins (.of s) t'
  | decrement {b : UInt8} {delta : UInt32} {ins : List UInt8} {s : StatusCode} {t' : Tag} :
    Steps plain crc compute (Request.decrement b delta).steps t ins s t' →
    Performs t (.decrement b delta) ins (.of s) t'
  | increment {b : UInt8} {delta : UInt32} {ins : List UInt8} {s : StatusCode} {t' : Tag} :
    Steps plain crc compute (Request.increment b delta).steps t ins s t' →
    Performs t (.increment b delta) ins (.of s) t'
  | restore {b : UInt8} {ins : List UInt8} {s : StatusCode} {t' : Tag} :
    Steps plain crc compute (Request.restore b).steps t ins s t' →
    Performs t (.restore b) ins (.of s) t'
  | transfer {b : UInt8} {ins : List UInt8} {s : StatusCode} {t' : Tag} :
    Steps plain crc compute (Request.transfer b).steps t ins s t' →
    Performs t (.transfer b) ins (.of s) t'
  | noRoom {b : UInt8} {buffer : Back} : buffer.len < 18 →
    Performs t (.read b buffer) [] (.of .noRoom) t
  | stuck {b : UInt8} {buffer : Back} {ins : List UInt8} : 18 ≤ buffer.len → CrcStuck ins →
    Performs t (.read b buffer) ins (.of .timeout) t
  | unread {b : UInt8} {buffer : Back} {ins ins' ins'' : List UInt8} {rep : Reply} {s : StatusCode}
    {t' : Tag} : 18 ≤ buffer.len → buffer.len ≤ buffer.data.length →
    CrcAnswers crc [piccCmdMfRead, b] ins →
    OnAir plain crc compute t (airBits (withCRC crc [piccCmdMfRead, b]) 0) rep t' → Replies rep ins' →
    rep.Read crc ins'' s → s ≠ .ok →
    Performs t (.read b buffer) (ins ++ (ins' ++ ins'')) (.of s) t'
  | read {b lastBits : UInt8} {buffer : Back} {ins ins' ins'' data : List UInt8} {t' : Tag} :
    18 ≤ buffer.len → buffer.len ≤ buffer.data.length → CrcAnswers crc [piccCmdMfRead, b] ins →
    OnAir plain crc compute t (airBits (withCRC crc [piccCmdMfRead, b]) 0) (.bits data lastBits) t' →
    Replies (.bits data lastBits) ins' → Verdict crc data lastBits ins'' .ok →
    Performs t (.read b buffer) (ins ++ (ins' ++ ins'')) ⟨.ok, some (data.take (data.length - 2))⟩ t'

end Course

variable {plain : UInt8 → Bool} {crc : Checksum} {compute : UInt8 → Block → List UInt8 → Block}
  {t t' : Tag}

theorem Steps.talks {ps : List (List UInt8 × Bool)} {ins : List UInt8} {s : StatusCode}
    (h : Steps plain crc compute ps t ins s t') : ∃ frames, Talks (runSteps ps) ins frames s := by
  induction h with
  | done => exact ⟨_, .pure _⟩
  | long hp =>
    refine ⟨_, (talks_mifareTransceive_long _ hp).bind_silent ?_⟩
    exact .pure _
  | failed hp hswap hs =>
    obtain ⟨frames, hx⟩ := hswap.talks hp _
    refine ⟨_, hx.bind_silent ?_⟩
    rw [if_pos hs]
    exact .pure _
  | next hp hswap hs _ ih =>
    obtain ⟨frames, hx⟩ := hswap.talks hp _
    obtain ⟨frames', hrest⟩ := ih
    refine ⟨frames ++ frames', hx.bind ?_⟩
    rw [if_neg (not_not.mpr hs)]
    exact hrest

theorem talks_receipt {x : Spi StatusCode} {ins : List UInt8} {s : StatusCode}
    (h : ∃ frames, Talks x ins frames s) :
    ∃ frames, Talks (Receipt.of <$> x) ins frames (.of s) := by
  obtain ⟨frames, hx⟩ := h
  refine ⟨frames, ?_⟩
  rw [map_eq_pure_bind]
  exact hx.bind_silent (.pure _)

/-- **The driver follows every request.** -/
theorem Performs.talks {q : Request} {ins : List UInt8} {out : Receipt}
    (h : Performs plain crc compute t q ins out t') : ∃ frames, Talks q.run ins frames out := by
  cases h with
  | short hb =>
    refine talks_receipt ⟨[], ?_⟩
    rw [mifareWrite, if_pos hb]
    exact .pure _
  | write hb hs =>
    refine talks_receipt ?_
    rw [mifareWrite_eq hb]
    exact hs.talks
  | decrement hs => exact talks_receipt hs.talks
  | increment hs => exact talks_receipt hs.talks
  | restore hs => exact talks_receipt hs.talks
  | transfer hs =>
    refine talks_receipt ?_
    rw [mifareTransfer_eq]
    exact hs.talks
  | noRoom hb =>
    refine ⟨[], ?_⟩
    rw [Request.run, mifareRead, if_pos hb]
    exact (Listener.Talks.pure _).bind_silent (.pure _)
  | stuck hb hcrc =>
    obtain ⟨back, hx⟩ := talks_mifareRead_stuck hb hcrc
    exact ⟨_, hx.bind_silent (.pure _)⟩
  | unread hb hdata hcrc _ hrep hr hs =>
    obtain ⟨back, hx, -⟩ := talks_mifareRead hb (hb.trans hdata) hcrc hrep hr
    refine ⟨_, hx.bind_silent ?_⟩
    rw [if_neg hs]
    exact .pure _
  | @read b lastBits buffer ins ins' ins'' data t' hb hdata hcrc _ hrep hv =>
    obtain ⟨back, hx, hlen, htake⟩ := talks_mifareRead hb (hb.trans hdata) hcrc hrep (.bits hv)
    have hget : back.data.take (back.len - 2) = data.take (data.length - 2) := calc
      back.data.take (back.len - 2) = (back.data.take data.length).take (data.length - 2) := by
        rw [List.take_take, hlen, Nat.min_eq_left (by omega)]
      _ = data.take (data.length - 2) := by rw [htake]
    refine ⟨_, hx.bind_silent ?_⟩
    rw [if_pos rfl, hget]
    exact .pure _

/-! ## What a request can do -/

theorem ackStatus_eq_ok {a : Bool} {o : Option Reply} (h : ackStatus a o = .ok) :
    o = some (.nibble mfAck) ∨ a = true ∧ o = some .silence := by
  cases o with
  | none => exact nomatch h
  | some rep =>
    rcases Reply.ack_eq_ok h with rfl | ⟨ha, rfl⟩
    · exact .inl rfl
    · exact .inr ⟨ha, rfl⟩

/-- One exchange that asks for an ACK. -/
theorem Steps.one {p ins : List UInt8} {s : StatusCode}
    (h : Steps plain crc compute [(p, false)] t ins s t') :
    (s = .ok ∧ Obeys plain crc compute t p (.nibble mfAck) t') ∨
      s ≠ .ok ∧ (t' = t ∨ t' = t.enter .mute ∨ ∃ rep, Obeys plain crc compute t p rep t') := by
  cases h with
  | long => exact .inr ⟨nofun, .inl rfl⟩
  | failed _ hswap hs => exact .inr ⟨hs, hswap.cases⟩
  | next _ hswap hs hrest =>
    cases hrest
    have ho := (ackStatus_eq_ok hs).resolve_right fun h => nomatch h.1
    exact .inl ⟨rfl, hswap.acked ho⟩

theorem Steps.last {p ins : List UInt8} {a : Bool} {s : StatusCode}
    (h : Steps plain crc compute [(p, a)] t ins s t') :
    t' = t ∨ t' = t.enter .mute ∨ ∃ rep, Obeys plain crc compute t p rep t' := by
  cases h with
  | long => exact .inl rfl
  | failed _ hswap _ => exact hswap.cases
  | next _ hswap _ hrest =>
    cases hrest
    exact hswap.cases

/-- Of two exchanges the second takes place only after an ACK. -/
theorem Steps.two {p q ins : List UInt8} {a : Bool} {s : StatusCode}
    (h : Steps plain crc compute [(p, false), (q, a)] t ins s t') :
    (s ≠ .ok ∧ (t' = t ∨ t' = t.enter .mute ∨ ∃ rep, Obeys plain crc compute t p rep t')) ∨
      ∃ m ins', Obeys plain crc compute t p (.nibble mfAck) m ∧
        Steps plain crc compute [(q, a)] m ins' s t' := by
  cases h with
  | long => exact .inl ⟨nofun, .inl rfl⟩
  | failed _ hswap hs => exact .inl ⟨hs, hswap.cases⟩
  | next _ hswap hs hrest =>
    have ho := (ackStatus_eq_ok hs).resolve_right fun h => nomatch h.1
    exact .inr ⟨_, _, hswap.acked ho, hrest⟩

theorem Tag.not_deaf (h : t.phase = .ready) : ¬ t.Deaf := by
  rintro (hm | ⟨c, b, hm⟩)
  · exact nomatch h.symm.trans hm
  · exact nomatch h.symm.trans hm

theorem Tag.deaf_mute (t : Tag) : (t.enter .mute).Deaf := .inl rfl

theorem Tag.deaf_operand (t : Tag) (c b : UInt8) : (t.enter (.operand c b)).Deaf := .inr ⟨c, b, rfl⟩

theorem not_value {c : UInt8} (h : c ∈ valueCommands) :
    c ≠ piccCmdMfRead ∧ c ≠ piccCmdMfWrite ∧ c ≠ piccCmdMfTransfer := by
  simp only [valueCommands, List.mem_cons, List.not_mem_nil, or_false] at h
  rcases h with rfl | rfl | rfl <;> decide

theorem obeys_write {b : UInt8} {rep : Reply}
    (h : Obeys plain crc compute t [piccCmdMfWrite, b] rep t') :
    t.phase = .ready ∧ t' = t.enter (.data b) := by
  obtain ⟨hr, ⟨hc, -⟩ | ⟨-, ⟨-, ht⟩ | ⟨hc, -⟩ | ⟨hc, -⟩⟩⟩ := obeys_command h
  · exact absurd hc (by decide)
  · exact ⟨hr, ht⟩
  · exact absurd hc (by decide)
  · exact absurd hc (by decide)

theorem obeys_value {c b : UInt8} {rep : Reply} (hc : c ∈ valueCommands)
    (h : Obeys plain crc compute t [c, b] rep t') : t.phase = .ready ∧ t' = t.enter (.operand c b) := by
  obtain ⟨h1, h2, h3⟩ := not_value hc
  obtain ⟨hr, ⟨he, -⟩ | ⟨-, ⟨he, -⟩ | ⟨-, ht⟩ | ⟨he, -⟩⟩⟩ := obeys_command h
  · exact absurd he h1
  · exact absurd he h2
  · exact ⟨hr, ht⟩
  · exact absurd he h3

theorem obeys_transfer {b : UInt8} {rep : Reply}
    (h : Obeys plain crc compute t [piccCmdMfTransfer, b] rep t') :
    t.phase = .ready ∧ t' = t.store b t.register := by
  obtain ⟨hr, ⟨hc, -⟩ | ⟨-, ⟨hc, -⟩ | ⟨hc, -⟩ | ⟨-, ht⟩⟩⟩ := obeys_command h
  · exact absurd hc (by decide)
  · exact absurd hc (by decide)
  · exact absurd hc (by decide)
  · exact ⟨hr, ht⟩

/-- What no request but those on values does to the register, and to a card that is deaf. -/
structure Tag.Keeps (t t' : Tag) : Prop where
  register_eq : t'.register = t.register
  deaf : t.Deaf → t'.Deaf

theorem Tag.Keeps.refl (t : Tag) : t.Keeps t := ⟨rfl, id⟩

theorem Tag.keeps_mute (t : Tag) : t.Keeps (t.enter .mute) := ⟨rfl, fun _ => t.deaf_mute⟩

theorem Tag.keeps_of_ready (h : t.phase = .ready) (he : t'.register = t.register) : t.Keeps t' :=
  ⟨he, fun hd => absurd hd (Tag.not_deaf h)⟩

/-- **WRITE** hands its bytes to the block, or nothing; if it is OK the card has taken them. -/
theorem performs_write {b : UInt8} {buffer ins : List UInt8} {out : Receipt}
    (h : Performs plain crc compute t (.write b buffer) ins out t') :
    t.Keeps t' ∧ (out.status ≠ .ok ∧ t'.block = t.block ∨
      ∃ w : Block, w.1 = buffer ∧ t.Takes plain b w t') := by
  cases h with
  | short => exact ⟨.refl t, .inl ⟨nofun, rfl⟩⟩
  | write hlen hs =>
    rcases hs.two with ⟨hne, rfl | rfl | ⟨rep, ho⟩⟩ | ⟨m, ins', ho, hlast⟩
    · exact ⟨.refl _, .inl ⟨hne, rfl⟩⟩
    · exact ⟨t.keeps_mute, .inl ⟨hne, rfl⟩⟩
    · obtain ⟨hr, rfl⟩ := obeys_write ho
      exact ⟨Tag.keeps_of_ready hr rfl, .inl ⟨hne, rfl⟩⟩
    · obtain ⟨hr, rfl⟩ := obeys_write ho
      have hdata : ∀ {rep}, Obeys plain crc compute (t.enter (.data b)) buffer rep t' →
          t.Keeps t' ∧ ∃ w : Block, w.1 = buffer ∧ t.Takes plain b w t' := by
        intro rep ho
        obtain ⟨b', w, hb, hw, -, htakes⟩ := obeys_data (by omega) ho
        obtain rfl : b = b' := Phase.data.inj hb
        exact ⟨Tag.keeps_of_ready hr htakes.register_eq, w, hw, ⟨htakes.stored, htakes.kept,
          htakes.register_eq, htakes.phase_eq⟩⟩
      rcases hlast.one with ⟨-, ho⟩ | ⟨hne, rfl | rfl | ⟨rep, ho⟩⟩
      · exact ⟨(hdata ho).1, .inr (hdata ho).2⟩
      · exact ⟨Tag.keeps_of_ready hr rfl, .inl ⟨hne, rfl⟩⟩
      · exact ⟨Tag.keeps_of_ready hr rfl, .inl ⟨hne, rfl⟩⟩
      · exact ⟨(hdata ho).1, .inr (hdata ho).2⟩

/-- **A command on a value** writes no block. It loads the register, or leaves it; if it is OK and
left it, the card waits for the operand or does not answer. -/
theorem steps_value {c b : UInt8} {delta : UInt32} {ins : List UInt8} {s : StatusCode}
    (hc : c ∈ valueCommands) (h : Steps plain crc compute (valueSteps c b delta) t ins s t') :
    t'.block = t.block ∧ (t.Keeps t' ∧ (s = .ok → t'.Deaf) ∨
      ¬ t.Deaf ∧ t'.register = compute c (t.block b) (littleEndian delta)) := by
  rcases h.two with ⟨hne, rfl | rfl | ⟨rep, ho⟩⟩ | ⟨m, ins', ho, hlast⟩
  · exact ⟨rfl, .inl ⟨.refl _, fun hs => absurd hs hne⟩⟩
  · exact ⟨rfl, .inl ⟨t.keeps_mute, fun hs => absurd hs hne⟩⟩
  · obtain ⟨hr, rfl⟩ := obeys_value hc ho
    exact ⟨rfl, .inl ⟨Tag.keeps_of_ready hr rfl, fun hs => absurd hs hne⟩⟩
  · obtain ⟨hr, rfl⟩ := obeys_value hc ho
    rcases hlast.last with rfl | rfl | ⟨rep, ho⟩
    · exact ⟨rfl, .inl ⟨Tag.keeps_of_ready hr rfl, fun _ => t.deaf_operand c b⟩⟩
    · exact ⟨rfl, .inl ⟨Tag.keeps_of_ready hr rfl, fun _ => Tag.deaf_mute _⟩⟩
    · obtain ⟨c', b', hp, -, rfl⟩ := obeys_operand rfl ho
      obtain ⟨rfl, rfl⟩ := Phase.operand.inj hp
      exact ⟨rfl, .inr ⟨Tag.not_deaf hr, rfl⟩⟩

/-- **TRANSFER** writes the register to its block, or nothing; if it is OK it has written. -/
theorem performs_transfer {b : UInt8} {ins : List UInt8} {out : Receipt}
    (h : Performs plain crc compute t (.transfer b) ins out t') :
    t.Keeps t' ∧ (out.status ≠ .ok ∧ t'.block = t.block ∨
      ¬ t.Deaf ∧ t'.block = Function.update t.block b t.register) := by
  cases h with
  | transfer hs =>
    have hdone : ∀ {rep}, Obeys plain crc compute t [piccCmdMfTransfer, b] rep t' →
        t.Keeps t' ∧ ¬ t.Deaf ∧ t'.block = Function.update t.block b t.register := by
      intro rep ho
      obtain ⟨hr, rfl⟩ := obeys_transfer ho
      exact ⟨Tag.keeps_of_ready hr rfl, Tag.not_deaf hr, rfl⟩
    rcases hs.one with ⟨-, ho⟩ | ⟨hne, rfl | rfl | ⟨rep, ho⟩⟩
    · exact ⟨(hdone ho).1, .inr (hdone ho).2⟩
    · exact ⟨.refl _, .inl ⟨hne, rfl⟩⟩
    · exact ⟨t.keeps_mute, .inl ⟨hne, rfl⟩⟩
    · exact ⟨(hdone ho).1, .inr (hdone ho).2⟩

theorem obeys_read {b : UInt8} {rep : Reply} (h : Obeys plain crc compute t [piccCmdMfRead, b] rep t') :
    t.phase = .ready ∧ t' = t ∧ ∃ w : Block, (plain b = true → w = t.block b) ∧
      rep = .bits (withCRC crc w) 0 := by
  obtain ⟨hr, ⟨-, ht, hrep⟩ | ⟨-, ⟨hc, -⟩ | ⟨hc, -⟩ | ⟨hc, -⟩⟩⟩ := obeys_command h
  · exact ⟨hr, ht, hrep⟩
  · exact absurd hc (by decide)
  · exact absurd hc (by decide)
  · exact absurd hc (by decide)

theorem two_le_of_verdict {data ins : List UInt8} {lastBits : UInt8}
    (h : Verdict crc data lastBits ins .ok) : 2 ≤ data.length := by
  generalize hs : StatusCode.ok = s at h
  cases h with
  | nack | short | stuck => exact nomatch hs
  | checked h2 _ _ => exact h2

/-- More than one byte comes from a card that obeyed. -/
theorem OnAir.obeyed {p data : List UInt8} {lastBits : UInt8}
    (h : OnAir plain crc compute t (airBits (withCRC crc p) 0) (.bits data lastBits) t')
    (hdata : 2 ≤ data.length) : Obeys plain crc compute t p (.bits data lastBits) t' := by
  cases h with
  | heard hh =>
    cases hh with
    | obeyed hf ho =>
      obtain rfl := withCRC_inj (airBits_inj hf)
      exact ho
    | refused => exact absurd hdata (by simp)
  | replyLost _ hn => exact hn.elim nofun nofun
  | lost hn => exact hn.elim nofun nofun

/-- **READ** changes nothing; the data it hands over are those of a plain block. -/
theorem performs_read {b : UInt8} {buffer : Back} {ins : List UInt8} {out : Receipt}
    (h : Performs plain crc compute t (.read b buffer) ins out t') :
    t.Keeps t' ∧ t'.block = t.block ∧
      (plain b = true → out.status = .ok → out.data = some (t.block b).1) := by
  have hair : ∀ {rep}, OnAir plain crc compute t (airBits (withCRC crc [piccCmdMfRead, b]) 0) rep t' →
      t.Keeps t' ∧ t'.block = t.block := by
    intro rep h
    rcases h.cases with rfl | rfl | ⟨rep', ho⟩
    · exact ⟨.refl _, rfl⟩
    · exact ⟨t.keeps_mute, rfl⟩
    · obtain ⟨-, rfl, -⟩ := obeys_read ho
      exact ⟨.refl _, rfl⟩
  cases h with
  | noRoom => exact ⟨.refl _, rfl, fun _ => nofun⟩
  | stuck => exact ⟨.refl _, rfl, fun _ => nofun⟩
  | unread _ _ _ ha _ _ hs => exact ⟨(hair ha).1, (hair ha).2, fun _ he => absurd he hs⟩
  | read _ _ _ ha _ hv =>
    refine ⟨(hair ha).1, (hair ha).2, fun hplain _ => ?_⟩
    obtain ⟨-, -, w, hw, hrep⟩ := obeys_read (ha.obeyed (two_le_of_verdict hv))
    obtain rfl := hw hplain
    injection hrep with hdata
    have htake : (withCRC crc (t.block b).1).take 16 = (t.block b).1 :=
      List.take_left' (t.block b).2
    have hlen : (withCRC crc (t.block b).1).length - 2 = 16 := by
      rw [withCRC, List.length_append, (t.block b).2]
      rfl
    rw [hdata, hlen, htake]

/-! ## Clean air -/

theorem exists_replies {data : List UInt8} {lastBits : UInt8} (hd : data.length ≤ 18)
    (hl : lastBits &&& 0x07 = lastBits) : ∃ ins, Replies (.bits data lastBits) ins := by
  have h := @Replies.bits 0 0 lastBits [0x20] data (.hit (by decide)) rfl rfl hd
  rw [hl] at h
  exact ⟨_, h⟩

theorem exists_swap {p : List UInt8} {rep : Reply} (h : Obeys plain crc compute t p rep t')
    (hrep : ∃ ins, Replies rep ins) : ∃ ins, Swap plain crc compute p t ins (some rep) t' := by
  obtain ⟨ins, hcrc⟩ := exists_crcAnswers crc p
  obtain ⟨ins', hrep⟩ := hrep
  exact ⟨_, .sent hcrc (.heard (.obeyed rfl h)) hrep⟩

theorem exists_acked {p : List UInt8} (h : Obeys plain crc compute t p (.nibble mfAck) t') :
    ∃ ins, Swap plain crc compute p t ins (some (.nibble mfAck)) t' :=
  exists_swap h (exists_replies (by decide) rfl)

theorem exists_silent {p : List UInt8} (h : Obeys plain crc compute t p .silence t') :
    ∃ ins, Swap plain crc compute p t ins (some .silence) t' :=
  exists_swap h ⟨_, @Replies.silence 0 [0x01] (.stopped (by decide) (by decide))⟩

theorem exists_write (ht : t.phase = .ready) (b : UInt8) (w : Block) :
    ∃ ins, Performs plain crc compute t (.write b w) ins (.of .ok) (t.store b w) := by
  have hcommand : Obeys plain crc compute t [piccCmdMfWrite, b] (.nibble mfAck) (t.enter (.data b)) :=
    .write ht
  have hdata : Obeys plain crc compute (t.enter (.data b)) w.1 (.nibble mfAck) (t.store b w) :=
    .data rfl ((t.enter (.data b)).takes_store b w)
  obtain ⟨ins, h1⟩ := exists_acked hcommand
  obtain ⟨ins', h2⟩ := exists_acked hdata
  exact ⟨_, .write w.2.ge (.next (by simp) h1 rfl (.next w.2.le h2 rfl .done))⟩

theorem exists_increment (ht : t.phase = .ready) (b : UInt8) (delta : UInt32) :
    ∃ ins, Performs plain crc compute t (.increment b delta) ins (.of .ok)
      (t.load (compute piccCmdMfIncrement (t.block b) (littleEndian delta))) := by
  have hcommand : Obeys plain crc compute t [piccCmdMfIncrement, b] (.nibble mfAck)
      (t.enter (.operand piccCmdMfIncrement b)) := .value ht (by decide)
  have hoperand : Obeys plain crc compute (t.enter (.operand piccCmdMfIncrement b)) (littleEndian delta)
      .silence (t.load (compute piccCmdMfIncrement (t.block b) (littleEndian delta))) := .operand rfl rfl
  obtain ⟨ins, h1⟩ := exists_acked hcommand
  obtain ⟨ins', h2⟩ := exists_silent hoperand
  exact ⟨_, .increment (.next (by simp) h1 rfl (.next (by simp [littleEndian]) h2 rfl .done))⟩

theorem exists_transfer (ht : t.phase = .ready) (b : UInt8) :
    ∃ ins, Performs plain crc compute t (.transfer b) ins (.of .ok) (t.store b t.register) := by
  have hcommand : Obeys plain crc compute t [piccCmdMfTransfer, b] (.nibble mfAck)
      (t.store b t.register) :=
    .transfer ht
  obtain ⟨ins, h1⟩ := exists_acked hcommand
  exact ⟨_, .transfer (.next (by simp) h1 rfl .done)⟩

/-- The card is left waiting for the data. -/
theorem exists_long_write (ht : t.phase = .ready) (b : UInt8) {buffer : List UInt8}
    (hlen : 16 < buffer.length) :
    ∃ ins, Performs plain crc compute t (.write b buffer) ins (.of .invalid) (t.enter (.data b)) := by
  have hcommand : Obeys plain crc compute t [piccCmdMfWrite, b] (.nibble mfAck) (t.enter (.data b)) :=
    .write ht
  obtain ⟨ins, h1⟩ := exists_acked hcommand
  exact ⟨_, .write (by omega) (.next (by simp) h1 rfl (.long hlen))⟩

/-- The card refuses. -/
theorem exists_refused (b : UInt8) :
    ∃ ins, Performs plain crc compute t (.transfer b) ins (.of .mifareNack) (t.enter .mute) := by
  obtain ⟨ins, hcrc⟩ := exists_crcAnswers crc [piccCmdMfTransfer, b]
  obtain ⟨ins', hrep⟩ := exists_replies (show [(0 : UInt8)].length ≤ 18 by decide)
    (show (4 : UInt8) &&& 0x07 = 4 from rfl)
  have hswap : Swap plain crc compute [piccCmdMfTransfer, b] t _ _ _ :=
    .sent hcrc (.heard (.refused (show (0 : UInt8) ≠ mfAck by decide))) hrep
  exact ⟨_, .transfer (.failed (by simp) hswap (show StatusCode.mifareNack ≠ .ok by decide))⟩

end ParkingLot
