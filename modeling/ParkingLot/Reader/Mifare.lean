import ParkingLot.Reader.Air

/-!
# Reading and writing the memory of a card

The functions of `MFRC522.cpp` for MIFARE cards. Every command goes out with its CRC behind it; but
for READ, the card answers with four bits.

* `pcdMifareTransceive`, `mifareRead`, `mifareWrite`, `mifareTwoStepHelper`, `mifareTransfer`.
* `Reply`, `Replies`: what the chip can report of one exchange, and its answers then.
* `Reply.ack`, `Reply.Read`: what the driver makes of a report.
* **`talks_mifareTransceive`**, **`talks_mifareRead`**: one frame, and the status.
-/

namespace ParkingLot

open Machine

/-! ### `PICC_Command` and `MIFARE_Misc` -/

def piccCmdMfRead : UInt8 := 0x30
def piccCmdMfWrite : UInt8 := 0xA0
def piccCmdMfDecrement : UInt8 := 0xC0
def piccCmdMfIncrement : UInt8 := 0xC1
def piccCmdMfRestore : UInt8 := 0xC2
def piccCmdMfTransfer : UInt8 := 0xB0
def mfAck : UInt8 := 0x0A

/-! ## The driver -/

/-- `cmdBuffer` of 18 bytes; those after `sent` are not set. -/
def cmdBuffer (sent : List UInt8) : List UInt8 := sent ++ List.replicate (18 - sent.length) 0

/-- `PCD_MIFARE_Transceive`. -/
def pcdMifareTransceive (sendData : List UInt8) (acceptTimeout : Bool) : Spi StatusCode :=
  if sendData.length > 16 then pure .invalid
  else do
    let crc ← pcdCalculateCRC sendData
    match crc with
    | .error e => pure e.1
    | .ok (low, high) =>
      let sent := sendData ++ [low, high]
      let buffer : Back := ⟨cmdBuffer sent, 18⟩
      let result ← pcdCommunicateWithPICC pcdTransceive 0x30 sent (some buffer) (some 0) 0 false
      let back := result.back.getD buffer
      if acceptTimeout ∧ result.status = .timeout then pure .ok
      else if result.status ≠ .ok then pure result.status
      else if back.len ≠ 1 ∨ result.validBits ≠ some 4 then pure .error
      else if back.data.getD 0 0 ≠ mfAck then pure .mifareNack
      else pure .ok

/-- `MIFARE_Read`, with the caller's `buffer` and `*bufferSize`. -/
def mifareRead (blockAddr : UInt8) (buffer : Back) : Spi (StatusCode × Back) :=
  if buffer.len < 18 then pure (.noRoom, buffer)
  else do
    let data := (buffer.data.set 0 piccCmdMfRead).set 1 blockAddr
    let crc ← pcdCalculateCRC (data.take 2)
    match crc with
    | .error e => pure (e.1, ⟨data, buffer.len⟩)
    | .ok (low, high) =>
      let back : Back := ⟨(data.set 2 low).set 3 high, buffer.len⟩
      let result ← pcdTransceiveData (back.data.take 4) (some back) none 0 true
      pure (result.status, result.back.getD back)

/-- `MIFARE_Write`: all of `buffer` goes to the second step. -/
def mifareWrite (blockAddr : UInt8) (buffer : List UInt8) : Spi StatusCode :=
  if buffer.length < 16 then pure .invalid
  else do
    let result ← pcdMifareTransceive [piccCmdMfWrite, blockAddr] false
    if result ≠ .ok then pure result
    else do
      let result ← pcdMifareTransceive buffer false
      if result ≠ .ok then pure result else pure .ok

/-- The bytes of a `uint32_t` in memory, the least significant one first. -/
def littleEndian (data : UInt32) : List UInt8 :=
  [data.toUInt8, (data >>> 8).toUInt8, (data >>> 16).toUInt8, (data >>> 24).toUInt8]

def mifareTwoStepHelper (command blockAddr : UInt8) (data : UInt32) : Spi StatusCode := do
  let result ← pcdMifareTransceive [command, blockAddr] false
  if result ≠ .ok then pure result
  else do
    let result ← pcdMifareTransceive (littleEndian data) true
    if result ≠ .ok then pure result else pure .ok

def mifareDecrement (blockAddr : UInt8) (delta : UInt32) : Spi StatusCode :=
  mifareTwoStepHelper piccCmdMfDecrement blockAddr delta

def mifareIncrement (blockAddr : UInt8) (delta : UInt32) : Spi StatusCode :=
  mifareTwoStepHelper piccCmdMfIncrement blockAddr delta

def mifareRestore (blockAddr : UInt8) : Spi StatusCode :=
  mifareTwoStepHelper piccCmdMfRestore blockAddr 0

def mifareTransfer (blockAddr : UInt8) : Spi StatusCode :=
  pcdMifareTransceive [piccCmdMfTransfer, blockAddr] false

/-! ## What comes back -/

/-- What the chip reports of one exchange with one card: nothing came, something came that is broken,
or bytes with some number of bits in the last one, where 0 means all. -/
inductive Reply
  | silence
  | broken
  | bits (data : List UInt8) (lastBits : UInt8)

/-- The answers of the chip in an exchange of whole bytes, up to the check of the CRC. -/
inductive Replies : Reply → List UInt8 → Prop
  | silence {level : UInt8} {polls : List UInt8} : Polled 0x30 0x01 2000 false polls →
    Replies .silence ([level] ++ ([0] ++ polls))
  | broken {level err : UInt8} {polls : List UInt8} : Polled 0x30 0x01 2000 true polls →
    err &&& 0x13 ≠ 0 → Replies .broken ([level] ++ ([0] ++ (polls ++ [err])))
  | bits {level err control : UInt8} {polls data : List UInt8} :
    Polled 0x30 0x01 2000 true polls → err &&& 0x13 = 0 → err &&& 0x08 = 0 → data.length ≤ 18 →
    Replies (.bits data (control &&& 0x07)) ([level] ++ ([0] ++ (polls ++
      ([err] ++ ([UInt8.ofNat data.length] ++ (data ++ [control]))))))

/-- The answers of the coprocessor when it does not come to an end. -/
inductive CrcStuck : List UInt8 → Prop
  | polls {level : UInt8} {polls : List UInt8} : Polled 0x04 0 5000 false polls →
    CrcStuck ([level] ++ polls)

theorem talks_crcStuck {data ins : List UInt8} (h : CrcStuck ins) :
    Talks (pcdCalculateCRC data) ins [] (.error ⟨.timeout, by decide⟩) := by
  obtain ⟨hp⟩ := h
  rename_i level polls
  refine ⟨[(.commandReg, [pcdIdle]), (.divIrqReg, [0x04]), (.fifoLevelReg, [level ||| 0x80]),
    (.fifoDataReg, data), (.commandReg, [pcdCalcCRC])], ?_, fun s => rfl⟩
  have h := (says_waitCRC hp).bind (f := fun done => if done = true then (do
      pcdWriteRegister .commandReg [pcdIdle]
      let low ← pcdReadRegister .crcResultRegL
      let high ← pcdReadRegister .crcResultRegH
      pure (.ok (low, high))) else
    pure (Except.error (⟨StatusCode.timeout, by decide⟩ : Failure))) (Port.Says.pure _)
  rw [List.append_nil] at h
  exact (says_write _ _).bind <| (says_write _ _).bind <| (says_setBits _ _ level).bind <|
    (says_write _ _).bind <| (says_write _ _).bind h

/-! ## The bytes received -/

theorem storeFrom_eq {index : ℕ} {values data : List UInt8} (h : index + data.length ≤ values.length) :
    storeFrom index values data = values.take index ++ data ++ values.drop (index + data.length) := by
  induction data generalizing index values with
  | nil => simp [storeFrom]
  | cons d ds ih =>
    rw [List.length_cons] at h ⊢
    rw [storeFrom, ih (by rw [List.length_set]; omega), List.take_add_one, List.take_set_of_le le_rfl,
      List.getElem?_set_self (by omega), List.drop_set_of_lt (by omega)]
    simp [Nat.add_assoc, Nat.add_comm 1]

/-- With no bits known the bytes received replace the first ones. -/
theorem stored_zero {values data : List UInt8} (h : data.length ≤ values.length) :
    stored 0 values data = data ++ values.drop data.length := by
  have heq : stored 0 values data = storeFrom 0 values data := by
    match data with
    | [] => rfl
    | [d] => rfl
    | d :: d' :: ds => rfl
  rw [heq, storeFrom_eq (by omega), Nat.zero_add]
  rfl

/-! ## One exchange -/

/-- The check of the CRC behind what was received: the answers of the coprocessor, and the status. -/
inductive Verdict (crc : Checksum) (data : List UInt8) (lastBits : UInt8) :
    List UInt8 → StatusCode → Prop
  | nack : data.length = 1 → lastBits = 4 → Verdict crc data lastBits [] .mifareNack
  | short : ¬ (data.length = 1 ∧ lastBits = 4) → data.length < 2 ∨ lastBits ≠ 0 →
    Verdict crc data lastBits [] .crcWrong
  | stuck {ins : List UInt8} : 2 ≤ data.length → lastBits = 0 → CrcStuck ins →
    Verdict crc data lastBits ins .timeout
  | checked {ins : List UInt8} : 2 ≤ data.length → lastBits = 0 →
    CrcAnswers crc (data.take (data.length - 2)) ins →
    Verdict crc data lastBits ins
      (if data.drop (data.length - 2) =
        [(crc (data.take (data.length - 2))).1, (crc (data.take (data.length - 2))).2]
      then .ok else .crcWrong)

theorem getD_append_drop {data rest : List UInt8} {i : ℕ} (h : i < data.length) :
    (data ++ rest).getD i 0 = data.getD i 0 := by
  rw [List.getD_eq_getElem?_getD, List.getD_eq_getElem?_getD, List.getElem?_append_left h]

theorem drop_two {data : List UInt8} (h : 2 ≤ data.length) (low high : UInt8) :
    data.drop (data.length - 2) = [low, high] ↔
      data.getD (data.length - 2) 0 = low ∧ data.getD (data.length - 1) 0 = high := by
  have hget : ∀ i, (data.drop (data.length - 2)).getD i 0 = data.getD (data.length - 2 + i) 0 := by
    intro i
    rw [List.getD_eq_getElem?_getD, List.getElem?_drop, ← List.getD_eq_getElem?_getD]
  have hlen : (data.drop (data.length - 2)).length = 2 := by
    rw [List.length_drop]
    omega
  have h0 := hget 0
  have h1 := hget 1
  rw [show data.length - 2 + 1 = data.length - 1 by omega] at h1
  rw [Nat.add_zero] at h0
  rw [← h0, ← h1]
  match hd : data.drop (data.length - 2), hlen with
  | [a, b], _ => simp

theorem talks_verdict {crc : Checksum} {data ins : List UInt8} {lastBits err : UInt8}
    {s : StatusCode} (h : Verdict crc data lastBits ins s) (rest : List UInt8)
    (herr : err &&& 0x08 = 0) :
    Talks (checkReceived ⟨data ++ rest, data.length⟩ lastBits err true) ins [] s := by
  rw [checkReceived, if_neg (not_not.mpr herr), if_neg (by decide)]
  dsimp only
  cases h with
  | nack h1 h4 =>
    rw [if_pos ⟨h1, h4⟩]
    exact .pure _
  | short hn hs =>
    rw [if_neg hn, if_pos hs]
    exact .pure _
  | stuck h2 h0 hcrc =>
    rw [if_neg fun h => by omega, if_neg fun h => h.elim (by omega) fun hb => hb h0]
    exact (talks_crcStuck hcrc).bind_silent (.pure _)
  | checked h2 h0 hcrc =>
    rw [if_neg fun h => by omega, if_neg fun h => h.elim (by omega) fun hb => hb h0]
    have htake : (data ++ rest).take (data.length - 2) = data.take (data.length - 2) :=
      List.take_append_of_le_length (by omega)
    simp only [htake]
    refine (talks_calculateCRC hcrc).bind_silent ?_
    simp only [getD_append_drop (show data.length - 2 < data.length by omega),
      getD_append_drop (show data.length - 1 < data.length by omega), drop_two h2]
    split_ifs with hne heq heq
    · exact absurd heq (not_and_or.mpr hne)
    · exact .pure _
    · exact .pure _
    · exact absurd (not_or.mp hne) fun h => heq ⟨not_not.mp h.1, not_not.mp h.2⟩

/-- A frame of whole bytes is sent, and what follows makes no other. -/
theorem talks_sendBytes {α : Type} (sendData : List UInt8) (level : UInt8) {k : Spi α}
    {rest : List UInt8} {a : α} (hk : Talks k rest [] a) :
    Talks (do
      pcdWriteRegister .commandReg [pcdIdle]
      pcdWriteRegister .comIrqReg [0x7F]
      pcdSetRegisterBits .fifoLevelReg 0x80
      pcdWriteRegister .fifoDataReg sendData
      pcdWriteRegister .bitFramingReg [0]
      pcdWriteRegister .commandReg [pcdTransceive]
      pcdSetRegisterBits .bitFramingReg 0x80
      k) ([level] ++ ([0] ++ rest)) [airBits sendData 0] a := by
  obtain ⟨outs, hs, hh⟩ := hk
  exact ⟨exchangeWrites sendData 0 level ++ outs,
    (says_write _ _).bind <| (says_write _ _).bind <| (says_setBits _ _ level).bind <|
      (says_write _ _).bind <| (says_write _ _).bind <| (says_write _ _).bind <|
      (says_setBits _ _ _).bind hs,
    (hears_exchange sendData level 0 0).append hh⟩

theorem talks_quiet {α : Type} {x : Spi α} {ins : List UInt8} {a : α}
    (h : spiPort.Says x ins [] a) : Talks x ins [] a := ⟨[], h, .nil⟩

/-- What an exchange of whole bytes leaves, when `checkCRC` makes `s` of the bytes received. -/
def Reply.exchange (values : List UInt8) (len : ℕ) (validBits : Option UInt8) (s : StatusCode) :
    Reply → Exchange
  | silence => ⟨.timeout, some ⟨values, len⟩, validBits⟩
  | broken => ⟨.error, some ⟨values, len⟩, validBits⟩
  | bits data lastBits =>
    ⟨s, some ⟨data ++ values.drop data.length, data.length⟩, validBits.map fun _ => lastBits⟩

/-- The check that follows a reply, if there is something to be checked. -/
def Reply.Checked (values : List UInt8) (checkCRC : Bool) (ins : List UInt8) (s : StatusCode) :
    Reply → Prop
  | bits data lastBits => ∀ err : UInt8, err &&& 0x08 = 0 →
    Talks (checkReceived ⟨data ++ values.drop data.length, data.length⟩ lastBits err checkCRC) ins [] s
  | _ => ins = []

/-- **One exchange of whole bytes.** -/
theorem talks_communicate {sendData values ins ins' : List UInt8} {len : ℕ} {validBits : Option UInt8}
    {checkCRC : Bool} {s : StatusCode} {rep : Reply} (h : Replies rep ins) (hlen : 18 ≤ len)
    (hvalues : 18 ≤ values.length) (hbits : validBits.getD 0 = 0)
    (hcheck : rep.Checked values checkCRC ins' s) :
    Talks (pcdCommunicateWithPICC pcdTransceive 0x30 sendData (some ⟨values, len⟩) validBits 0 checkCRC)
      (ins ++ ins') [airBits sendData 0] (rep.exchange values len validBits s) := by
  have hframing : ((0 : UInt8) <<< 4) + validBits.getD 0 = 0 := by
    rw [hbits]
    rfl
  rw [pcdCommunicateWithPICC, hframing]
  cases h with
  | @silence level polls hp =>
    obtain rfl : ins' = [] := hcheck
    rw [List.append_nil, ← List.append_nil polls]
    exact talks_sendBytes _ _ (talks_quiet ((says_waitComIrq hp).bind (Port.Says.pure _)))
  | @broken level err polls hp he =>
    obtain rfl : ins' = [] := hcheck
    rw [List.append_nil]
    refine talks_sendBytes _ _ (talks_quiet ((says_waitComIrq hp).bind ?_))
    rw [← List.append_nil [err]]
    refine (says_read _ _).bind ?_
    rw [if_pos he]
    exact Port.Says.pure _
  | @bits level err control polls data hp he hc hdata =>
    have hn : (UInt8.ofNat data.length).toNat = data.length := by
      rw [UInt8.toNat_ofNat', Nat.mod_eq_of_lt (by omega)]
    have hroom : ¬ data.length > (Back.mk values len).len := Nat.not_lt.mpr (hdata.trans hlen)
    have hrest : Talks (receive (some ⟨values, len⟩) validBits 0 err checkCRC)
        ([UInt8.ofNat data.length] ++ (data ++ ([control] ++ ins'))) []
        (Reply.exchange values len validBits s (.bits data (control &&& 0x07))) := by
      refine (talks_quiet (says_read _ _)).bind ?_
      rw [hn, if_neg hroom]
      refine (talks_quiet (says_readRegisters _ _ _ _)).bind ?_
      rw [stored_zero (hdata.trans hvalues)]
      refine (talks_quiet (says_read _ control)).bind ?_
      exact (hcheck err hc).bind_silent (.pure _)
    have hins : [level] ++ ([0] ++ (polls ++ ([err] ++ ([UInt8.ofNat data.length] ++
        (data ++ [control]))))) ++ ins' = [level] ++ ([0] ++ (polls ++ ([err] ++
          ([UInt8.ofNat data.length] ++ (data ++ ([control] ++ ins')))))) := by simp
    rw [hins]
    refine talks_sendBytes _ _ ((talks_quiet (says_waitComIrq hp)).bind
      ((talks_quiet (says_read _ _)).bind ?_))
    rw [if_neg (not_not.mpr he)]
    exact hrest

/-! ## One command -/

/-- The bytes with their CRC behind them. -/
def withCRC (crc : Checksum) (p : List UInt8) : List UInt8 := p ++ [(crc p).1, (crc p).2]

/-- The status of a reply that has to be an ACK of four bits. -/
def Reply.ack (acceptTimeout : Bool) : Reply → StatusCode
  | silence => if acceptTimeout then .ok else .timeout
  | broken => .error
  | bits data lastBits =>
    if data.length ≠ 1 ∨ lastBits ≠ 4 then .error
    else if data.getD 0 0 ≠ mfAck then .mifareNack
    else .ok

/-- **`PCD_MIFARE_Transceive` sends one frame.** -/
theorem talks_mifareTransceive {crc : Checksum} {p ins ins' : List UInt8} {acceptTimeout : Bool}
    {rep : Reply} (hp : p.length ≤ 16) (hcrc : CrcAnswers crc p ins) (h : Replies rep ins') :
    Talks (pcdMifareTransceive p acceptTimeout) (ins ++ ins') [airBits (withCRC crc p) 0]
      (rep.ack acceptTimeout) := by
  rw [pcdMifareTransceive, if_neg (by omega)]
  refine (talks_calculateCRC hcrc).bind ?_
  have hlen : 18 ≤ (cmdBuffer (withCRC crc p)).length := by
    rw [cmdBuffer, List.length_append, List.length_replicate]
    omega
  have hcheck : rep.Checked (cmdBuffer (withCRC crc p)) false [] .ok := by
    cases rep with
    | silence | broken => rfl
    | bits data lastBits =>
      intro err herr
      rw [checkReceived, if_neg (not_not.mpr herr), if_pos (by decide)]
      exact .pure _
  have hx : Talks (pcdCommunicateWithPICC pcdTransceive 0x30 (withCRC crc p)
      (some ⟨cmdBuffer (withCRC crc p), 18⟩) (some 0) 0 false) (ins' ++ []) [airBits (withCRC crc p) 0]
      (rep.exchange (cmdBuffer (withCRC crc p)) 18 (some 0) .ok) :=
    talks_communicate h le_rfl hlen rfl hcheck
  rw [List.append_nil] at hx
  refine hx.bind_silent ?_
  cases rep with
  | silence => cases acceptTimeout <;> exact .pure _
  | broken => cases acceptTimeout <;> exact .pure _
  | bits data lastBits =>
    simp only [Reply.exchange, Reply.ack, Option.getD_some, Option.map_some, ne_eq, Option.some.injEq,
      reduceCtorEq, and_false, if_false, not_true_eq_false]
    by_cases h1 : ¬ data.length = 1 ∨ ¬ lastBits = 4
    · rw [if_pos h1, if_pos h1]
      exact .pure _
    · have hhead : (data ++ (cmdBuffer (withCRC crc p)).drop data.length).getD 0 0 = data.getD 0 0 :=
        getD_append_drop (by have := not_not.mp (not_or.mp h1).1; omega)
      rw [if_neg h1, if_neg h1]
      simp only [hhead]
      split_ifs <;> exact .pure _

theorem talks_mifareTransceive_stuck {p ins : List UInt8} (acceptTimeout : Bool)
    (hp : p.length ≤ 16) (hcrc : CrcStuck ins) :
    Talks (pcdMifareTransceive p acceptTimeout) ins [] .timeout := by
  rw [pcdMifareTransceive, if_neg (by omega)]
  exact (talks_crcStuck hcrc).bind_silent (.pure _)

theorem talks_mifareTransceive_long {p : List UInt8} (acceptTimeout : Bool) (hp : 16 < p.length) :
    Talks (pcdMifareTransceive p acceptTimeout) [] [] .invalid := by
  rw [pcdMifareTransceive, if_pos hp]
  exact .pure _

/-- The check of a reply that has to be data with a CRC. -/
inductive Reply.Read (crc : Checksum) : Reply → List UInt8 → StatusCode → Prop
  | silence : Read crc .silence [] .timeout
  | broken : Read crc .broken [] .error
  | bits {data ins : List UInt8} {lastBits : UInt8} {s : StatusCode} :
    Verdict crc data lastBits ins s → Read crc (.bits data lastBits) ins s

/-- What the caller's buffer holds after a READ was answered. -/
def Reply.FilledIn (back : Back) : Reply → Prop
  | bits data _ => back.len = data.length ∧ back.data.take data.length = data
  | _ => True

/-- **`MIFARE_Read` sends one frame**, and hands over what came back. -/
theorem talks_mifareRead {crc : Checksum} {b : UInt8} {buffer : Back} {ins ins' ins'' : List UInt8}
    {rep : Reply} {s : StatusCode} (hlen : 18 ≤ buffer.len) (hdata : 18 ≤ buffer.data.length)
    (hcrc : CrcAnswers crc [piccCmdMfRead, b] ins) (h : Replies rep ins') (hr : rep.Read crc ins'' s) :
    ∃ back, Talks (mifareRead b buffer) (ins ++ (ins' ++ ins''))
      [airBits (withCRC crc [piccCmdMfRead, b]) 0] (s, back) ∧ rep.FilledIn back := by
  obtain ⟨values, len⟩ := buffer
  match values, hdata with
  | _ :: _ :: _ :: _ :: values, hdata =>
    let sent : List UInt8 := withCRC crc [piccCmdMfRead, b]
    have hvalues : 18 ≤ (sent ++ values).length := hdata
    have hcheck : rep.Checked (sent ++ values) true ins'' s := by
      cases hr with
      | silence | broken => rfl
      | bits hv => exact fun err herr => talks_verdict hv _ herr
    have hx : Talks (pcdTransceiveData sent (some ⟨sent ++ values, len⟩) none 0 true) (ins' ++ ins'')
        [airBits sent 0] (rep.exchange (sent ++ values) len none s) :=
      talks_communicate h hlen hvalues rfl hcheck
    have hs : (rep.exchange (sent ++ values) len none s).status = s := by cases hr <;> rfl
    refine ⟨(rep.exchange (sent ++ values) len none s).back.getD ⟨sent ++ values, len⟩, ?_, ?_⟩
    · rw [mifareRead, if_neg (Nat.not_lt.mpr hlen)]
      refine (talks_calculateCRC hcrc).bind (hx.bind_silent ?_)
      have hpure (back : Back) :
          Talks (pure ((rep.exchange (sent ++ values) len none s).status, back)) [] [] (s, back) := by
        rw [hs]
        exact .pure _
      exact hpure _
    · cases rep with
      | silence | broken => exact trivial
      | bits data lastBits => exact ⟨rfl, List.take_left⟩

theorem talks_mifareRead_stuck {b : UInt8} {buffer : Back} {ins : List UInt8} (hlen : 18 ≤ buffer.len)
    (hcrc : CrcStuck ins) : ∃ back, Talks (mifareRead b buffer) ins [] (.timeout, back) := by
  refine ⟨⟨(buffer.data.set 0 piccCmdMfRead).set 1 b, buffer.len⟩, ?_⟩
  rw [mifareRead, if_neg (Nat.not_lt.mpr hlen)]
  exact (talks_crcStuck hcrc).bind_silent (.pure _)

end ParkingLot
