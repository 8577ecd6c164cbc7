import ParkingLot.Reader.Select
import ParkingLot.Machine.Dialogue
import Mathlib.Data.List.GetD
import Mathlib.Tactic.SplitIfs
import Mathlib.Tactic.IntervalCases

/-!
# From registers to frames

What the chip does with the register writes of the driver, and the answers it gives to the register
reads of one exchange. A frame is a string of bits, the least significant bit of a byte first.

* `bitAt`, `airBits`, `Frame`: bits of a byte string.
* `Chip`, `ear`: the sending side of the chip, as a listener to the register writes.
* `Polled`, `CrcAnswers`, `Reception`, `Answers`: answers of the chip, with any number of polls.
* **`talks_transceive`**: one exchange sends one frame, and stores what was received behind the bits
  that were known.
-/

namespace ParkingLot

open Machine

/-! ## Bits -/

/-- Bit `i` of a byte string, counted from the least significant bit of the first byte. -/
def bitAt (bs : List UInt8) (i : ℕ) : Bool := (bs.getD (i / 8) 0).toBitVec.getLsbD (i % 8)

theorem byte_ext {a b : UInt8} (h : ∀ j < 8, a.toBitVec.getLsbD j = b.toBitVec.getLsbD j) :
    a = b := by
  apply UInt8.toBitVec_inj.mp
  apply BitVec.eq_of_getLsbD_eq
  exact h

theorem or_and_self (a b : UInt8) : (a ||| b) &&& b = b := by
  apply byte_ext
  intro j _
  simp only [UInt8.toBitVec_and, UInt8.toBitVec_or, BitVec.getLsbD_and, BitVec.getLsbD_or]
  cases a.toBitVec.getLsbD j <;> cases b.toBitVec.getLsbD j <;> rfl

theorem bitAt_set (bs : List UInt8) (i : ℕ) (b : UInt8) (j : ℕ) :
    bitAt (bs.set i b) j =
      if j / 8 = i ∧ i < bs.length then b.toBitVec.getLsbD (j % 8) else bitAt bs j := by
  simp only [bitAt, List.getD_eq_getElem?_getD, List.getElem?_set]
  by_cases hj : i = j / 8
  · by_cases hlt : j / 8 < bs.length
    · simp [hj, hlt]
    · simp [hj, hlt]
  · simp [hj, Ne.symm hj]

theorem bitAt_drop (bs : List UInt8) (m i : ℕ) : bitAt (bs.drop m) i = bitAt bs (8 * m + i) := by
  rw [bitAt, bitAt, List.getD_eq_getElem?_getD, List.getElem?_drop, ← List.getD_eq_getElem?_getD,
    show m + i / 8 = (8 * m + i) / 8 by omega, show i % 8 = (8 * m + i) % 8 by omega]

theorem bitAt_append (as bs : List UInt8) (i : ℕ) :
    bitAt (as ++ bs) i = if i < 8 * as.length then bitAt as i else bitAt bs (i - 8 * as.length) := by
  simp only [bitAt, List.getD_eq_getElem?_getD]
  split_ifs with h
  · rw [List.getElem?_append_left (by omega)]
  · rw [List.getElem?_append_right (by omega), show i / 8 - as.length = (i - 8 * as.length) / 8 by omega,
      show i % 8 = (i - 8 * as.length) % 8 by omega]

theorem bitAt_take (bs : List UInt8) (m i : ℕ) :
    bitAt (bs.take m) i = if i < 8 * m then bitAt bs i else false := by
  simp only [bitAt, List.getD_eq_getElem?_getD, List.getElem?_take]
  by_cases h : i < 8 * m
  · rw [if_pos h, if_pos (by omega)]
  · rw [if_neg h, if_neg (by omega)]
    simp

/-- The bits determine the bytes. -/
theorem bytes_ext {as bs : List UInt8} (hl : as.length = bs.length)
    (h : ∀ i < 8 * as.length, bitAt as i = bitAt bs i) : as = bs := by
  apply List.ext_getElem hl
  intro i hi hi'
  apply byte_ext
  intro j hj
  have hb := h (8 * i + j) (by omega)
  rw [bitAt, bitAt, show (8 * i + j) / 8 = i by omega, show (8 * i + j) % 8 = j by omega,
    List.getD_eq_getElem _ _ hi, List.getD_eq_getElem _ _ hi'] at hb
  exact hb

/-! ## Frames -/

/-- What goes through the air, in the order in which it is sent. -/
abbrev Frame := List Bool

/-- The bits of `bytes`, the last byte with `lastBits` bits, where 0 means all. -/
def airBits (bytes : List UInt8) (lastBits : UInt8) : Frame :=
  (List.range (8 * bytes.length - (8 - lastBits.toNat) % 8)).map (bitAt bytes)

/-- The sending side of the chip. -/
structure Chip where
  fifo : List UInt8
  command : UInt8
  deriving DecidableEq, Repr

/-- What a register write does: FlushBuffer, data for the FIFO, a command, and StartSend, which
sends the contents of the FIFO while the command is Transceive. -/
def Chip.write (c : Chip) : PcdRegister × List UInt8 → Chip × List Frame
  | (.commandReg, [v]) => ({ c with command := v }, [])
  | (.fifoLevelReg, [v]) => (if v &&& 0x80 = 0x80 then { c with fifo := [] } else c, [])
  | (.fifoDataReg, vs) => ({ c with fifo := c.fifo ++ vs }, [])
  | (.bitFramingReg, [v]) =>
    if v &&& 0x80 = 0x80 ∧ c.command = pcdTransceive then
      ({ c with fifo := [] }, [airBits c.fifo (v &&& 0x07)])
    else (c, [])
  | _ => (c, [])

/-- The chip, listening to the register writes. -/
def ear : Listener Chip (PcdRegister × List UInt8) Frame := ⟨Chip.write⟩

/-- The SPI link, with the answers of the chip to come. -/
def spiPort : Port Bus UInt8 (PcdRegister × List UInt8) := ⟨Bus.mk⟩

/-- A computation of the driver takes the answers `ins`, makes the chip send `frames`, and ends
with `a`. -/
abbrev Talks {α : Type} (x : Spi α) (ins : List UInt8) (frames : List Frame) (a : α) : Prop :=
  ear.Talks spiPort x ins frames a

/-! ## Registers -/

theorem says_read (reg : PcdRegister) (v : UInt8) :
    spiPort.Says (pcdReadRegister reg) [v] [] v := fun rest past => by
  rw [List.append_nil]
  rfl

theorem says_write (reg : PcdRegister) (vs : List UInt8) :
    spiPort.Says (pcdWriteRegister reg vs) [] [(reg, vs)] () := fun _ _ => rfl

theorem says_setBits (reg : PcdRegister) (mask v : UInt8) :
    spiPort.Says (pcdSetRegisterBits reg mask) [v] [(reg, [v ||| mask])] () :=
  (says_read reg v).bind (says_write reg _)

theorem says_clrBits (reg : PcdRegister) (mask v : UInt8) :
    spiPort.Says (pcdClrRegisterBits reg mask) [v] [(reg, [v &&& ~~~mask])] () :=
  (says_read reg v).bind (says_write reg _)

theorem talks_read (reg : PcdRegister) (v : UInt8) : Talks (pcdReadRegister reg) [v] [] v :=
  ⟨[], says_read reg v, .nil⟩

/-! ## Several bytes from the FIFO -/

/-- The bytes are stored from `index` on. -/
def storeFrom : ℕ → List UInt8 → List UInt8 → List UInt8
  | _, values, [] => values
  | index, values, d :: ds => storeFrom (index + 1) (values.set index d) ds

/-- The values after a read: of the first byte only the bits from `rxAlign` on, if there are
others. -/
def stored (rxAlign : UInt8) (values : List UInt8) : List UInt8 → List UInt8
  | [] => values
  | [d] => values.set 0 d
  | d :: ds =>
    storeFrom 1 (values.set 0 (if rxAlign ≠ 0 then
      (values.getD 0 0 &&& ~~~rxMask rxAlign) ||| (d &&& rxMask rxAlign) else d)) ds

theorem says_readLoop (reg : PcdRegister) (rxAlign : UInt8) {index : ℕ} (hi : index ≠ 0) (d : UInt8)
    (ds values : List UInt8) :
    spiPort.Says (readLoop reg rxAlign ds.length index values) (d :: ds) []
      (storeFrom index values (d :: ds)) := by
  induction ds generalizing index d values with
  | nil => exact (says_read reg d).bind (Port.Says.pure _)
  | cons d' ds ih =>
    have h := ih (Nat.succ_ne_zero index) d' (values.set index d)
    refine (says_read reg d).bind ?_
    rw [if_neg (fun hc => hi hc.1)]
    exact h

theorem says_readRegisters (reg : PcdRegister) (values : List UInt8) (rxAlign : UInt8)
    (data : List UInt8) :
    spiPort.Says (pcdReadRegisters reg data.length values rxAlign) data []
      (stored rxAlign values data) := by
  match data with
  | [] => exact Port.Says.pure _
  | [d] => exact (says_read reg d).bind (Port.Says.pure _)
  | d :: d' :: ds =>
    refine (says_read reg d).bind ?_
    simp only [true_and]
    exact says_readLoop reg rxAlign (by omega) d' ds _

theorem length_storeFrom (index : ℕ) (values data : List UInt8) :
    (storeFrom index values data).length = values.length := by
  induction data generalizing index values with
  | nil => rfl
  | cons d ds ih => rw [storeFrom, ih, List.length_set]

theorem bitAt_storeFrom (index : ℕ) (values data : List UInt8) (i : ℕ)
    (hl : index + data.length ≤ values.length) :
    bitAt (storeFrom index values data) i =
      if 8 * index ≤ i ∧ i < 8 * (index + data.length) then bitAt data (i - 8 * index)
      else bitAt values i := by
  induction data generalizing index values with
  | nil =>
    rw [if_neg (by simp)]
    rfl
  | cons d ds ih =>
    rw [List.length_cons] at hl ⊢
    rw [storeFrom, ih _ _ (by rw [List.length_set]; omega), bitAt_set]
    by_cases hhead : i / 8 = index
    · rw [if_neg (by omega), if_pos ⟨hhead, by omega⟩, if_pos (by omega), bitAt,
        show (i - 8 * index) / 8 = 0 by omega, show (i - 8 * index) % 8 = i % 8 by omega]
      rfl
    · rw [if_neg (c := i / 8 = index ∧ _) (fun h => hhead h.1)]
      by_cases htail : 8 * (index + 1) ≤ i ∧ i < 8 * (index + 1 + ds.length)
      · rw [if_pos htail, if_pos (by omega), bitAt, bitAt,
          show (i - 8 * index) / 8 = (i - 8 * (index + 1)) / 8 + 1 by omega,
          show (i - 8 * index) % 8 = (i - 8 * (index + 1)) % 8 by omega]
        rfl
      · rw [if_neg htail, if_neg (by omega)]

theorem length_stored (rxAlign : UInt8) (values data : List UInt8) :
    (stored rxAlign values data).length = values.length := by
  match data with
  | [] => rfl
  | [d] => exact List.length_set
  | d :: d' :: ds => exact (length_storeFrom ..).trans List.length_set

theorem bit_rxMask : ∀ r j : Fin 8,
    (rxMask (UInt8.ofNat r)).toBitVec.getLsbD j = decide (r ≤ j) := by decide +kernel

/-- The first byte of a read with `rxAlign` keeps its low bits. -/
theorem bit_merge {r j : ℕ} (hr : r < 8) (hj : j < 8) (v d : UInt8) :
    ((v &&& ~~~rxMask (UInt8.ofNat r)) ||| (d &&& rxMask (UInt8.ofNat r))).toBitVec.getLsbD j =
      if j < r then v.toBitVec.getLsbD j else d.toBitVec.getLsbD j := by
  have h := bit_rxMask ⟨r, hr⟩ ⟨j, hj⟩
  simp only [Fin.mk_le_mk] at h
  simp only [UInt8.toBitVec_and, UInt8.toBitVec_or, UInt8.toBitVec_not, BitVec.getLsbD_and,
    BitVec.getLsbD_or, BitVec.getLsbD_not, h, hj]
  by_cases hjr : j < r
  · simp [hjr, Nat.not_le.mpr hjr]
  · simp [hjr, Nat.not_lt.mp hjr]

/-- **What a read of several bytes leaves**: the bits below `r` are kept, and the received bits
follow them. -/
theorem bitAt_stored {r : ℕ} (hr : r < 8) {values data : List UInt8} (h2 : 2 ≤ data.length)
    (hl : data.length ≤ values.length) (i : ℕ) :
    bitAt (stored (UInt8.ofNat r) values data) i =
      if r ≤ i ∧ i < 8 * data.length then bitAt data i else bitAt values i := by
  match data, h2 with
  | d :: d' :: ds, _ =>
    rw [List.length_cons] at hl ⊢
    rw [stored, bitAt_storeFrom _ _ _ _ (by rw [List.length_set]; omega), bitAt_set]
    · by_cases hhead : i / 8 = 0
      · have hi : i < 8 := by omega
        rw [if_neg (by omega), if_pos ⟨hhead, by omega⟩]
        have hd : bitAt (d :: d' :: ds) i = d.toBitVec.getLsbD (i % 8) := by
          rw [bitAt, hhead]
          rfl
        have hv : bitAt values i = (values.getD 0 0).toBitVec.getLsbD (i % 8) := by
          rw [bitAt, hhead]
        rw [hd, hv]
        by_cases h0 : r = 0
        · subst h0
          rw [if_neg (by decide), if_pos (by omega)]
        · have hne : UInt8.ofNat r ≠ 0 := by
            interval_cases r <;> first | omega | decide
          rw [if_pos hne, bit_merge hr (by omega)]
          by_cases hir : i < r
          · rw [if_pos (by omega), if_neg (by omega)]
          · rw [if_neg (by omega), if_pos (by omega)]
      · rw [if_neg (c := i / 8 = 0 ∧ _) (fun h => hhead h.1)]
        by_cases hi : i < 8 * (1 + (d' :: ds).length)
        · rw [if_pos (by omega), if_pos (by omega), bitAt, bitAt,
            show i / 8 = (i - 8 * 1) / 8 + 1 by omega, show i % 8 = (i - 8 * 1) % 8 by omega]
          rfl
        · rw [if_neg (by omega), if_neg (by omega)]
    · exact nofun

/-! ## Answers of the chip -/

/-- The answers to at most `n` polls of an interrupt register, until a bit of `mask` is set (and
the flag is true), or one of `stop`, or the polls are over. -/
inductive Polled (mask stop : UInt8) : ℕ → Bool → List UInt8 → Prop
  | spent : Polled mask stop 0 false []
  | hit {n : ℕ} {v : UInt8} : v &&& mask ≠ 0 → Polled mask stop (n + 1) true [v]
  | stopped {n : ℕ} {v : UInt8} : v &&& mask = 0 → v &&& stop ≠ 0 →
    Polled mask stop (n + 1) false [v]
  | wait {n : ℕ} {b : Bool} {v : UInt8} {vs : List UInt8} : v &&& mask = 0 → v &&& stop = 0 →
    Polled mask stop n b vs → Polled mask stop (n + 1) b (v :: vs)

theorem says_waitComIrq {waitIRq : UInt8} {n : ℕ} {b : Bool} {vs : List UInt8}
    (h : Polled waitIRq 0x01 n b vs) : spiPort.Says (waitComIrq waitIRq n) vs [] b := by
  induction h with
  | spent => exact Port.Says.pure _
  | hit hv =>
    refine (says_read _ _).bind ?_
    rw [if_pos hv]
    exact Port.Says.pure _
  | stopped hv hs =>
    refine (says_read _ _).bind ?_
    rw [if_neg (not_not.mpr hv), if_pos hs]
    exact Port.Says.pure _
  | wait hv hs _ ih =>
    refine (says_read _ _).bind ?_
    rw [if_neg (not_not.mpr hv), if_neg (not_not.mpr hs)]
    exact ih

theorem says_waitCRC {n : ℕ} {b : Bool} {vs : List UInt8} (h : Polled 0x04 0 n b vs) :
    spiPort.Says (waitCRC n) vs [] b := by
  induction h with
  | spent => exact Port.Says.pure _
  | hit hv =>
    refine (says_read _ _).bind ?_
    rw [if_pos hv]
    exact Port.Says.pure _
  | stopped _ hs => exact absurd UInt8.and_zero hs
  | wait hv _ _ ih =>
    refine (says_read _ _).bind ?_
    rw [if_neg (not_not.mpr hv)]
    exact ih

/-- A checksum of two bytes. -/
abbrev Checksum := List UInt8 → UInt8 × UInt8

/-- The answers of the coprocessor that computes `crc` of `data`. -/
inductive CrcAnswers (crc : Checksum) (data : List UInt8) : List UInt8 → Prop
  | done {level : UInt8} {polls : List UInt8} : Polled 0x04 0 5000 true polls →
    CrcAnswers crc data ([level] ++ (polls ++ [(crc data).1, (crc data).2]))

/-- What comes back after a frame: nothing, whole bytes, or bytes with a collision among them and
some number of bits in the last one. -/
inductive Reception
  | silence
  | clear (data : List UInt8)
  | collision (data : List UInt8) (lastBits : UInt8)

/-- The answers of the chip in one exchange, when `framing` is in `BitFramingReg`. -/
inductive Answers (framing : UInt8) : Reception → List UInt8 → Prop
  | silence {level : UInt8} {polls : List UInt8} : Polled 0x30 0x01 2000 false polls →
    Answers framing .silence ([level] ++ ([framing] ++ polls))
  | clear {level err control : UInt8} {polls data : List UInt8} :
    Polled 0x30 0x01 2000 true polls → err &&& 0x13 = 0 → err &&& 0x08 = 0 →
    control &&& 0x07 = 0 → data.length < 256 →
    Answers framing (.clear data) ([level] ++ ([framing] ++ (polls ++
      ([err] ++ ([UInt8.ofNat data.length] ++ (data ++ [control]))))))
  | collision {level err control : UInt8} {polls data : List UInt8} :
    Polled 0x30 0x01 2000 true polls → err &&& 0x13 = 0 → err &&& 0x08 ≠ 0 → data.length < 256 →
    Answers framing (.collision data (control &&& 0x07)) ([level] ++ ([framing] ++ (polls ++
      ([err] ++ ([UInt8.ofNat data.length] ++ (data ++ [control]))))))

/-! ## The coprocessor -/

theorem exists_crcAnswers (crc : Checksum) (data : List UInt8) : ∃ ins, CrcAnswers crc data ins :=
  ⟨_, @CrcAnswers.done crc data 0 [0x04] (.hit (by decide))⟩

theorem talks_calculateCRC {crc : Checksum} {data ins : List UInt8} (h : CrcAnswers crc data ins) :
    Talks (pcdCalculateCRC data) ins [] (.ok (crc data)) := by
  obtain ⟨hp⟩ := h
  rename_i level polls
  refine ⟨[(.commandReg, [pcdIdle]), (.divIrqReg, [0x04]), (.fifoLevelReg, [level ||| 0x80]),
    (.fifoDataReg, data), (.commandReg, [pcdCalcCRC]), (.commandReg, [pcdIdle])], ?_, ?_⟩
  · exact (says_write _ _).bind <| (says_write _ _).bind <| (says_setBits _ _ level).bind <|
      (says_write _ _).bind <| (says_write _ _).bind <| (says_waitCRC hp).bind <|
      (says_write _ _).bind <| (says_read _ _).bind <| (says_read _ _).bind <| Port.Says.pure _
  · intro s
    rfl

/-! ## One exchange -/

/-- What `PCD_TransceiveData` leaves, when the caller's buffer holds `values` and has room for
`len` bytes. -/
def Reception.exchange (values : List UInt8) (len : ℕ) (txLastBits rxAlign : UInt8) :
    Reception → Exchange
  | silence => ⟨.timeout, some ⟨values, len⟩, some txLastBits⟩
  | clear data => ⟨.ok, some ⟨stored rxAlign values data, data.length⟩, some 0⟩
  | collision data lastBits =>
    ⟨.collision, some ⟨stored rxAlign values data, data.length⟩, some lastBits⟩

def Reception.Fits (len : ℕ) : Reception → Prop
  | silence => True
  | clear data => data.length ≤ len
  | collision data _ => data.length ≤ len

theorem says_receive {values data : List UInt8} {len : ℕ} {txLastBits rxAlign err control : UInt8}
    {status : StatusCode} {lastBits : UInt8} (hlen : data.length < 256) (hfit : data.length ≤ len)
    (hs : status = if err &&& 0x08 ≠ 0 then .collision else .ok)
    (hb : lastBits = control &&& 0x07) :
    spiPort.Says (receive (some ⟨values, len⟩) (some txLastBits) rxAlign err false)
      ([UInt8.ofNat data.length] ++ (data ++ [control])) []
      ⟨status, some ⟨stored rxAlign values data, data.length⟩, some lastBits⟩ := by
  subst hs hb
  have hn : (UInt8.ofNat data.length).toNat = data.length := by
    rw [UInt8.toNat_ofNat', Nat.mod_eq_of_lt hlen]
  have hroom : ¬ data.length > (Back.mk values len).len := Nat.not_lt.mpr hfit
  refine (says_read _ _).bind ?_
  rw [hn, if_neg hroom]
  refine (says_readRegisters _ _ _ _).bind ((says_read _ control).bind ?_)
  by_cases hc : err &&& 0x08 ≠ 0
  · simp only [checkReceived, if_pos hc]
    exact (Port.Says.pure _).bind (Port.Says.pure _)
  · simp only [checkReceived, if_neg hc, Bool.not_false, if_true]
    exact (Port.Says.pure _).bind (Port.Says.pure _)

/-- The writes of one exchange. -/
def exchangeWrites (sendData : List UInt8) (framing level : UInt8) : List (PcdRegister × List UInt8) :=
  [(.commandReg, [pcdIdle]), (.comIrqReg, [0x7F]), (.fifoLevelReg, [level ||| 0x80]),
    (.fifoDataReg, sendData), (.bitFramingReg, [framing]), (.commandReg, [pcdTransceive]),
    (.bitFramingReg, [framing ||| 0x80])]

/-- `BitFramingReg` without StartSend. -/
theorem framing_bits : ∀ r t : Fin 8, let f := (UInt8.ofNat r <<< 4) + UInt8.ofNat t
    f &&& 0x80 = 0 ∧ (f ||| 0x80) &&& 0x07 = UInt8.ofNat t := by decide +kernel

theorem hears_exchange (sendData : List UInt8) (level : UInt8) (r t : Fin 8) :
    ear.Hears (exchangeWrites sendData ((UInt8.ofNat r <<< 4) + UInt8.ofNat t) level)
      [airBits sendData (UInt8.ofNat t)] := by
  intro s
  obtain ⟨hf, ht⟩ := framing_bits r t
  have hne : ¬ ((UInt8.ofNat r <<< 4) + UInt8.ofNat t) &&& 0x80 = 0x80 := by
    rw [hf]
    decide
  simp only [exchangeWrites, Listener.messages, ear, Chip.write, or_and_self, hne, false_and,
    if_true, if_false, and_self, ht, List.nil_append, List.append_nil]

theorem talks_send {α : Type} (sendData : List UInt8) (level : UInt8) (r t : Fin 8) {k : Spi α}
    {rest : List UInt8} {a : α} (hk : spiPort.Says k rest [] a) :
    Talks (do
      pcdWriteRegister .commandReg [pcdIdle]
      pcdWriteRegister .comIrqReg [0x7F]
      pcdSetRegisterBits .fifoLevelReg 0x80
      pcdWriteRegister .fifoDataReg sendData
      pcdWriteRegister .bitFramingReg [(UInt8.ofNat r <<< 4) + UInt8.ofNat t]
      pcdWriteRegister .commandReg [pcdTransceive]
      pcdSetRegisterBits .bitFramingReg 0x80
      k) ([level] ++ ([(UInt8.ofNat r <<< 4) + UInt8.ofNat t] ++ rest))
      [airBits sendData (UInt8.ofNat t)] a :=
  ⟨exchangeWrites sendData _ level,
    (says_write _ _).bind <| (says_write _ _).bind <| (says_setBits _ _ level).bind <|
      (says_write _ _).bind <| (says_write _ _).bind <| (says_write _ _).bind <|
      (says_setBits _ _ _).bind hk,
    hears_exchange sendData level r t⟩

/-- **One exchange sends one frame.** -/
theorem talks_transceive {sendData values ins : List UInt8} {len : ℕ} {r t : Fin 8}
    {rec : Reception} (h : Answers ((UInt8.ofNat r <<< 4) + UInt8.ofNat t) rec ins)
    (hfit : rec.Fits len) :
    Talks (pcdTransceiveData sendData (some ⟨values, len⟩) (some (UInt8.ofNat t)) (UInt8.ofNat r) false)
      ins [airBits sendData (UInt8.ofNat t)]
      (rec.exchange values len (UInt8.ofNat t) (UInt8.ofNat r)) := by
  cases h with
  | @silence level polls hp =>
    refine talks_send _ _ _ _ ?_
    rw [← List.append_nil polls]
    exact (says_waitComIrq hp).bind (Port.Says.pure _)
  | clear hp he hc hl hlen =>
    refine talks_send _ _ _ _ ((says_waitComIrq hp).bind ((says_read _ _).bind ?_))
    rw [if_neg (not_not.mpr he)]
    exact says_receive hlen hfit (if_neg (not_not.mpr hc)).symm hl.symm
  | collision hp he hc hlen =>
    refine talks_send _ _ _ _ ((says_waitComIrq hp).bind ((says_read _ _).bind ?_))
    rw [if_neg (not_not.mpr he)]
    exact says_receive hlen hfit (if_pos hc).symm rfl

end ParkingLot
