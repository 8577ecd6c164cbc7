import Mathlib.Data.List.Basic

/-!
# The card reader behind its SPI link

`MFRC522.cpp`, from single registers up to one exchange with a card. What the chip answers to the
register reads is the environment's choice: a list of bytes, taken in order. The register writes
are kept as a log, so that the frames sent to a card can be read off it.

* `Bus`, `Spi`: the link, and computations over it.
* `pcdReadRegister`, `pcdReadRegisters`, `pcdWriteRegister`: single registers.
* `pcdCalculateCRC`, `pcdCommunicateWithPICC`, `pcdTransceiveData`: the coprocessor and one
  exchange.
-/

namespace ParkingLot

/-- `PCD_Register`, the registers the program uses. -/
inductive PcdRegister
  | commandReg | comIrqReg | divIrqReg | errorReg | fifoDataReg | fifoLevelReg | controlReg
  | bitFramingReg | collReg | crcResultRegL | crcResultRegH
  deriving DecidableEq, Repr

inductive StatusCode
  | ok | error | collision | timeout | noRoom | internalError | invalid | crcWrong | mifareNack
  deriving DecidableEq, Repr

abbrev Failure := {e : StatusCode // e ≠ .ok}

/-! ### `PCD_Command` and `PICC_Command` -/

def pcdIdle : UInt8 := 0x00
def pcdCalcCRC : UInt8 := 0x03
def pcdTransceive : UInt8 := 0x0C

def piccCmdREQA : UInt8 := 0x26
def piccCmdCT : UInt8 := 0x88
def piccCmdSelCL1 : UInt8 := 0x93
def piccCmdSelCL2 : UInt8 := 0x95
def piccCmdSelCL3 : UInt8 := 0x97

/-- The SPI link: the answers to the coming register reads, and the writes so far. -/
structure Bus where
  responses : List UInt8
  writes : List (PcdRegister × List UInt8)
  deriving DecidableEq, Repr

abbrev Spi := StateM Bus

def Bus.of (responses : List UInt8) : Bus := ⟨responses, []⟩

/-! ## Registers -/

/-- `PCD_WriteRegister`, for one value or several. -/
def pcdWriteRegister (reg : PcdRegister) (values : List UInt8) : Spi Unit :=
  modify fun b => { b with writes := b.writes ++ [(reg, values)] }

/-- `PCD_ReadRegister` for one byte. An exhausted answer list reads as zero. -/
def pcdReadRegister (_reg : PcdRegister) : Spi UInt8 :=
  modifyGet fun b => (b.responses.headD 0, { b with responses := b.responses.tail })

/-- The bits `rxAlign..7`. -/
def rxMask (rxAlign : UInt8) : UInt8 :=
  (List.range' rxAlign.toNat (8 - rxAlign.toNat)).foldl (fun m i => m ||| (1 <<< UInt8.ofNat i)) 0

/-- The reads of `PCD_ReadRegister` from position `index` on: `n` in the loop and a last one. Only
the loop masks the first byte, so a single byte is stored whole. -/
def readLoop (reg : PcdRegister) (rxAlign : UInt8) : ℕ → ℕ → List UInt8 → Spi (List UInt8)
  | 0, index, values => do
    let value ← pcdReadRegister reg
    pure (values.set index value)
  | n + 1, index, values => do
    let value ← pcdReadRegister reg
    let merged := if index = 0 ∧ rxAlign ≠ 0 then
      (values.getD 0 0 &&& ~~~rxMask rxAlign) ||| (value &&& rxMask rxAlign) else value
    readLoop reg rxAlign n (index + 1) (values.set index merged)

def pcdReadRegisters (reg : PcdRegister) (count : ℕ) (values : List UInt8) (rxAlign : UInt8) :
    Spi (List UInt8) :=
  match count with
  | 0 => pure values
  | n + 1 => readLoop reg rxAlign n 0 values

def pcdSetRegisterBits (reg : PcdRegister) (mask : UInt8) : Spi Unit := do
  let tmp ← pcdReadRegister reg
  pcdWriteRegister reg [tmp ||| mask]

def pcdClrRegisterBits (reg : PcdRegister) (mask : UInt8) : Spi Unit := do
  let tmp ← pcdReadRegister reg
  pcdWriteRegister reg [tmp &&& ~~~mask]

/-! ## The CRC coprocessor -/

/-- The polls of `DivIrqReg`, at most `i` of them: was the calculation done in time? -/
def waitCRC : ℕ → Spi Bool
  | 0 => pure false
  | i + 1 => do
    let n ← pcdReadRegister .divIrqReg
    if n &&& 0x04 ≠ 0 then pure true else waitCRC i

/-- `PCD_CalculateCRC`: the two result bytes, low byte first. -/
def pcdCalculateCRC (data : List UInt8) : Spi (Except Failure (UInt8 × UInt8)) := do
  pcdWriteRegister .commandReg [pcdIdle]
  pcdWriteRegister .divIrqReg [0x04]
  pcdSetRegisterBits .fifoLevelReg 0x80
  pcdWriteRegister .fifoDataReg data
  pcdWriteRegister .commandReg [pcdCalcCRC]
  let done ← waitCRC 5000
  if done then
    pcdWriteRegister .commandReg [pcdIdle]
    let low ← pcdReadRegister .crcResultRegL
    let high ← pcdReadRegister .crcResultRegH
    pure (.ok (low, high))
  else
    pure (.error ⟨.timeout, by decide⟩)

/-! ## One exchange with a card -/

/-- The caller's receive buffer: `backData` and `*backLen`. -/
structure Back where
  data : List UInt8
  len : ℕ
  deriving DecidableEq, Repr

/-- What `PCD_CommunicateWithPICC` leaves: its status, the receive buffer and `*validBits`. -/
structure Exchange where
  status : StatusCode
  back : Option Back
  validBits : Option UInt8
  deriving DecidableEq, Repr

/-- The polls of `ComIrqReg`, at most `i` of them: did an interrupt of `waitIRq` come in time? -/
def waitComIrq (waitIRq : UInt8) : ℕ → Spi Bool
  | 0 => pure false
  | i + 1 => do
    let n ← pcdReadRegister .comIrqReg
    if n &&& waitIRq ≠ 0 then pure true
    else if n &&& 0x01 ≠ 0 then pure false
    else waitComIrq waitIRq i

/-- The status of a received frame: a collision, or the CRC check if it is asked for. -/
def checkReceived (back : Back) (validBits errorRegValue : UInt8) (checkCRC : Bool) :
    Spi StatusCode :=
  if errorRegValue &&& 0x08 ≠ 0 then pure .collision
  else if !checkCRC then pure .ok
  else if back.len = 1 ∧ validBits = 4 then pure .mifareNack
  else if back.len < 2 ∨ validBits ≠ 0 then pure .crcWrong
  else do
    let crc ← pcdCalculateCRC (back.data.take (back.len - 2))
    match crc with
    | .error e => pure e.1
    | .ok (low, high) =>
      if back.data.getD (back.len - 2) 0 ≠ low ∨ back.data.getD (back.len - 1) 0 ≠ high then
        pure .crcWrong
      else pure .ok

/-- The answer of the card is fetched from the FIFO, when the caller wants it. -/
def receive (back : Option Back) (validBits : Option UInt8) (rxAlign errorRegValue : UInt8)
    (checkCRC : Bool) : Spi Exchange :=
  match back with
  | none => pure ⟨if errorRegValue &&& 0x08 ≠ 0 then .collision else .ok, none, validBits⟩
  | some back => do
    let n ← pcdReadRegister .fifoLevelReg
    if n.toNat > back.len then pure ⟨.noRoom, some back, validBits⟩
    else do
      let data ← pcdReadRegisters .fifoDataReg n.toNat back.data rxAlign
      let control ← pcdReadRegister .controlReg
      let lastBits := control &&& 0x07
      let status ← checkReceived ⟨data, n.toNat⟩ lastBits errorRegValue checkCRC
      pure ⟨status, some ⟨data, n.toNat⟩, validBits.map fun _ => lastBits⟩

/-- `PCD_CommunicateWithPICC`. `back` and `validBits` are `none` where the caller passes `NULL`. -/
def pcdCommunicateWithPICC (command waitIRq : UInt8) (sendData : List UInt8) (back : Option Back)
    (validBits : Option UInt8) (rxAlign : UInt8) (checkCRC : Bool) : Spi Exchange := do
  let txLastBits := validBits.getD 0
  pcdWriteRegister .commandReg [pcdIdle]
  pcdWriteRegister .comIrqReg [0x7F]
  pcdSetRegisterBits .fifoLevelReg 0x80
  pcdWriteRegister .fifoDataReg sendData
  pcdWriteRegister .bitFramingReg [(rxAlign <<< 4) + txLastBits]
  pcdWriteRegister .commandReg [command]
  if command = pcdTransceive then pcdSetRegisterBits .bitFramingReg 0x80
  let answered ← waitComIrq waitIRq 2000
  if answered then
    let errorRegValue ← pcdReadRegister .errorReg
    if errorRegValue &&& 0x13 ≠ 0 then pure ⟨.error, back, validBits⟩
    else receive back validBits rxAlign errorRegValue checkCRC
  else
    pure ⟨.timeout, back, validBits⟩

def pcdTransceiveData (sendData : List UInt8) (back : Option Back) (validBits : Option UInt8)
    (rxAlign : UInt8) (checkCRC : Bool) : Spi Exchange :=
  pcdCommunicateWithPICC pcdTransceive 0x30 sendData back validBits rxAlign checkCRC

end ParkingLot
