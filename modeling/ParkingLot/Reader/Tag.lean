import ParkingLot.Reader.Mifare
import Mathlib.Logic.Function.Basic

/-!
# The memory of a card, through the air

The other side of the MIFARE commands: a card with blocks of 16 bytes and a register. WRITE and the
commands on values take two frames; on any frame that does not fit, the card stops to answer until it
is activated again. Either frame of an exchange can be lost.

Some addresses are `plain`: those of the data blocks of a MIFARE Classic, which hold what was written to
them. No more is said about the others, such as the sector trailers, whose keys cannot be read, or the
pages of an Ultralight, which stores four of the 16 bytes and returns four pages at once.

* `Block`, `Phase`, `Tag`: the card. `Tag.Takes`: what it makes of the bytes of a WRITE.
* `Obeys`: what a command does. `Hears`, `OnAir`: what a frame does, and what comes back.
* `airBits_inj`: a frame determines its bytes.
* `obeys_command`, `obeys_data`, `obeys_operand`: what a card can do in an exchange.
* `Swap`: one command of the driver, with the answers of the chip.
-/

namespace ParkingLot

open Machine

/-! ## The card -/

abbrev Block := {w : List UInt8 // w.length = 16}

/-- What the card waits for. -/
inductive Phase
  | ready
  | data (b : UInt8)
  | operand (command b : UInt8)
  | mute
  deriving DecidableEq

/-- An activated card: its blocks, and the register of the commands on values. -/
structure Tag where
  block : UInt8 → Block
  register : Block
  phase : Phase

namespace Tag

def enter (t : Tag) (phase : Phase) : Tag := { t with phase := phase }

def store (t : Tag) (b : UInt8) (w : Block) : Tag :=
  { t with block := Function.update t.block b w, phase := .ready }

def load (t : Tag) (w : Block) : Tag := { t with register := w, phase := .ready }

/-- The card takes the bytes of a WRITE. A plain block stores them, and no other block changes. Another
block makes of them what it likes, also of blocks beside it that are not plain either. -/
structure Takes (plain : UInt8 → Bool) (t : Tag) (b : UInt8) (w : Block) (t' : Tag) : Prop where
  stored : plain b = true → t'.block = Function.update t.block b w
  kept : plain b = false → ∀ b', plain b' = true → t'.block b' = t.block b'
  register_eq : t'.register = t.register
  phase_eq : t'.phase = .ready

/-- The card does not obey a command. -/
def Deaf (t : Tag) : Prop := t.phase = .mute ∨ ∃ command b, t.phase = .operand command b

end Tag

/-- The commands with an operand. -/
def valueCommands : List UInt8 := [piccCmdMfDecrement, piccCmdMfIncrement, piccCmdMfRestore]

/-- The reply of four bits. -/
def Reply.nibble (v : UInt8) : Reply := .bits [v] 4

section Air

variable (plain : UInt8 → Bool) (crc : Checksum) (compute : UInt8 → Block → List UInt8 → Block)

/-- What the card does when it obeys the bytes of a frame, and what it sends. With `compute` it
computes the new register from a block and an operand, which it does not acknowledge. -/
inductive Obeys (t : Tag) : List UInt8 → Reply → Tag → Prop
  | read {b : UInt8} {w : Block} : t.phase = .ready → (plain b = true → w = t.block b) →
    Obeys t [piccCmdMfRead, b] (.bits (withCRC crc w) 0) t
  | write {b : UInt8} : t.phase = .ready →
    Obeys t [piccCmdMfWrite, b] (.nibble mfAck) (t.enter (.data b))
  | data {b : UInt8} {w : Block} {t' : Tag} : t.phase = .data b → t.Takes plain b w t' →
    Obeys t w (.nibble mfAck) t'
  | value {command b : UInt8} : t.phase = .ready → command ∈ valueCommands →
    Obeys t [command, b] (.nibble mfAck) (t.enter (.operand command b))
  | operand {command b : UInt8} {w : List UInt8} : t.phase = .operand command b → w.length = 4 →
    Obeys t w .silence (t.load (compute command (t.block b) w))
  | transfer {b : UInt8} : t.phase = .ready →
    Obeys t [piccCmdMfTransfer, b] (.nibble mfAck) (t.store b t.register)

/-- What the card does with a frame: it obeys, or it refuses and stops to answer, with a NAK or
without. -/
inductive Hears (t : Tag) (f : Frame) : Reply → Tag → Prop
  | obeyed {p : List UInt8} {rep : Reply} {t' : Tag} : f = airBits (withCRC crc p) 0 →
    Obeys plain crc compute t p rep t' → Hears t f rep t'
  | refused {v : UInt8} : v ≠ mfAck → Hears t f (.nibble v) (t.enter .mute)
  | dropped : Hears t f .silence (t.enter .mute)

/-- Nothing comes back, or something broken. -/
def Reply.Noise (rep : Reply) : Prop := rep = .silence ∨ rep = .broken

/-- One exchange through the air: each of the two frames can be lost. -/
inductive OnAir (t : Tag) (f : Frame) : Reply → Tag → Prop
  | heard {rep : Reply} {t' : Tag} : Hears plain crc compute t f rep t' → OnAir t f rep t'
  | replyLost {rep rep' : Reply} {t' : Tag} : Hears plain crc compute t f rep t' → rep'.Noise →
    OnAir t f rep' t'
  | lost {rep : Reply} : rep.Noise → OnAir t f rep t

end Air

/-! ## Frames of whole bytes -/

theorem length_airBits (bs : List UInt8) : (airBits bs 0).length = 8 * bs.length := by
  simp [airBits]

theorem airBits_inj {as bs : List UInt8} (h : airBits as 0 = airBits bs 0) : as = bs := by
  have hlen : as.length = bs.length := by
    have := congrArg List.length h
    rw [length_airBits, length_airBits] at this
    omega
  rw [airBits, airBits, hlen] at h
  refine bytes_ext hlen fun i hi => List.map_inj_left.mp h i (List.mem_range.mpr ?_)
  show i < 8 * bs.length - 0
  omega

theorem withCRC_inj {crc : Checksum} {p q : List UInt8} (h : withCRC crc p = withCRC crc q) : p = q := by
  have hlen := congrArg List.length h
  simp only [withCRC, List.length_append, List.length_cons, List.length_nil] at hlen
  exact (List.append_inj h (by omega)).1

/-! ## What a card can do -/

variable {plain : UInt8 → Bool} {crc : Checksum} {compute : UInt8 → Block → List UInt8 → Block}
  {t t' : Tag} {rep : Reply}

theorem Tag.takes_store (t : Tag) (b : UInt8) (w : Block) : t.Takes plain b w (t.store b w) where
  stored := fun _ => rfl
  kept := by
    intro hb b' hb'
    have hne : b' ≠ b := by
      rintro rfl
      rw [hb] at hb'
      cases hb'
    show Function.update t.block b w b' = t.block b'
    rw [Function.update_of_ne hne]
  register_eq := rfl
  phase_eq := rfl

/-- A command of two bytes. -/
theorem obeys_command {c b : UInt8} (h : Obeys plain crc compute t [c, b] rep t') :
    t.phase = .ready ∧
      ((c = piccCmdMfRead ∧ t' = t ∧ ∃ w : Block, (plain b = true → w = t.block b) ∧
          rep = .bits (withCRC crc w) 0) ∨
        rep = .nibble mfAck ∧
          (c = piccCmdMfWrite ∧ t' = t.enter (.data b) ∨
            c ∈ valueCommands ∧ t' = t.enter (.operand c b) ∨
            c = piccCmdMfTransfer ∧ t' = t.store b t.register)) := by
  generalize hp : [c, b] = p at h
  have hlen := congrArg List.length hp
  cases h with
  | read hr hw =>
    cases hp
    exact ⟨hr, .inl ⟨rfl, rfl, _, hw, rfl⟩⟩
  | write hr =>
    cases hp
    exact ⟨hr, .inr ⟨rfl, .inl ⟨rfl, rfl⟩⟩⟩
  | @data b w _ hd => exact absurd (hlen.trans w.2) (by simp)
  | value hr hc =>
    cases hp
    exact ⟨hr, .inr ⟨rfl, .inr (.inl ⟨hc, rfl⟩)⟩⟩
  | operand hd hw => exact absurd (hlen.trans hw) (by simp)
  | transfer hr =>
    cases hp
    exact ⟨hr, .inr ⟨rfl, .inr (.inr ⟨rfl, rfl⟩)⟩⟩

/-- The sixteen bytes of a WRITE, or others of more than four. -/
theorem obeys_data {p : List UInt8} (hp : 4 < p.length) (h : Obeys plain crc compute t p rep t') :
    ∃ b w, t.phase = .data b ∧ w.1 = p ∧ rep = .nibble mfAck ∧ t.Takes plain b w t' := by
  cases h with
  | @data b w _ hd ht => exact ⟨b, w, hd, rfl, rfl, ht⟩
  | operand hd hw => omega
  | read | write | value | transfer => simp at hp

/-- The four bytes of an operand. -/
theorem obeys_operand {p : List UInt8} (hp : p.length = 4) (h : Obeys plain crc compute t p rep t') :
    ∃ command b, t.phase = .operand command b ∧ rep = .silence ∧
      t' = t.load (compute command (t.block b) p) := by
  cases h with
  | @data b w _ hd =>
    have := w.2
    omega
  | @operand command b w hd hw => exact ⟨command, b, hd, rfl, rfl⟩
  | read | write | value | transfer => simp at hp

/-! ## One command -/

/-- The driver sends the bytes with a CRC: the coprocessor does not come to an end, or the frame goes
out and the reply is reported. -/
inductive Swap (plain : UInt8 → Bool) (crc : Checksum) (compute : UInt8 → Block → List UInt8 → Block)
    (p : List UInt8) (t : Tag) : List UInt8 → Option Reply → Tag → Prop
  | stuck {ins : List UInt8} : CrcStuck ins → Swap plain crc compute p t ins none t
  | sent {t' : Tag} {ins ins' : List UInt8} {rep : Reply} : CrcAnswers crc p ins →
    OnAir plain crc compute t (airBits (withCRC crc p) 0) rep t' → Replies rep ins' →
    Swap plain crc compute p t (ins ++ ins') (some rep) t'

/-- The status of `PCD_MIFARE_Transceive`. -/
def ackStatus (acceptTimeout : Bool) : Option Reply → StatusCode
  | none => .timeout
  | some rep => rep.ack acceptTimeout

theorem Swap.talks {p ins : List UInt8} {o : Option Reply} (h : Swap plain crc compute p t ins o t')
    (hp : p.length ≤ 16) (acceptTimeout : Bool) :
    ∃ frames, Talks (pcdMifareTransceive p acceptTimeout) ins frames (ackStatus acceptTimeout o) := by
  cases h with
  | stuck hcrc => exact ⟨_, talks_mifareTransceive_stuck _ hp hcrc⟩
  | sent hcrc _ hrep => exact ⟨_, talks_mifareTransceive hp hcrc hrep⟩

/-- **What one exchange does to the card**: nothing, or it stops to answer, or it obeys. -/
theorem OnAir.cases {p : List UInt8} (h : OnAir plain crc compute t (airBits (withCRC crc p) 0) rep t') :
    t' = t ∨ t' = t.enter .mute ∨ ∃ rep', Obeys plain crc compute t p rep' t' := by
  have hears : ∀ {r}, Hears plain crc compute t (airBits (withCRC crc p) 0) r t' →
      t' = t.enter .mute ∨ ∃ rep', Obeys plain crc compute t p rep' t' := by
    rintro r (⟨hf, ho⟩ | _ | _)
    · obtain rfl := withCRC_inj (airBits_inj hf)
      exact .inr ⟨r, ho⟩
    · exact .inl rfl
    · exact .inl rfl
  cases h with
  | heard hh => exact .inr (hears hh)
  | replyLost hh _ => exact .inr (hears hh)
  | lost _ => exact .inl rfl

theorem Swap.cases {p ins : List UInt8} {o : Option Reply} (h : Swap plain crc compute p t ins o t') :
    t' = t ∨ t' = t.enter .mute ∨ ∃ rep, Obeys plain crc compute t p rep t' := by
  cases h with
  | stuck => exact .inl rfl
  | sent _ hair _ => exact hair.cases

theorem Reply.ack_eq_ok {acceptTimeout : Bool} (h : rep.ack acceptTimeout = .ok) :
    rep = .nibble mfAck ∨ acceptTimeout ∧ rep = .silence := by
  cases rep with
  | silence =>
    cases acceptTimeout with
    | false => exact nomatch h
    | true => exact .inr ⟨rfl, rfl⟩
  | broken => exact nomatch h
  | bits data lastBits =>
    rw [Reply.ack] at h
    split_ifs at h with h1 h2
    rw [not_or, not_not, not_not] at h1
    obtain ⟨v, rfl⟩ := List.length_eq_one_iff.mp h1.1
    obtain rfl : lastBits = 4 := h1.2
    obtain rfl : v = mfAck := not_not.mp h2
    exact .inl rfl

/-- **An ACK says that the card obeyed.** -/
theorem Swap.acked {p ins : List UInt8} {o : Option Reply} (h : Swap plain crc compute p t ins o t')
    (ho : o = some (.nibble mfAck)) : Obeys plain crc compute t p (.nibble mfAck) t' := by
  cases h with
  | stuck => exact nomatch ho
  | sent _ hair _ =>
    obtain rfl := Option.some.inj ho
    cases hair with
    | heard hh =>
      generalize hrep : Reply.nibble mfAck = r at hh
      cases hh with
      | obeyed hf hobeys =>
        obtain rfl := withCRC_inj (airBits_inj hf)
        exact hrep ▸ hobeys
      | refused hv =>
        injection hrep with hdata
        exact absurd (List.cons.inj hdata).1.symm hv
      | dropped => exact nomatch hrep
    | replyLost _ hn => exact hn.elim nofun nofun
    | lost hn => exact hn.elim nofun nofun

end ParkingLot
