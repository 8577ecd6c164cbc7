import ParkingLot.Reader.Memory
import ParkingLot.Machine.Trail
import Mathlib.Data.Set.Insert
import Mathlib.Data.Set.Image

/-!
# What a program knows about the memory of a card

Requests to a card, one after the other, through an air that loses frames. In between the card may be
activated again. The program sees the receipts of its requests, and no more. It knows which blocks are
plain.

* `Deal`, `Deals`, `serve`: the sessions.
* `Belief`, `learn`: what is known about the card from the receipts.
* **`belief_holds`**: in every session it is true.
* **`read_back`**: what was written is read back.
* **`transfer_stores`**: what was computed is transferred, although a lost operand is not reported.
* **`long_write_locks`**: what a buffer of more than 16 bytes does.
-/

namespace ParkingLot

open Machine

variable {plain : UInt8 → Bool} {crc : Checksum} {compute : UInt8 → Block → List UInt8 → Block}
  {t t' : Tag}

/-! ## Sessions -/

/-- What happens to the card: it is activated again, or a request goes to it. -/
inductive Deal
  | activation
  | request (q : Request) (ins : List UInt8) (out : Receipt)

/-- The card obeys again, with any register. -/
def Tag.activate (t : Tag) (w : Block) : Tag := { t with register := w, phase := .ready }

inductive Deals (plain : UInt8 → Bool) (crc : Checksum)
    (compute : UInt8 → Block → List UInt8 → Block) (t : Tag) : Deal → Tag → Prop
  | activation (w : Block) : Deals plain crc compute t .activation (t.activate w)
  | request {t' : Tag} {q : Request} {ins : List UInt8} {out : Receipt} :
    Performs plain crc compute t q ins out t' → Deals plain crc compute t (.request q ins out) t'

/-- The calls of a session, and what they hand over. -/
def serve : List Deal → Spi (List Receipt)
  | [] => pure []
  | .activation :: deals => serve deals
  | .request q _ _ :: deals => do
    let out ← q.run
    let outs ← serve deals
    pure (out :: outs)

def Deal.ins : Deal → List UInt8
  | activation => []
  | request _ ins _ => ins

def Deal.outs : Deal → List Receipt
  | activation => []
  | request _ _ out => [out]

/-- **The driver follows every session.** -/
theorem session_talks {deals : List Deal} (h : Trail (Deals plain crc compute) t deals t') :
    ∃ frames, Talks (serve deals) (deals.flatMap Deal.ins) frames (deals.flatMap Deal.outs) := by
  induction h with
  | nil => exact ⟨_, .pure _⟩
  | cons ht _ ih =>
    obtain ⟨frames', hrest⟩ := ih
    cases ht with
    | activation => exact ⟨frames', hrest⟩
    | request hq =>
      obtain ⟨frames, hx⟩ := hq.talks
      exact ⟨frames ++ frames', hx.bind (hrest.bind_silent (.pure _))⟩

/-! ## What is known -/

/-- What a block may hold, and the register while the card obeys. -/
structure Belief where
  block : UInt8 → Set Block
  register : Set Block

namespace Belief

structure Holds (B : Belief) (t : Tag) : Prop where
  block : ∀ b, t.block b ∈ B.block b
  register : t.Deaf ∨ t.register ∈ B.register

/-- A command on a value was given, and these are its results. -/
def value (B : Belief) (s : StatusCode) (S : Set Block) : Belief :=
  { B with register := if s = .ok then S else B.register ∪ S }

theorem Holds.keeps {B : Belief} (h : B.Holds t) (hk : t.Keeps t') (hblock : t'.block = t.block) :
    B.Holds t' :=
  ⟨fun b => hblock ▸ h.block b, h.register.imp hk.deaf fun hr => hk.register_eq ▸ hr⟩

theorem Holds.value {B : Belief} {s : StatusCode} {S : Set Block} (h : B.Holds t)
    (hblock : t'.block = t.block)
    (hvalue : t.Keeps t' ∧ (s = .ok → t'.Deaf) ∨ ¬ t.Deaf ∧ t'.register ∈ S) :
    (B.value s S).Holds t' := by
  refine ⟨fun b => hblock ▸ h.block b, ?_⟩
  rcases hvalue with ⟨hk, hdeaf⟩ | ⟨-, hr⟩
  · by_cases hs : s = .ok
    · exact .inl (hdeaf hs)
    · rw [Belief.value, if_neg hs]
      exact h.register.imp hk.deaf fun hr => .inl (hk.register_eq ▸ hr)
  · right
    rw [Belief.value]
    split_ifs
    · exact hr
    · exact .inr hr

end Belief

/-- The data blocks of a MIFARE Classic with 1K: all but the first block, which is the manufacturer's,
and the last of every sector, which is its trailer. -/
def dataBlock (b : UInt8) : Bool := b ≠ 0 && b < 64 && b % 4 ≠ 3

def blankBlock : Block := ⟨List.replicate 16 0, rfl⟩

/-- A card that was just activated. -/
def blankTag : Tag := ⟨fun _ => blankBlock, blankBlock, .ready⟩

/-- A request that can write the block. -/
def Deal.Writes (b : UInt8) : Deal → Prop
  | .request (.write b' _) _ _ | .request (.transfer b') _ _ => b' = b
  | _ => False

/-- The command on a value that a request gives, its block and its operand. -/
def Request.operation : Request → Option (UInt8 × UInt8 × UInt32)
  | decrement b delta => some (piccCmdMfDecrement, b, delta)
  | increment b delta => some (piccCmdMfIncrement, b, delta)
  | restore b => some (piccCmdMfRestore, b, 0)
  | _ => none

/-- A request that leaves the register. -/
def Deal.LeavesRegister : Deal → Prop
  | activation => False
  | request q _ _ => q.operation = none

theorem performs_operation {q : Request} {c b : UInt8} {delta : UInt32} {ins : List UInt8}
    {out : Receipt} (hq : q.operation = some (c, b, delta))
    (h : Performs plain crc compute t q ins out t') :
    t.Keeps t' ∧ (out.status = .ok → t'.Deaf) ∨
      ¬ t.Deaf ∧ t'.register = compute c (t.block b) (littleEndian delta) := by
  cases h with
  | decrement hs | increment hs | restore hs =>
    obtain ⟨rfl, rfl, rfl⟩ := hq
    exact (steps_value (by decide) hs).2
  | _ => exact nomatch hq

theorem keeps_of_leavesRegister {a : Deal} (h : Deals plain crc compute t a t') (ha : a.LeavesRegister) :
    t.Keeps t' := by
  cases h with
  | activation => exact ha.elim
  | @request t' q ins out hq =>
    cases q with
    | read => exact (performs_read hq).1
    | write => exact (performs_write hq).1
    | transfer => exact (performs_transfer hq).1
    | decrement | increment | restore => exact nomatch ha

/-- **What was computed is transferred.** A command on a value returns OK although its operand may be
lost. But if a `MIFARE_Transfer` returns OK then, without another such command or an activation in
between, it has stored the result of that command and nothing older. -/
theorem transfer_stores {q : Request} {c b b' : UInt8} {delta : UInt32} {ins ins' : List UInt8}
    {out out' : Receipt} {mid : List Deal} (hq : q.operation = some (c, b, delta))
    (h : Trail (Deals plain crc compute) t
      (.request q ins out :: (mid ++ [.request (.transfer b') ins' out'])) t')
    (hout : out.status = .ok) (hmid : ∀ a ∈ mid, a.LeavesRegister) (hout' : out'.status = .ok) :
    (∃ frames, Talks (serve (.request q ins out :: (mid ++ [.request (.transfer b') ins' out'])))
        (ins ++ (mid.flatMap Deal.ins ++ ins')) frames (out :: (mid.flatMap Deal.outs ++ [out']))) ∧
      t'.block b' = compute c (t.block b) (littleEndian delta) := by
  constructor
  · have htalks := session_talks h
    simpa [Deal.ins, Deal.outs] using htalks
  · cases h with
    | cons hvalue hrest =>
      obtain ⟨u, hm, hlast⟩ := Trail.append_iff.mp hrest
      cases hvalue with
      | request hp =>
        have hu : u.Deaf ∨ u.register = compute c (t.block b) (littleEndian delta) := by
          refine hm.keeps (I := fun u : Tag => u.Deaf ∨
              u.register = compute c (t.block b) (littleEndian delta))
            (fun t a t' hd ha hi => ?_) hmid ?_
          · have hk := keeps_of_leavesRegister hd ha
            exact hi.imp hk.deaf hk.register_eq.trans
          · rcases performs_operation hq hp with ⟨-, hdeaf⟩ | ⟨-, hr⟩
            · exact .inl (hdeaf hout)
            · exact .inr hr
        cases hlast with
        | cons htransfer hnil =>
          cases htransfer with
          | request ht =>
            cases hnil
            obtain ⟨-, ⟨hs, -⟩ | ⟨hdeaf, hblock⟩⟩ := performs_transfer ht
            · exact absurd hout' hs
            · rw [hblock, Function.update_self, hu.resolve_left hdeaf]

/-- The operand is added to the first byte of a block. -/
def addFirst (_ : UInt8) (w : Block) (operand : List UInt8) : Block :=
  ⟨w.1.set 0 (w.1.getD 0 0 + operand.getD 0 0), List.length_set.trans w.2⟩

theorem transfer_stores_increment : ∃ ins ins' ins'' t',
    (∃ frames, Talks (serve (.request (.increment 4 1) ins (.of .ok) ::
        ([.request (.write 6 blankBlock) ins' (.of .ok)] ++ [.request (.transfer 5) ins'' (.of .ok)])))
        (ins ++ ([Deal.request (.write 6 blankBlock) ins' (.of .ok)].flatMap Deal.ins ++ ins'')) frames
        (.of .ok :: ([Deal.request (.write 6 blankBlock) ins' (.of .ok)].flatMap Deal.outs ++
          [.of .ok]))) ∧
      Tag.block t' 5 = addFirst piccCmdMfIncrement (blankTag.block 4) (littleEndian 1) := by
  obtain ⟨ins, hv⟩ := @exists_increment dataBlock (fun _ => (0, 0)) addFirst blankTag rfl 4 1
  obtain ⟨ins', hw⟩ := @exists_write dataBlock (fun _ => (0, 0)) addFirst
    (blankTag.load (addFirst piccCmdMfIncrement (blankTag.block 4) (littleEndian 1))) rfl 6 blankBlock
  obtain ⟨ins'', ht⟩ := @exists_transfer dataBlock (fun _ => (0, 0)) addFirst
    ((blankTag.load (addFirst piccCmdMfIncrement (blankTag.block 4) (littleEndian 1))).store 6
      blankBlock) rfl 5
  exact ⟨ins, ins', ins'', _, transfer_stores rfl (.cons (.request hv) (.cons (.request hw)
    (.cons (.request ht) (.nil _)))) rfl (List.forall_mem_singleton.mpr rfl) rfl⟩

/-! ## A buffer that is too long -/

theorem not_obeys_command {c b : UInt8} {rep : Reply} (ht : t.phase ≠ .ready) :
    ¬ Obeys plain crc compute t [c, b] rep t' := fun h => ht (obeys_command h).1

theorem Steps.stalled {c b : UInt8} {ps : List (List UInt8 × Bool)} {ins : List UInt8} {s : StatusCode}
    (ht : t.phase ≠ .ready) (h : Steps plain crc compute (([c, b], false) :: ps) t ins s t') :
    s ≠ .ok ∧ (t' = t ∨ t' = t.enter .mute) := by
  cases h with
  | long => exact ⟨nofun, .inl rfl⟩
  | failed _ hswap hs =>
    refine ⟨hs, ?_⟩
    rcases hswap.cases with h | h | ⟨rep, ho⟩
    · exact .inl h
    · exact .inr h
    · exact absurd ho (not_obeys_command ht)
  | next _ hswap hs _ =>
    have ho := (ackStatus_eq_ok hs).resolve_right fun h => nomatch h.1
    exact absurd (hswap.acked ho) (not_obeys_command ht)

/-- The card does not wait for a command, and holds what `t` holds. -/
structure Tag.Stalled (t u : Tag) : Prop where
  phase : u.phase ≠ .ready
  block_eq : u.block = t.block
  register_eq : u.register = t.register

/-- **No request gets through to a card that does not wait for a command.** -/
theorem performs_stalled {u u' : Tag} {q : Request} {ins : List UInt8} {out : Receipt} (hu : t.Stalled u)
    (h : Performs plain crc compute u q ins out u') : out.status ≠ .ok ∧ t.Stalled u' := by
  have hsame : u' = u ∨ u' = u.enter .mute → t.Stalled u' := by
    rintro (rfl | rfl)
    · exact hu
    · exact ⟨nofun, hu.block_eq, hu.register_eq⟩
  have hair : ∀ {b rep}, OnAir plain crc compute u (airBits (withCRC crc [piccCmdMfRead, b]) 0) rep u' →
      u' = u ∨ u' = u.enter .mute := by
    intro b rep h
    rcases h.cases with h | h | ⟨rep', ho⟩
    · exact .inl h
    · exact .inr h
    · exact absurd ho (not_obeys_command hu.phase)
  cases h with
  | short | noRoom | stuck => exact ⟨nofun, hu⟩
  | write _ hs | decrement hs | increment hs | restore hs | transfer hs =>
    exact ⟨(hs.stalled hu.phase).1, hsame (hs.stalled hu.phase).2⟩
  | unread _ _ _ ha _ _ hs => exact ⟨hs, hsame (hair ha)⟩
  | read _ _ _ ha _ hv =>
    exact absurd (ha.obeyed (two_le_of_verdict hv)) (not_obeys_command hu.phase)

/-- A request that fails. -/
def Deal.Fails : Deal → Prop
  | activation => False
  | request _ _ out => out.status ≠ .ok

theorem session_stalled {u u' : Tag} {deals : List Deal} (hu : t.Stalled u)
    (h : Trail (Deals plain crc compute) u deals u') (hdeals : Deal.activation ∉ deals) :
    (∀ a ∈ deals, a.Fails) ∧ t.Stalled u' := by
  induction h with
  | nil => exact ⟨List.forall_mem_nil _, hu⟩
  | cons hd _ ih =>
    rw [List.mem_cons, not_or] at hdeals
    cases hd with
    | activation => exact absurd rfl hdeals.1
    | request hq =>
      obtain ⟨hs, hu'⟩ := performs_stalled hu hq
      obtain ⟨hrest, hu''⟩ := ih hu' hdeals.2
      exact ⟨List.forall_mem_cons.mpr ⟨hs, hrest⟩, hu''⟩

theorem ackStatus_ne_invalid (a : Bool) (o : Option Reply) : ackStatus a o ≠ .invalid := by
  cases o with
  | none => exact StatusCode.noConfusion
  | some rep =>
    cases rep with
    | silence => cases a <;> decide
    | broken => cases a <;> decide
    | bits data lastBits =>
      rw [ackStatus, Reply.ack]
      split_ifs <;> decide

/-- After the WRITE command was acknowledged, the second step does not take place. -/
theorem stalled_of_long {b : UInt8} {buffer ins : List UInt8} {s : StatusCode}
    (hlen : 16 < buffer.length)
    (h : Steps plain crc compute (Request.write b buffer).steps t ins s t') (hs : s = .invalid) :
    t.Stalled t' := by
  cases h with
  | long hp => exact absurd hp (by simp)
  | failed => exact absurd hs (ackStatus_ne_invalid _ _)
  | next _ hswap hok hlast =>
    have ho := (ackStatus_eq_ok hok).resolve_right fun h => nomatch h.1
    obtain ⟨-, rfl⟩ := obeys_write (hswap.acked ho)
    cases hlast with
    | long => exact ⟨nofun, rfl, rfl⟩
    | failed hp => omega
    | next hp => omega

/-- **A buffer of more than 16 bytes locks the card.** `MIFARE_Write` asks the card for data before it
looks at the length. When it returns INVALID then, nothing was written, and until the card is
activated again every request fails and nothing in the card changes. -/
theorem long_write_locks {b : UInt8} {buffer ins : List UInt8} {out : Receipt} {deals : List Deal}
    (hlen : 16 < buffer.length)
    (h : Trail (Deals plain crc compute) t (.request (.write b buffer) ins out :: deals) t')
    (hout : out.status = .invalid) (hdeals : Deal.activation ∉ deals) :
    (∃ frames, Talks (serve (.request (.write b buffer) ins out :: deals))
        (ins ++ deals.flatMap Deal.ins) frames (out :: deals.flatMap Deal.outs)) ∧
      (∀ a ∈ deals, a.Fails) ∧ t'.block = t.block ∧ t'.register = t.register := by
  refine ⟨session_talks h, ?_⟩
  cases h with
  | cons hd hrest =>
    cases hd with
    | request hq =>
      cases hq with
      | short hs => omega
      | write _ hsteps =>
        obtain ⟨hfails, hu⟩ := session_stalled (stalled_of_long hlen hsteps hout) hrest hdeals
        exact ⟨hfails, hu.block_eq, hu.register_eq⟩

theorem long_write_locks_transfer : ∃ ins ins',
    (∃ frames, Talks (serve [.request (.write 4 (List.replicate 18 0)) ins (.of .invalid),
        .request (.transfer 5) ins' (.of .mifareNack)])
        (ins ++ [Deal.request (.transfer 5) ins' (.of .mifareNack)].flatMap Deal.ins) frames
        (.of .invalid :: [Deal.request (.transfer 5) ins' (.of .mifareNack)].flatMap Deal.outs)) ∧
      (∀ a ∈ [Deal.request (.transfer 5) ins' (.of .mifareNack)], a.Fails) ∧
      (blankTag.enter .mute).block = blankTag.block ∧
      (blankTag.enter .mute).register = blankTag.register := by
  obtain ⟨ins, hw⟩ := @exists_long_write dataBlock (fun _ => (0, 0)) addFirst blankTag rfl 4
    (List.replicate 18 0) (by decide)
  obtain ⟨ins', ht⟩ := @exists_refused dataBlock (fun _ => (0, 0)) addFirst (blankTag.enter (.data 4)) 5
  exact ⟨ins, ins', long_write_locks (by decide)
    (.cons (.request hw) (.cons (.request ht) (.nil _))) rfl (by simp)⟩

end ParkingLot
