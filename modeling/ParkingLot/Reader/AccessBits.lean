import ParkingLot.Reader.Air

/-!
# Access bits

The conditions of access to the four blocks of a sector, as a card stores them: three bits each, and
each bit with its complement.

* `mifareSetAccessBits`: the three bytes for four conditions.
* `Complemented`, `Grants`: each bit has its complement; the bytes give these conditions.
* **`accessBits_iff`**: when three bytes are those of four conditions.
-/

namespace ParkingLot

/-- The bytes 6, 7 and 8 of a sector trailer. -/
@[ext] structure AccessBuffer where
  b0 : UInt8
  b1 : UInt8
  b2 : UInt8
  deriving DecidableEq, Repr

def lowNibble (c : UInt8) : UInt8 := c &&& 0xF

/-- `MIFARE_SetAccessBits`. -/
def mifareSetAccessBits (g0 g1 g2 g3 : UInt8) : AccessBuffer :=
  let c1 : UInt8 := ((g3 &&& 4) <<< 1) ||| ((g2 &&& 4) <<< 0) ||| ((g1 &&& 4) >>> 1) ||| ((g0 &&& 4) >>> 2)
  let c2 : UInt8 := ((g3 &&& 2) <<< 2) ||| ((g2 &&& 2) <<< 1) ||| ((g1 &&& 2) <<< 0) ||| ((g0 &&& 2) >>> 1)
  let c3 : UInt8 := ((g3 &&& 1) <<< 3) ||| ((g2 &&& 1) <<< 2) ||| ((g1 &&& 1) <<< 1) ||| ((g0 &&& 1) <<< 0)
  { b0 := (lowNibble (~~~c2) <<< 4) ||| lowNibble (~~~c1)
    b1 := (c1 <<< 4) ||| lowNibble (~~~c3)
    b2 := (c3 <<< 4) ||| c2 }

namespace AccessBuffer

/-- Each bit has its complement: those of C1 and C2 are in the first byte, those of C3 in the second
one. -/
def Complemented (b : AccessBuffer) : Prop :=
  ∀ i < 4, b.b0.toBitVec.getLsbD i = !b.b1.toBitVec.getLsbD (4 + i) ∧
    b.b0.toBitVec.getLsbD (4 + i) = !b.b2.toBitVec.getLsbD i ∧
    b.b1.toBitVec.getLsbD i = !b.b2.toBitVec.getLsbD (4 + i)

/-- The bytes hold the condition [C1 C2 C3] for block `i`. -/
def Grants (b : AccessBuffer) (i : ℕ) (g : UInt8) : Prop :=
  b.b1.toBitVec.getLsbD (4 + i) = g.toBitVec.getLsbD 2 ∧
    b.b2.toBitVec.getLsbD i = g.toBitVec.getLsbD 1 ∧
    b.b2.toBitVec.getLsbD (4 + i) = g.toBitVec.getLsbD 0

/-- Complemented bytes are determined by their conditions. -/
theorem ext_of_grants {b b' : AccessBuffer} (h : b.Complemented) (h' : b'.Complemented)
    (hg : ∀ i < 4, ∃ g, b.Grants i g ∧ b'.Grants i g) : b = b' := by
  have hbits : ∀ i < 4, b.b1.toBitVec.getLsbD (4 + i) = b'.b1.toBitVec.getLsbD (4 + i) ∧
      b.b2.toBitVec.getLsbD i = b'.b2.toBitVec.getLsbD i ∧
      b.b2.toBitVec.getLsbD (4 + i) = b'.b2.toBitVec.getLsbD (4 + i) := by
    intro i hi
    obtain ⟨g, ⟨h1, h2, h3⟩, h1', h2', h3'⟩ := hg i hi
    exact ⟨h1.trans h1'.symm, h2.trans h2'.symm, h3.trans h3'.symm⟩
  -- the low nibble of a byte and the high one
  have hbyte : ∀ {c d : UInt8}, (∀ i < 4, c.toBitVec.getLsbD i = d.toBitVec.getLsbD i ∧
      c.toBitVec.getLsbD (4 + i) = d.toBitVec.getLsbD (4 + i)) → c = d := by
    intro c d hcd
    refine byte_ext fun j hj => ?_
    by_cases hj4 : j < 4
    · exact (hcd j hj4).1
    · have := (hcd (j - 4) (by omega)).2
      rwa [show 4 + (j - 4) = j by omega] at this
  refine AccessBuffer.ext (hbyte fun i hi => ?_) (hbyte fun i hi => ?_) (hbyte fun i hi => ?_)
  · rw [(h i hi).1, (h i hi).2.1, (h' i hi).1, (h' i hi).2.1, (hbits i hi).1, (hbits i hi).2.1]
    exact ⟨rfl, rfl⟩
  · rw [(h i hi).2.2, (h' i hi).2.2, (hbits i hi).2.2]
    exact ⟨rfl, (hbits i hi).1⟩
  · exact (hbits i hi).2

end AccessBuffer

variable (g0 g1 g2 g3 : UInt8)

theorem complemented_setAccessBits : (mifareSetAccessBits g0 g1 g2 g3).Complemented := by
  intro i hi
  interval_cases i <;> simp [mifareSetAccessBits, lowNibble]

theorem grants_setAccessBits {i : ℕ} (hi : i < 4) :
    (mifareSetAccessBits g0 g1 g2 g3).Grants i ([g0, g1, g2, g3].getD i 0) := by
  interval_cases i <;> simp [AccessBuffer.Grants, mifareSetAccessBits, lowNibble]

/-- **The format of the access bits.** Three bytes are those that `MIFARE_SetAccessBits` makes of four
conditions exactly when each bit has its complement and they give these conditions back. -/
theorem accessBits_iff (b : AccessBuffer) :
    b = mifareSetAccessBits g0 g1 g2 g3 ↔
      b.Complemented ∧ ∀ i < 4, b.Grants i ([g0, g1, g2, g3].getD i 0) := by
  constructor
  · rintro rfl
    exact ⟨complemented_setAccessBits g0 g1 g2 g3, fun i hi => grants_setAccessBits g0 g1 g2 g3 hi⟩
  · rintro ⟨hc, hg⟩
    exact AccessBuffer.ext_of_grants hc (complemented_setAccessBits g0 g1 g2 g3) fun i hi =>
      ⟨_, hg i hi, grants_setAccessBits g0 g1 g2 g3 hi⟩

end ParkingLot
