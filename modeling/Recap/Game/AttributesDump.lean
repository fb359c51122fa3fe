import Recap.RakNet.Integers
import Recap.Game.AttributesHistory

/-! The dump of all attributes of an object, and the places where a client looks for them. -/

namespace Recap.Game.Attributes

variable {Value : Type} [Zero Value]

section Dump

/-- The first attribute of the second block. -/
def secondBlock : UInt8 := 0x63

/-- The place of an attribute in the dump, in bits. -/
def slot (idx : UInt8) : Nat :=
  if idx < secondBlock then 8 * 0x26C + 32 * idx.toNat
  else 8 * 0x400 + 32 * (idx.toNat - secondBlock.toNat)

variable (layout : BitLayout 32) (bits : Value → BitVec 32)

/-- `Write` of a float, whose bits are swapped before they are written. -/
def writeValue (stream : BitStream) (value : Value) : BitStream :=
  stream.writeBits (layout.bits (bits value))

/-- A loop over attributes, each of which is written as it reads. -/
def writeAll (a : Attributes Value) (indices : List Nat) (stream : BitStream) : BitStream :=
  indices.foldl (fun stream i => writeValue layout bits stream (a.getValue (UInt8.ofNat i))) stream

/--
`WriteTo`

The second loop ends at the number of attributes that are stored, which is never more than a byte
counts.
-/
def writeTo (a : Attributes Value) (stream : BitStream) : BitStream :=
  let writeOffset := stream.writeOffset
  let stream := stream.setWriteOffset (writeOffset + 8 * 0x26C)
  let stream := a.writeAll layout bits (List.range 0x63) stream
  let stream := stream.setWriteOffset (writeOffset + 8 * 0x400)
  let stream := a.writeAll layout bits (List.range' 0x63 (a.data.length - 0x63)) stream
  let stream := stream.setWriteOffset (writeOffset + 8 * 0x43C)
  let stream := writeValue layout bits stream a.minWeaponDamage
  let stream := writeValue layout bits stream a.maxWeaponDamage
  stream.setWriteOffset (writeOffset + 8 * 0x634)

/-- Whatever was in memory before, each attribute that clients are sent is written at its place. -/
def DumpsAll (a : Attributes Value) : Prop :=
  ∀ (stream : BitStream), ∀ idx < clientCount,
    (a.writeTo layout bits stream).slice (stream.writeOffset + slot idx) 32 =
      layout.bits (bits (a.getValue idx))

/-- The values of a loop are written in a row. -/
theorem writeAll_eq (a : Attributes Value) (indices : List Nat) (stream : BitStream) :
    a.writeAll layout bits indices stream =
      stream.writeBits (indices.flatMap fun i => layout.bits (bits (a.getValue (UInt8.ofNat i)))) :=
  BitStream.foldl_writeBits _ indices stream

/-- A loop leaves everything beside its row alone. -/
theorem slice_writeAll_beside (a : Attributes Value) (indices : List Nat) (stream : BitStream)
    {start : Nat} (beside : start + 32 ≤ stream.writeOffset ∨
      stream.writeOffset + 32 * indices.length ≤ start) :
    (a.writeAll layout bits indices stream).slice start 32 = stream.slice start 32 := by
  rw [writeAll_eq]
  refine stream.slice_writeBits_beside _ ?_
  rwa [BitStream.length_flatMap_width fun i => layout.length_bits _]

/-- Each value of a loop stands at its place in the row. -/
theorem slice_writeAll (a : Attributes Value) {indices : List Nat} {place i : Nat}
    (found : indices[place]? = some i) (stream : BitStream) :
    (a.writeAll layout bits indices stream).slice (stream.writeOffset + 32 * place) 32 =
      layout.bits (bits (a.getValue (UInt8.ofNat i))) := by
  rw [writeAll_eq]
  exact BitStream.slice_flatMap (fun i => layout.length_bits _) found stream

/-- Up to the weapon damage, the dump is what the two loops have written. -/
theorem slice_writeTo (a : Attributes Value) (stream : BitStream) {start : Nat}
    (before : start + 32 ≤ stream.writeOffset + 8 * 0x43C) :
    (a.writeTo layout bits stream).slice start 32 =
      (a.writeAll layout bits (List.range' 0x63 (a.data.length - 0x63))
        ((a.writeAll layout bits (List.range 0x63)
          (stream.setWriteOffset (stream.writeOffset + 8 * 0x26C))).setWriteOffset
            (stream.writeOffset + 8 * 0x400))).slice start 32 := by
  -- The weapon damage comes behind all attributes.
  unfold writeTo writeValue
  dsimp only
  rw [BitStream.slice_setWriteOffset, BitStream.writeBits_writeBits,
    BitStream.slice_writeBits_beside _ _ (.inl before), BitStream.slice_setWriteOffset]

/-- The first block is always written. -/
theorem slice_writeTo_first (a : Attributes Value) (stream : BitStream) {idx : UInt8}
    (first : idx < secondBlock) :
    (a.writeTo layout bits stream).slice (stream.writeOffset + slot idx) 32 =
      layout.bits (bits (a.getValue idx)) := by
  -- The second loop starts behind the first block.
  have below : idx.toNat < 0x63 := UInt8.lt_iff_toNat_lt.mp first
  have found : (List.range 0x63)[idx.toNat]? = some idx.toNat := by
    rw [List.getElem?_range below]
  rw [slot, if_pos first, slice_writeTo _ _ _ _ (by omega),
    slice_writeAll_beside _ _ _ _ _ (.inl (by simp only [BitStream.setWriteOffset_writeOffset]; omega)),
    BitStream.slice_setWriteOffset]
  have written := slice_writeAll layout bits a found
    (stream.setWriteOffset (stream.writeOffset + 8 * 0x26C))
  rwa [UInt8.ofNat_toNat, BitStream.setWriteOffset_writeOffset, Nat.add_assoc] at written

/-- Of the second block, what is written are the attributes up to the number that is stored. -/
theorem slice_writeTo_second (a : Attributes Value) (stream : BitStream) {idx : UInt8}
    (second : ¬ idx < secondBlock) (client : idx < clientCount) (stored : idx.toNat < a.data.length) :
    (a.writeTo layout bits stream).slice (stream.writeOffset + slot idx) 32 =
      layout.bits (bits (a.getValue idx)) := by
  -- The place in the loop is the one in the block, as both count from the same attribute.
  have least : 0x63 ≤ idx.toNat := Nat.not_lt.mp fun small => second (UInt8.lt_iff_toNat_lt.mpr small)
  have most : idx.toNat < 111 := UInt8.lt_iff_toNat_lt.mp client
  have found : (List.range' 0x63 (a.data.length - 0x63))[idx.toNat - 0x63]? = some idx.toNat := by
    rw [List.getElem?_range' (by omega)]
    congr 1
    omega
  have base : secondBlock.toNat = 0x63 := rfl
  rw [slot, if_neg second, base, slice_writeTo _ _ _ _ (by omega)]
  have written := slice_writeAll layout bits a found
    ((a.writeAll layout bits (List.range 0x63)
      (stream.setWriteOffset (stream.writeOffset + 8 * 0x26C))).setWriteOffset
        (stream.writeOffset + 8 * 0x400))
  rwa [UInt8.ofNat_toNat, BitStream.setWriteOffset_writeOffset, Nat.add_assoc] at written

/-- The last attribute's place is left as it was, unless as many are stored as there are. -/
theorem slice_writeTo_last (a : Attributes Value) (stream : BitStream)
    (fewer : a.data.length < clientCount.toNat) :
    (a.writeTo layout bits stream).slice (stream.writeOffset + slot 110) 32 =
      stream.slice (stream.writeOffset + slot 110) 32 := by
  -- Both loops end in front of it.
  have place : slot 110 = 8 * 0x400 + 32 * 11 := rfl
  have count : clientCount.toNat = 111 := rfl
  rw [place, slice_writeTo _ _ _ _ (by omega),
    slice_writeAll_beside _ _ _ _ _ (.inr (by
      rw [BitStream.setWriteOffset_writeOffset, List.length_range']
      omega)),
    BitStream.slice_setWriteOffset,
    slice_writeAll_beside _ _ _ _ _ (.inr (by
      rw [BitStream.setWriteOffset_writeOffset, List.length_range]
      omega)),
    BitStream.slice_setWriteOffset]

end Dump

section Stored

variable [DecidableEq Value]

/-- The indices of the attributes that are stored, in order. -/
def storedIndices (a : Attributes Value) : List Nat := a.data.map fun entry => entry.1.toNat

omit [Zero Value] [DecidableEq Value] in
@[simp] theorem length_storedIndices (a : Attributes Value) :
    a.storedIndices.length = a.data.length :=
  List.length_map _

/-- Every stored attribute is one that clients are sent, and no two are the same. -/
theorem Told.storedIndices_subperm {s : Recorded Value} (told : Told s) :
    s.1.storedIndices.Subperm (List.range clientCount.toNat) := by
  refine List.Nodup.subperm ?_ ?_
  · exact List.pairwise_map.mpr (told.consistent.sorted.imp fun below =>
      Nat.ne_of_lt (UInt8.lt_iff_toNat_lt.mp below))
  · intro index member
    obtain ⟨entry, inside, rfl⟩ := List.mem_map.mp member
    exact List.mem_range.mpr (UInt8.lt_iff_toNat_lt.mp (told.client entry inside))

/-- As many attributes are stored as there are exactly when none of them is zero. -/
theorem Told.full_iff {s : Recorded Value} (told : Told s) :
    s.1.data.length = clientCount.toNat ↔ ∀ idx < clientCount, s.1.getValue idx ≠ 0 := by
  -- The stored indices are some of those that clients are sent, none of them twice.
  have within := told.storedIndices_subperm
  have present : ∀ idx, s.1.getValue idx ≠ 0 ↔ idx.toNat ∈ s.1.storedIndices := by
    intro idx
    rw [Ne, ← find_eq_none_iff told.consistent, find_eq_none]
    push Not
    unfold storedIndices
    simp only [List.mem_map, UInt8.toNat_inj]
  constructor
  · intro full idx client
    rw [present]
    have all := within.perm_of_length_le (by rw [List.length_range, length_storedIndices, full])
    exact all.mem_iff.mpr (List.mem_range.mpr (UInt8.lt_iff_toNat_lt.mp client))
  · intro nonzero
    have all : List.range clientCount.toNat ⊆ s.1.storedIndices := by
      intro index member
      have small : index < 111 := List.mem_range.mp member
      have number : (UInt8.ofNat index).toNat = index :=
        UInt8.toNat_ofNat_of_lt' (show index < 256 by omega)
      have client : UInt8.ofNat index < clientCount :=
        UInt8.lt_iff_toNat_lt.mpr (number.trans_lt small)
      rw [← number, ← present]
      exact nonzero _ client
    have least := (List.nodup_range.subperm all).length_le
    have most := within.length_le
    rw [List.length_range, length_storedIndices] at least most
    exact Nat.le_antisymm most least

variable (layout : BitLayout 32) (bits : Value → BitVec 32)

/--
Whatever was called before, the dump has all attributes exactly when none of them is zero.

The end of the second loop is the number of stored attributes, which is then the number of all.
-/
theorem dumpsAll_iff (calls : List (Call Value)) :
    DumpsAll layout bits (Runs.final record (empty, []) calls).1 ↔
      ∀ idx < clientCount, (Runs.final record (empty, []) calls).1.getValue idx ≠ 0 := by
  -- Were there fewer, then memory could differ from the last attribute at its place.
  have told : Told (Runs.final (@record Value _ _) (empty, []) calls) :=
    told_kept.final calls told_empty
  rw [← told.full_iff]
  have most := told.storedIndices_subperm.length_le
  rw [List.length_range, length_storedIndices] at most
  constructor
  · intro dumps
    by_contra fewer
    obtain ⟨fill, other⟩ := BitStream.exists_slice_ne
      (layout.bits (bits ((Runs.final record (empty, []) calls).1.getValue 110)))
      (show 0 < 32 by decide) 0 (0 + slot 110)
    have written := dumps ⟨fun _ => fill, 0⟩ 110 (by decide)
    rw [slice_writeTo_last _ _ _ _ (Nat.lt_of_le_of_ne most fewer)] at written
    exact other written
  · intro full stream idx client
    by_cases first : idx < secondBlock
    · exact slice_writeTo_first layout bits _ stream first
    · refine slice_writeTo_second layout bits _ stream first client ?_
      rw [full]
      exact UInt8.lt_iff_toNat_lt.mp client

end Stored

/-- One attribute is set, the last one, and the dump has nothing at its place. -/
theorem not_dumpsAll :
    ¬ ∀ calls : List (Call (BitVec 32)),
      DumpsAll (RakNet.IntegralType.inOrder 32) id (Runs.final record (empty, []) calls).1 := by
  intro always
  have dumps := always [.setValue 110 1] ⟨fun _ => false, 0⟩ 110 (by decide)
  rw [slice_writeTo_last _ _ _ _ (by decide)] at dumps
  exact absurd dumps (by decide)

end Recap.Game.Attributes
