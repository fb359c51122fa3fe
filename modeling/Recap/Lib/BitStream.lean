import Mathlib

/-! Bit arrays with a write offset, which can be moved back and forth between writes. -/

namespace Recap

/-- A bit array, all of whose places hold something, and the place of the next write. -/
structure BitStream where
  data : Nat → Bool
  writeOffset : Nat

/-- How a number of some width lies in a stream. -/
structure BitLayout (width : Nat) where
  bits : BitVec width → List Bool
  value : List Bool → BitVec width
  length_bits : ∀ number, (bits number).length = width
  value_bits : ∀ number, value (bits number) = number

namespace BitStream

def setWriteOffset (stream : BitStream) (offset : Nat) : BitStream :=
  { stream with writeOffset := offset }

def writeBits (stream : BitStream) (bits : List Bool) : BitStream where
  data := fun index =>
    if index < stream.writeOffset then stream.data index
    else (bits[index - stream.writeOffset]?).getD (stream.data index)
  writeOffset := stream.writeOffset + bits.length

/-- The bits from a place on. -/
def slice (stream : BitStream) (start count : Nat) : List Bool :=
  (List.range' start count).map stream.data

variable (stream : BitStream)

@[simp] theorem setWriteOffset_writeOffset (offset : Nat) :
    (stream.setWriteOffset offset).writeOffset = offset := rfl

@[simp] theorem setWriteOffset_data (offset : Nat) :
    (stream.setWriteOffset offset).data = stream.data := rfl

@[simp] theorem writeBits_writeOffset (bits : List Bool) :
    (stream.writeBits bits).writeOffset = stream.writeOffset + bits.length := rfl

@[simp] theorem slice_setWriteOffset (offset start count : Nat) :
    (stream.setWriteOffset offset).slice start count = stream.slice start count := rfl

/-- A write changes nothing in front of it. -/
theorem writeBits_data_before (bits : List Bool) {index : Nat} (before : index < stream.writeOffset) :
    (stream.writeBits bits).data index = stream.data index :=
  if_pos before

/-- A write changes nothing behind it. -/
theorem writeBits_data_behind (bits : List Bool) {index : Nat}
    (behind : stream.writeOffset + bits.length ≤ index) :
    (stream.writeBits bits).data index = stream.data index := by
  unfold writeBits
  simp only
  rw [if_neg (by omega), List.getElem?_eq_none (by omega), Option.getD_none]

/-- Two neighbouring slices are one. -/
theorem slice_append (start first second : Nat) :
    stream.slice start first ++ stream.slice (start + first) second =
      stream.slice start (first + second) := by
  unfold slice
  rw [← List.map_append, List.range'_append_1]

/-- What was written is what the slice at its place holds. -/
theorem slice_writeBits (bits : List Bool) :
    (stream.writeBits bits).slice stream.writeOffset bits.length = bits := by
  -- Place by place, the slice reads what the write has put there.
  unfold slice
  apply List.ext_getElem
  · simp
  · intro index left right
    simp [writeBits, List.getElem?_eq_getElem right]

/-- The beginning of what was written is what a shorter slice at its place holds. -/
theorem slice_writeBits_take (bits : List Bool) {count : Nat} (shorter : count ≤ bits.length) :
    (stream.writeBits bits).slice stream.writeOffset count = bits.take count := by
  -- The slice of all that was written starts with the shorter one.
  have whole := stream.slice_writeBits bits
  rw [← Nat.add_sub_cancel' shorter, ← slice_append] at whole
  rw [← congrArg (List.take count) whole]
  exact (List.take_left' (by simp [slice])).symm

/-- A number that was written is what the slice at its place holds. -/
theorem slice_layout {width : Nat} (layout : BitLayout width) (number : BitVec width) :
    (stream.writeBits (layout.bits number)).slice stream.writeOffset width = layout.bits number := by
  have slice := stream.slice_writeBits (layout.bits number)
  rwa [layout.length_bits] at slice

/-- A slice beside a write is what it was. -/
theorem slice_writeBits_beside (bits : List Bool) {start count : Nat}
    (beside : start + count ≤ stream.writeOffset ∨ stream.writeOffset + bits.length ≤ start) :
    (stream.writeBits bits).slice start count = stream.slice start count := by
  -- No place of the slice is one of the write.
  apply List.map_congr_left
  intro index member
  obtain ⟨least, below⟩ := List.mem_range'_1.mp member
  rcases beside with before | behind
  · exact stream.writeBits_data_before bits (by omega)
  · exact stream.writeBits_data_behind bits (by omega)

@[simp] theorem writeBits_nil : stream.writeBits [] = stream := by
  unfold writeBits
  simp

/-- Two writes in a row are one. -/
theorem writeBits_writeBits (first second : List Bool) :
    (stream.writeBits first).writeBits second = stream.writeBits (first ++ second) := by
  unfold writeBits
  simp only [List.length_append, Nat.add_assoc, BitStream.mk.injEq, and_true]
  funext index
  by_cases front : index < stream.writeOffset
  · rw [if_pos (by omega), if_pos front, if_pos front]
  · rw [if_neg front, if_neg front]
    by_cases within : index < stream.writeOffset + first.length
    · rw [if_pos within, List.getElem?_append_left (by omega)]
    · -- Behind the first write, its default is what was there before.
      rw [if_neg within, List.getElem?_append_right (by omega),
        List.getElem?_eq_none (l := first) (by omega), Option.getD_none]
      congr 2
      omega

/-- Many writes in a row are one. -/
theorem foldl_writeBits {α : Type*} (bits : α → List Bool) (items : List α) (stream : BitStream) :
    items.foldl (fun stream item => stream.writeBits (bits item)) stream =
      stream.writeBits (items.flatMap bits) := by
  -- The induction follows the writes, each of which joins those behind it.
  induction items generalizing stream with
  | nil => simp
  | cons item rest ih => rw [List.foldl_cons, ih, writeBits_writeBits, List.flatMap_cons]

/-- Memory that was never written may hold something else than any given bits. -/
theorem exists_slice_ne (bits : List Bool) {count : Nat} (positive : 0 < count)
    (writeOffset start : Nat) :
    ∃ fill, (BitStream.mk (fun _ => fill) writeOffset).slice start count ≠ bits := by
  -- Memory full of zeros and memory full of ones are not the same.
  by_contra same
  push Not at same
  have both := (same false).trans (same true).symm
  unfold slice at both
  rw [List.map_const', List.map_const', List.length_range', List.replicate_inj] at both
  rcases both.2 with empty | equal
  · omega
  · cases equal

section Rows

variable {α : Type*} {bits : α → List Bool} {width : Nat}

/-- Values of one width in a row are as long as all of them. -/
theorem length_flatMap_width (wide : ∀ item, (bits item).length = width) (items : List α) :
    (items.flatMap bits).length = width * items.length := by
  rw [List.length_flatMap, List.map_congr_left fun item _ => wide item, List.map_const',
    List.sum_replicate, smul_eq_mul, Nat.mul_comm]

/-- Of values of one width in a row, each is what the slice at its place holds. -/
theorem slice_flatMap (wide : ∀ item, (bits item).length = width) {items : List α} {item : α}
    {place : Nat} (found : items[place]? = some item) (stream : BitStream) :
    (stream.writeBits (items.flatMap bits)).slice (stream.writeOffset + width * place) width =
      bits item := by
  -- The first value is written before the others, which start where it ends.
  induction items generalizing stream place with
  | nil => cases found
  | cons first rest ih =>
    rw [List.flatMap_cons, ← writeBits_writeBits]
    cases place with
    | zero =>
      obtain rfl : first = item := Option.some_inj.mp found
      rw [slice_writeBits_beside _ _ (.inl (by rw [writeBits_writeOffset, wide]; omega))]
      have written := stream.slice_writeBits (bits first)
      rwa [wide] at written
    | succ place =>
      have next := ih found (stream.writeBits (bits first))
      rw [writeBits_writeOffset, wide] at next
      rw [← next]
      congr 1
      ring

end Rows

/-- Room that was left in front of a write is filled by going back to it. -/
theorem slice_patched (mask body : List Bool) :
    ((((stream.setWriteOffset (stream.writeOffset + mask.length)).writeBits body).setWriteOffset
        stream.writeOffset).writeBits mask).slice stream.writeOffset (mask.length + body.length) =
      mask ++ body := by
  rw [← slice_append]
  congr 1
  · exact slice_writeBits (((stream.setWriteOffset (stream.writeOffset + mask.length)).writeBits
      body).setWriteOffset stream.writeOffset) mask
  · -- The mask ends where the body starts.
    have beside := @slice_writeBits_beside (((stream.setWriteOffset (stream.writeOffset +
      mask.length)).writeBits body).setWriteOffset stream.writeOffset) mask
      (stream.writeOffset + mask.length) body.length
    refine (beside (.inr (Nat.le_refl _))).trans ?_
    exact slice_writeBits (stream.setWriteOffset (stream.writeOffset + mask.length)) body

end BitStream
end Recap
