import Recap.Core.DataBuffer

/-! What a write lays out in the buffer, and what a read takes from it. -/

namespace Recap
namespace DataBuffer

/-- The bytes before the position, zero where the capacity has yet to grow up to it. -/
def laid (b : DataBuffer) : Bytes :=
  b.buffer.take b.position ++ List.replicate (b.position - b.buffer.length) 0

/-- The laid bytes reach exactly up to the position. -/
@[simp] theorem laid_length (b : DataBuffer) : b.laid.length = b.position := by
  simp only [laid, List.length_append, List.length_take, List.length_replicate]
  omega

/-- Where the position is inside the capacity, the laid bytes are those held before it. -/
theorem laid_inside {b : DataBuffer} (inside : b.position ≤ b.buffer.length) :
    b.laid = b.buffer.take b.position := by
  simp [laid, Nat.sub_eq_zero_of_le inside]

/-- The growth loop appends zero bytes until the guard admits the length. -/
theorem makeRoom_eq (b : DataBuffer) (length : Nat) :
    (b.makeRoom length).canRw length = true ∧
      ∃ added, b.makeRoom length = { b with buffer := b.buffer ++ List.replicate added 0 } := by
  -- The induction follows the growth loop, which stops as soon as the guard passes.
  induction b using makeRoom.induct length with
  | case1 b admitted =>
    rw [makeRoom, if_pos admitted]
    exact ⟨admitted, 0, by simp⟩
  | case2 b refused ih =>
    rw [makeRoom, if_neg refused]
    obtain ⟨admitted, later, reached⟩ := ih
    obtain ⟨first, -, grown⟩ := b.resizeBuffer_eq
    refine ⟨admitted, first + later, ?_⟩
    rw [reached, grown]
    simp [List.append_assoc]

/--
One buffer comes from another by writing bytes at its position.

The bytes before the position stay, so the relation composes along a sequence of writes.
-/
structure Wrote (before : DataBuffer) (bytes : Bytes) (after : DataBuffer) : Prop where
  laid : after.laid = before.laid ++ bytes
  inside : after.position ≤ after.buffer.length ∨ after = before
  size_le : after.size ≤ max before.size after.position
  le_size : before.size ≤ after.size
  written : bytes ≠ [] → after.position ≤ after.size

/-- Writing nothing at all leaves the buffer as it was. -/
theorem Wrote.refl (b : DataBuffer) : Wrote b [] b where
  laid := (List.append_nil _).symm
  inside := .inr rfl
  size_le := by omega
  le_size := Nat.le_refl _
  written := fun impossible => absurd rfl impossible

/-- A write moves the position by as many bytes as it lays out. -/
theorem Wrote.position {before after : DataBuffer} {bytes : Bytes} (wrote : Wrote before bytes after) :
    after.position = before.position + bytes.length := by
  have lengths := congrArg List.length wrote.laid
  simpa using lengths

/-- Two writes one after the other lay out the concatenation of their bytes. -/
theorem Wrote.trans {first second third : DataBuffer} {earlier later : Bytes}
    (wrote : Wrote first earlier second) (next : Wrote second later third) :
    Wrote first (earlier ++ later) third where
  laid := by rw [next.laid, wrote.laid, List.append_assoc]
  inside := by
    rcases next.inside with inside | rfl
    · exact .inl inside
    · exact wrote.inside
  size_le := by
    have := wrote.size_le
    have := next.size_le
    have := next.position
    omega
  le_size := Nat.le_trans wrote.le_size next.le_size
  written := by
    intro some_bytes
    -- If the second write is empty, the first one set the size that the second one kept.
    rcases List.eq_nil_or_concat later with rfl | ⟨_, _, rfl⟩
    · have := wrote.written (by simpa using some_bytes)
      have := next.le_size
      have := next.position
      simp only [List.length_nil] at this
      omega
    · exact next.written (by simp)

/-- The written bytes are found at the position where writing started. -/
theorem Wrote.found {before after : DataBuffer} {bytes : Bytes} (wrote : Wrote before bytes after) :
    ∃ tail, after.buffer.drop before.position = bytes ++ tail := by
  rcases wrote.inside with inside | rfl
  · have split := List.take_append_drop after.position after.buffer
    rw [← laid_inside inside, wrote.laid, List.append_assoc] at split
    refine ⟨after.buffer.drop after.position, ?_⟩
    calc after.buffer.drop before.position
        = (before.laid ++ (bytes ++ after.buffer.drop after.position)).drop before.position := by
          rw [split]
      _ = bytes ++ after.buffer.drop after.position := List.drop_left' (laid_length before)
  · -- Nothing was written at all, so there is nothing to find.
    have moved := wrote.position
    have nothing : bytes = [] := List.length_eq_zero_iff.mp (by omega)
    exact ⟨_, by rw [nothing, List.nil_append]⟩

/-- A write that does not wrap the position lays out exactly its bytes. -/
theorem implWrite_wrote {b : DataBuffer} {bytes : Bytes} (room : b.position + bytes.length < wordBound) :
    Wrote b bytes (b.implWrite bytes) := by
  obtain ⟨admitted, added, grown⟩ := b.makeRoom_eq bytes.length
  simp only [canRw, grown, decide_eq_true_eq, Nat.mod_eq_of_lt room, List.length_append,
    List.length_replicate] at admitted
  -- Growing first pads with zeros exactly what `laid` fills in with zeros.
  have padded : (b.buffer ++ List.replicate added 0).take b.position = b.laid := by
    rw [List.take_append, laid, List.take_replicate]
    congr 2
    omega
  have position : (b.implWrite bytes).position = b.position + bytes.length := by
    simp only [implWrite, grown, Nat.mod_eq_of_lt room]
  have buffer : (b.implWrite bytes).buffer =
      b.laid ++ bytes ++ (b.buffer ++ List.replicate added 0).drop (b.position + bytes.length) := by
    simp only [implWrite, grown, padded]
  have size : (b.implWrite bytes).size = max b.size (b.position + bytes.length) := by
    simp only [implWrite, grown, Nat.mod_eq_of_lt room]
  have inside : (b.implWrite bytes).position ≤ (b.implWrite bytes).buffer.length := by
    rw [position, buffer]
    simp only [List.length_append, laid_length]
    omega
  refine ⟨?_, .inl inside, ?_, ?_, ?_⟩
  · rw [laid_inside inside, position, buffer]
    exact List.take_left' (by simp)
  · rw [size, position]
  · rw [size]
    exact Nat.le_max_left _ _
  · intro _
    rw [size, position]
    exact Nat.le_max_right _ _

end DataBuffer

namespace Reader

/-- Everything the buffer owns from the position on. -/
def rest (r : Reader) : Bytes := r.buffer.buffer.drop r.buffer.position

/-- The reader some bytes further on. -/
def advance (r : Reader) (count : Nat) : Reader :=
  { r with buffer := { r.buffer with position := r.buffer.position + count } }

@[simp] theorem advance_rest (r : Reader) (count : Nat) :
    (r.advance count).rest = r.rest.drop count := by
  simp [rest, advance, List.drop_drop]

@[simp] theorem advance_position (r : Reader) (count : Nat) :
    (r.advance count).buffer.position = r.buffer.position + count := rfl

@[simp] theorem advance_size (r : Reader) (count : Nat) :
    (r.advance count).buffer.size = r.buffer.size := rfl

@[simp] theorem advance_uninit (r : Reader) (count : Nat) : (r.advance count).uninit = r.uninit := rfl

@[simp] theorem advance_zero (r : Reader) : r.advance 0 = r := rfl

@[simp] theorem advance_advance (r : Reader) (first second : Nat) :
    (r.advance first).advance second = r.advance (first + second) := by
  simp [advance, Nat.add_assoc]

/-- Bytes found at the position lie inside the capacity. -/
theorem rest_length (r : Reader) :
    r.rest.length = r.buffer.buffer.length - r.buffer.position := by
  simp [rest]

/-- A bulk read inside the capacity copies the bytes at the position and moves past them. -/
theorem implRead_of_rest {r : Reader} {width count : Nat} {bytes tail : Bytes}
    (found : r.rest = bytes ++ tail) (whole : width * count = bytes.length)
    (nonempty : bytes ≠ [])
    (noWrap : r.buffer.position + bytes.length < wordBound) :
    r.buffer.implRead width count = (some bytes, (r.advance bytes.length).buffer) := by
  have held := r.rest_length
  have some_bytes := List.length_pos_iff.mpr nonempty
  simp only [found, List.length_append] at held
  have short : bytes.length % wordBound = bytes.length := Nat.mod_eq_of_lt (by omega)
  have admitted : r.buffer.canRw bytes.length = true := by
    simp only [DataBuffer.canRw, Nat.mod_eq_of_lt noWrap, decide_eq_true_eq]
    omega
  have copied : (r.buffer.buffer.drop r.buffer.position).take bytes.length = bytes := by
    change r.rest.take bytes.length = bytes
    simp [found]
  simp only [DataBuffer.implRead, whole, short, admitted, if_true, copied,
    Nat.mod_eq_of_lt noWrap, advance]

/-- A typed read inside the capacity assembles the bytes at the position. -/
theorem read_of_rest {r : Reader} {width : Nat} {bytes tail : Bytes}
    (found : r.rest = bytes ++ tail) (whole : width = bytes.length) (nonempty : bytes ≠ [])
    (noWrap : r.buffer.position + bytes.length < wordBound) :
    r.read width = (littleEndian bytes, r.advance bytes.length) := by
  rw [read, implRead_of_rest found (by omega) nonempty noWrap]
  rfl

/-- A one-byte read inside the capacity gives that byte. -/
theorem read_byte {r : Reader} {byte : UInt8} {tail : Bytes} (found : r.rest = byte :: tail)
    (noWrap : r.buffer.position + 1 < wordBound) :
    r.read 1 = (byte.toNat, r.advance 1) := by
  have whole : r.rest = [byte] ++ tail := found
  have taken : r.read 1 = (littleEndian [byte], r.advance 1) :=
    read_of_rest whole rfl (by simp) (by simpa)
  simpa [littleEndian] using taken

/-- A one-byte peek inside the capacity gives that byte and moves nothing. -/
theorem peek_byte {r : Reader} {byte : UInt8} {tail : Bytes} (found : r.rest = byte :: tail)
    (noWrap : r.buffer.position + 1 < wordBound) :
    r.peek 1 = (byte.toNat, r) := by
  have held := r.rest_length
  simp only [found, List.length_cons] at held
  have admitted : r.buffer.canRw 1 = true := by
    simp only [DataBuffer.canRw, Nat.mod_eq_of_lt noWrap, decide_eq_true_eq]
    omega
  have copied : (r.buffer.buffer.drop r.buffer.position).take 1 = [byte] := by
    change r.rest.take 1 = [byte]
    simp [found]
  simp [peek, DataBuffer.implPeek, admitted, copied, littleEndian]

/-- Bytes assemble to a number of their own width. -/
theorem littleEndian_lt (bytes : Bytes) : littleEndian bytes < 256 ^ bytes.length := by
  induction bytes with
  | nil => simp [littleEndian]
  | cons byte rest ih =>
    have low := byte.toNat_lt
    simp only [littleEndian, List.length_cons, Nat.pow_succ]
    omega

/-- A read copies the bytes at the position, or where the guard refuses takes the local as it is. -/
theorem read_eq (r : Reader) (width : Nat) :
    r.read width =
      if r.buffer.canRw (width % wordBound) then
        (littleEndian ((r.buffer.buffer.drop r.buffer.position).take (width % wordBound)),
          { r with buffer := { r.buffer with
              position := (r.buffer.position + width % wordBound) % wordBound } })
      else r.takeUninit width := by
  simp only [read, DataBuffer.implRead, Nat.mul_one]
  cases r.buffer.canRw (width % wordBound) with
  | true => rfl
  | false => rfl

/-- A peek copies the bytes at the position, or where the guard refuses takes the local as it is. -/
theorem peek_eq (r : Reader) (width : Nat) :
    r.peek width =
      if r.buffer.canRw (width % wordBound) then
        (littleEndian ((r.buffer.buffer.drop r.buffer.position).take (width % wordBound)), r)
      else r.takeUninit width := by
  simp only [peek, DataBuffer.implPeek, Nat.mul_one]
  cases r.buffer.canRw (width % wordBound) with
  | true => rfl
  | false => rfl

/-- Whether it succeeds or not, a one-byte read gives a byte. -/
theorem read_one_lt (r : Reader) : (r.read 1).1 < 256 := by
  -- A successful copy is at most one byte long, and a failed one is cut to the local's width.
  unfold read DataBuffer.implRead
  split
  · rename_i bytes moved took
    dsimp only at took
    split at took
    · simp only [Prod.mk.injEq, Option.some.injEq] at took
      have bound := littleEndian_lt bytes
      have short : bytes.length ≤ 1 := by
        rw [← took.1]
        simp
      calc littleEndian bytes < 256 ^ bytes.length := bound
        _ ≤ 256 ^ 1 := Nat.pow_le_pow_right (by decide) short
    · simp at took
  · simp only [takeUninit]
    omega

end Reader
end Recap
