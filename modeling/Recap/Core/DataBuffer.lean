import Mathlib

/-! The byte buffer behind every Blaze message, with its size, capacity, and position. -/

namespace Recap

/-- A run of bytes in buffer order. -/
abbrev Bytes := List UInt8

/-- The bytes of an ASCII literal, as the source's string constants spell them. -/
def ascii (text : String) : Bytes :=
  text.toUTF8.data.toList

/-- Sums and products of `size_t` values wrap at this bound. -/
abbrev wordBound : Nat := 2 ^ 64

/-- A vector throws instead of growing to this size. -/
abbrev maxCapacity : Nat := 2 ^ 63

/-- A `DataBuffer`: the bytes it owns, and the size and position that move independently of them. -/
structure DataBuffer where
  /-- Everything the buffer owns, so its length is the capacity. -/
  buffer : Bytes
  /-- How many of those bytes belong to the current content. -/
  size : Nat
  /-- Where the next read or write takes place. -/
  position : Nat
  deriving DecidableEq, Repr

namespace DataBuffer

/-- A buffer as it is constructed. -/
def empty : DataBuffer := ⟨[], 0, 0⟩

/-- The number of bytes owned, of which only the first `size` are content. -/
def capacity (b : DataBuffer) : Nat := b.buffer.length

/-- The bytes of the current content. -/
def content (b : DataBuffer) : Bytes := b.buffer.take b.size

/-- The guard shared by reads and writes, which compares against the capacity. -/
def canRw (b : DataBuffer) (length : Nat) : Bool :=
  (b.position + length) % wordBound ≤ b.buffer.length

/-- Change the capacity, dropping bytes from the end or appending zero bytes. -/
def reserve (b : DataBuffer) (newCapacity : Nat) : DataBuffer :=
  { b with buffer := b.buffer.take newCapacity ++
      List.replicate (newCapacity - b.buffer.length) 0 }

/-- One growth step: a first allocation of 64 bytes, and 1024 more each time after. -/
def resizeBuffer (b : DataBuffer) : DataBuffer :=
  if b.buffer.isEmpty then b.reserve 64 else b.reserve (b.buffer.length + 1024)

/-- A growth step only appends zero bytes, and at least sixty-four of them. -/
theorem resizeBuffer_eq (b : DataBuffer) :
    ∃ added, 64 ≤ added ∧
      b.resizeBuffer = { b with buffer := b.buffer ++ List.replicate added 0 } := by
  -- Both branches ask for more than is held, so nothing is dropped from the end.
  unfold resizeBuffer
  split
  · rename_i vacant
    have none_held : b.buffer = [] := List.isEmpty_iff.mp vacant
    exact ⟨64, by omega, by simp only [reserve, none_held, List.take_nil, List.length_nil,
      Nat.sub_zero]⟩
  · refine ⟨1024, by omega, ?_⟩
    simp only [reserve, Nat.add_sub_cancel_left]
    rw [List.take_of_length_le (by omega)]

/-- The growth loop of a write: resize until the guard admits the length. -/
def makeRoom (b : DataBuffer) (length : Nat) : DataBuffer :=
  if b.canRw length then b else b.resizeBuffer.makeRoom length
termination_by (b.position + length) % wordBound - b.buffer.length
decreasing_by
  -- Every step adds bytes without moving the position, so the gap shrinks.
  obtain ⟨added, enough, grown⟩ := b.resizeBuffer_eq
  rename_i refused
  simp only [canRw, decide_eq_true_eq, not_le] at refused
  simp only [grown, List.length_append, List.length_replicate]
  omega

/-- Copy `length` bytes at the position without moving it, or nothing when the guard refuses. -/
def implPeek (b : DataBuffer) (width count : Nat) : Option Bytes :=
  let length := width * count % wordBound
  if b.canRw length then some ((b.buffer.drop b.position).take length) else none

/-- Copy `length` bytes and move past them, or change nothing when the guard refuses. -/
def implRead (b : DataBuffer) (width count : Nat) : Option Bytes × DataBuffer :=
  let length := width * count % wordBound
  if b.canRw length then
    (some ((b.buffer.drop b.position).take length),
      { b with position := (b.position + length) % wordBound })
  else (none, b)

/-- Copy bytes in at the position, growing the capacity first and then the size. -/
def implWrite (b : DataBuffer) (bytes : Bytes) : DataBuffer :=
  let roomy := b.makeRoom bytes.length
  let position := (roomy.position + bytes.length) % wordBound
  { buffer := roomy.buffer.take roomy.position ++ bytes ++
      roomy.buffer.drop (roomy.position + bytes.length)
    size := max roomy.size position
    position := position }

/-- Move the position forward without any guard. -/
def skip (b : DataBuffer) (width count : Nat) : DataBuffer :=
  { b with position := (b.position + width * count % wordBound) % wordBound }

/-- Move to a position, clamped to the size. -/
def setPosition (b : DataBuffer) (newPosition : Nat) : DataBuffer :=
  { b with position := min b.size newPosition }

/-- Change the size, growing the capacity when it is too small and never shrinking it. -/
def resize (b : DataBuffer) (newSize : Nat) : DataBuffer :=
  if b.buffer.length < newSize then { b with size := newSize }.reserve newSize
  else { b with size := newSize }

/-- Release everything. -/
def clear (_ : DataBuffer) : DataBuffer := empty

/-- Whether the position has reached the end of the content. -/
def eof (b : DataBuffer) : Bool := b.size ≤ b.position

/-- Splice in everything the other buffer owns after the content, and add only its size. -/
def insert (b other : DataBuffer) : DataBuffer :=
  { b with
    buffer := b.buffer.take b.size ++ other.buffer ++ b.buffer.drop b.size
    size := (b.size + other.size) % wordBound }

/-- Write one byte. -/
def writeU8 (b : DataBuffer) (byte : UInt8) : DataBuffer := b.implWrite [byte]

/-- The continuation loop of the encoder: seven bits a byte, lowest first. -/
def encodeTdfTail (b : DataBuffer) (value : Nat) : DataBuffer :=
  if 0x80 ≤ value then
    (b.writeU8 (UInt8.ofNat (value &&& 0x7F ||| 0x80))).encodeTdfTail (value >>> 7)
  else b.writeU8 (UInt8.ofNat value)
termination_by value
decreasing_by
  simp only [Nat.shiftRight_eq_div_pow]
  omega

/-- Write an integer with six bits in its first byte and seven in each later one. -/
def encodeTdfInteger (b : DataBuffer) (value : Nat) : DataBuffer :=
  if value < 0x40 then b.writeU8 (UInt8.ofNat (value &&& 0xFF))
  else (b.writeU8 (UInt8.ofNat (value &&& 0x3F ||| 0x80))).encodeTdfTail (value >>> 6)

end DataBuffer

/--
A buffer being read, with the values that uninitialised locals hold.

A failed read leaves its local as it was, and the source then uses that local.
Each failure takes the next value of `uninit`, so results hold whatever those values are.
-/
structure Reader where
  buffer : DataBuffer
  uninit : Nat → Nat

namespace Reader

/-- Read one value whose bytes are in little-endian order, as the native `read<T>()` does. -/
def littleEndian : Bytes → Nat
  | [] => 0
  | byte :: rest => byte.toNat + 256 * littleEndian rest

/-- Take the next value of an uninitialised local of the given width in bytes. -/
def takeUninit (r : Reader) (width : Nat) : Nat × Reader :=
  (r.uninit 0 % 256 ^ width, { r with uninit := fun n => r.uninit (n + 1) })

/-- `read<T>()`: the bytes at the position, or whatever the local held when the guard refuses. -/
def read (r : Reader) (width : Nat) : Nat × Reader :=
  match r.buffer.implRead width 1 with
  | (some bytes, moved) => (littleEndian bytes, { r with buffer := moved })
  | (none, _) => r.takeUninit width

/-- `peek<T>()`: as `read<T>()`, leaving the position where it is. -/
def peek (r : Reader) (width : Nat) : Nat × Reader :=
  match r.buffer.implPeek width 1 with
  | some bytes => (littleEndian bytes, r)
  | none => r.takeUninit width

/-- The continuation loop of the decoder, which runs for the given number of bytes at most. -/
def decodeTdfTail : (remaining i value : Nat) → Reader → Nat × Reader
  | 0, _, value, r => (value, r)
  | remaining + 1, i, value, r =>
    let (next, r) := r.read 1
    let value := value ||| ((next &&& 0x7F) <<< (i * 7 - 1))
    if next < 0x80 then (value, r) else decodeTdfTail remaining (i + 1) value r

/-- Read an integer of at most eight bytes. -/
def decodeTdfInteger (r : Reader) : Nat × Reader :=
  let (value, r) := r.read 1
  -- The source counts `i` from 1 while it is below 8, so seven continuation bytes are read.
  if 0x80 ≤ value then decodeTdfTail 7 1 (value &&& 0x3F) r else (value, r)

end Reader

end Recap
