import Recap.Core.DataBufferAppend
import Recap.Lib.Decoding

/-! Numbers whose bytes are swapped on their way into a buffer and out of it. -/

namespace Recap

open Decoding (lowBytes)

/-- `BSWAP16` and `BSWAP32`: the number with its bytes the other way round. -/
def bswap (width value : Nat) : Nat := Reader.littleEndian (lowBytes width value).reverse

/-- The bytes of a number from the highest down. -/
def bigBytes (width value : Nat) : Bytes := (lowBytes width value).reverse

/-- `read_u16_be` and `read_u32_be` -/
def Reader.readBE (r : Reader) (width : Nat) : Nat × Reader :=
  let (raw, r) := r.read width
  (bswap width raw, r)

/-- `write_u16_be` and `write_u32_be` -/
def DataBuffer.writeBE (b : DataBuffer) (width value : Nat) : DataBuffer :=
  b.implWrite (lowBytes width (bswap width value))

@[simp] theorem bigBytes_length (width value : Nat) : (bigBytes width value).length = width := by
  rw [bigBytes, List.length_reverse, Decoding.lowBytes_length]

/-- The bytes of the number that some bytes make are those bytes. -/
theorem lowBytes_littleEndian (bytes : Bytes) :
    lowBytes bytes.length (Reader.littleEndian bytes) = bytes := by
  -- The induction is on the bytes, of which the first one is the rest modulo 256.
  induction bytes with
  | nil => rfl
  | cons byte rest ih =>
    have small := byte.toNat_lt
    have first : UInt8.ofNat (byte.toNat + 256 * Reader.littleEndian rest) = byte := by
      apply UInt8.toNat_inj.mp
      rw [UInt8.toNat_ofNat']
      omega
    have later : (byte.toNat + 256 * Reader.littleEndian rest) / 256 = Reader.littleEndian rest := by
      omega
    rw [List.length_cons, Reader.littleEndian, lowBytes, first, later, ih]

/-- Swapped bytes are laid out from the highest down. -/
theorem lowBytes_bswap (width value : Nat) :
    lowBytes width (bswap width value) = bigBytes width value := by
  have laid := lowBytes_littleEndian (lowBytes width value).reverse
  rwa [List.length_reverse, Decoding.lowBytes_length] at laid

/-- A number that was swapped as it was read is laid out as it stood. -/
theorem bigBytes_bswap (bytes : Bytes) :
    bigBytes bytes.length (bswap bytes.length (Reader.littleEndian bytes)) = bytes := by
  have laid := lowBytes_littleEndian bytes.reverse
  rw [List.length_reverse] at laid
  rw [bigBytes, bswap, lowBytes_littleEndian, laid, List.reverse_reverse]

/-- A number is written from its highest byte down. -/
theorem DataBuffer.writeBE_eq (b : DataBuffer) (width value : Nat) :
    b.writeBE width value = b.implWrite (bigBytes width value) := by
  rw [writeBE, lowBytes_bswap]

/-- Numbers of as many bytes are told apart by their bytes. -/
theorem bigBytes_inj {width value other : Nat} (small : value < 256 ^ width)
    (otherSmall : other < 256 ^ width) (same : bigBytes width value = bigBytes width other) :
    value = other := by
  have low : lowBytes width value = lowBytes width other := List.reverse_injective same
  rw [← Decoding.littleEndian_lowBytes small, low, Decoding.littleEndian_lowBytes otherSmall]

/-- A number that is inside the capacity is read there, and its bytes are those found. -/
theorem Reader.readBE_of_rest {r : Reader} {width : Nat} (positive : 0 < width)
    (inside : width ≤ r.rest.length) (noWrap : r.buffer.position + width < wordBound) :
    ∃ value, r.readBE width = (value, r.advance width) ∧ value < 256 ^ width ∧
      bigBytes width value = r.rest.take width := by
  have whole : width = (r.rest.take width).length := by
    rw [List.length_take]
    omega
  have nonempty : r.rest.take width ≠ [] := by
    intro none
    rw [none, List.length_nil] at whole
    omega
  have split : r.rest = r.rest.take width ++ r.rest.drop width := (List.take_append_drop _ _).symm
  have read := Reader.read_of_rest split whole nonempty (by rw [← whole]; exact noWrap)
  refine ⟨bswap width (littleEndian (r.rest.take width)), ?_, ?_, ?_⟩
  · rw [readBE, read, ← whole]
  · have bound := littleEndian_lt (lowBytes width (littleEndian (r.rest.take width))).reverse
    rwa [List.length_reverse, Decoding.lowBytes_length] at bound
  · have laid := bigBytes_bswap (r.rest.take width)
    rwa [← whole] at laid

end Recap
