import Recap.Lib.BitStream

/-! The integers of messages, whose bytes are swapped when they are written and when they are read. -/

namespace Recap.RakNet

/-- How many bytes an integer has. -/
inductive IntegerSize where
  | one
  | two
  | four
  | eight
deriving DecidableEq

@[reducible] def IntegerSize.bits : IntegerSize → Nat
  | .one => 8
  | .two => 16
  | .four => 32
  | .eight => 64

theorem IntegerSize.bits_whole (size : IntegerSize) : 8 ≤ size.bits ∧ size.bits % 8 = 0 := by
  cases size <;> decide

/-- An integral type of the source. -/
inductive IntegralType where
  | bool
  | integer (signed : Bool) (size : IntegerSize)
deriving DecidableEq

namespace IntegralType

/-- The values of a type. An integer is the bits that it is kept in. -/
@[reducible] def Value : IntegralType → Type
  | .bool => Bool
  | .integer _ size => BitVec size.bits

/-- How many bits a type takes in a stream. -/
def width : IntegralType → Nat
  | .bool => 8
  | .integer _ size => size.bits

end IntegralType

/-- `>>`, which fills up with the sign of a signed operand. -/
def shiftRight {width : Nat} (signed : Bool) (t : BitVec width) (amount : Nat) : BitVec width :=
  if signed then t.sshiftRight amount else t >>> amount

/-- The `int` that a smaller integer becomes before it is shifted. -/
def promote {width : Nat} (signed : Bool) (t : BitVec width) : BitVec 32 :=
  if signed then t.signExtend 32 else t.setWidth 32

/-- `bswap` of two bytes, which are an `int` while they are shifted. -/
def bswap16 (signed : Bool) (t : BitVec 16) : BitVec 16 :=
  ((promote signed t).sshiftRight 8 ||| promote signed t <<< 8).setWidth 16

def bswap32 (signed : Bool) (t : BitVec 32) : BitVec 32 :=
  t <<< 24 ||| (t &&& 0x0000FF00#32) <<< 8 ||| (t &&& 0x00FF0000#32) >>> 8 |||
    shiftRight signed t 24

def bswap64 (signed : Bool) (t : BitVec 64) : BitVec 64 :=
  t <<< 56 ||| (t &&& 0x000000000000FF00#64) <<< 40 ||| (t &&& 0x0000000000FF0000#64) <<< 24 |||
    (t &&& 0x00000000FF000000#64) <<< 8 ||| (t &&& 0x000000FF00000000#64) >>> 8 |||
    (t &&& 0x0000FF0000000000#64) >>> 24 ||| (t &&& 0x00FF000000000000#64) >>> 40 |||
    shiftRight signed t 56

/-- `bswap`, which leaves a single byte as it is. -/
def bswap (signed : Bool) : (size : IntegerSize) → BitVec size.bits → BitVec size.bits
  | .one, t => t
  | .two, t => bswap16 signed t
  | .four, t => bswap32 signed t
  | .eight, t => bswap64 signed t

/-! ### The bits of a swapped integer -/

/-- The place that a bit is swapped with: the same one of the byte at the other end. -/
def mirror (width index : Nat) : Nat := width - 8 + 2 * (index % 8) - index

theorem mirror_lt {width index : Nat} (least : 8 ≤ width) (whole : width % 8 = 0) :
    mirror width index < width := by
  unfold mirror
  omega

theorem mirror_mirror {width index : Nat} (least : 8 ≤ width) (whole : width % 8 = 0)
    (within : index < width) : mirror width (mirror width index) = index := by
  unfold mirror
  omega

section Shifts

variable {width : Nat} (t : BitVec width) {start amount index : Nat}

/-- The bits of a mask for one byte. -/
private theorem getLsbD_byte (place : Nat) :
    (BitVec.ofNat width 0xFF).getLsbD place = (decide (place < width) && decide (place < 8)) := by
  rw [BitVec.getLsbD_ofNat]
  exact congrArg _ (Nat.testBit_two_pow_sub_one 8 place)

private theorem getLsbD_and_inside (inside : start ≤ index ∧ index < start + 8) :
    (t &&& BitVec.ofNat width 0xFF <<< start).getLsbD index = t.getLsbD index := by
  -- The mask has ones at the eight places of its byte.
  by_cases within : index < width
  · rw [BitVec.getLsbD_and, BitVec.getLsbD_shiftLeft, getLsbD_byte, decide_eq_true within,
      decide_eq_false (by omega), decide_eq_true (by omega), decide_eq_true (by omega)]
    simp
  · rw [BitVec.getLsbD_of_ge _ _ (by omega), BitVec.getLsbD_of_ge t _ (by omega)]

private theorem getLsbD_and_outside (outside : index < start ∨ start + 8 ≤ index) :
    (t &&& BitVec.ofNat width 0xFF <<< start).getLsbD index = false := by
  -- Below its byte the mask has been shifted out, and above it there is nothing.
  rw [BitVec.getLsbD_and, BitVec.getLsbD_shiftLeft, getLsbD_byte]
  rcases outside with below | above
  · simp [below]
  · rw [decide_eq_false (p := index - start < 8) (by omega)]
    simp

private theorem getLsbD_shifted (above : amount ≤ index ∧ index < width) :
    (t <<< amount).getLsbD index = t.getLsbD (index - amount) := by
  rw [BitVec.getLsbD_shiftLeft, decide_eq_true above.2, decide_eq_false (by omega)]
  simp

private theorem getLsbD_vacated (below : index < amount) : (t <<< amount).getLsbD index = false := by
  rw [BitVec.getLsbD_shiftLeft, decide_eq_true below]
  simp

private theorem getLsbD_shiftRight_low (signed : Bool) (below : amount + index < width) :
    (shiftRight signed t amount).getLsbD index = t.getLsbD (amount + index) := by
  unfold shiftRight
  cases signed with
  | false => exact BitVec.getLsbD_ushiftRight t amount index
  | true => rw [if_pos rfl, BitVec.getLsbD_sshiftRight, if_pos below, decide_eq_false (by omega)]; rfl

/-- What comes in from the left is the sign. -/
private theorem getLsbD_shiftRight_high (signed : Bool) (above : width ≤ amount + index)
    (within : index < width) :
    (shiftRight signed t amount).getLsbD index = (signed && t.msb) := by
  -- An unsigned number has no bits there, and a signed one repeats its last.
  unfold shiftRight
  cases signed with
  | false => exact (BitVec.getLsbD_ushiftRight t amount index).trans (BitVec.getLsbD_of_ge t _ above)
  | true =>
    rw [if_pos rfl, BitVec.getLsbD_sshiftRight, if_neg (by omega), decide_eq_false (by omega)]
    rfl

end Shifts

private theorem getLsbD_swapped {width : Nat} (t : BitVec width) (index place : Nat)
    (same : place = mirror width index) : t.getLsbD place = t.getLsbD (mirror width index) :=
  congrArg t.getLsbD same

private theorem getLsbD_bswap16 (signed : Bool) (t : BitVec 16) {index : Nat} (within : index < 16) :
    (bswap16 signed t).getLsbD index =
      (t.getLsbD (mirror 16 index) || (decide (8 ≤ index) && (signed && t.msb))) := by
  -- The promoted number has the sign in its upper half.
  have promoted (place : Nat) (small : place < 32) : (promote signed t).getLsbD place =
      if place < 16 then t.getLsbD place else (signed && t.msb) := by
    unfold promote
    cases signed with
    | false =>
      rw [if_neg Bool.false_ne_true, BitVec.getLsbD_setWidth, decide_eq_true small, Bool.true_and]
      split
      · rfl
      · exact BitVec.getLsbD_of_ge t place (by omega)
    | true => rw [if_pos rfl, BitVec.getLsbD_signExtend, decide_eq_true small, Bool.true_and]; rfl
  unfold bswap16
  rw [BitVec.getLsbD_setWidth, decide_eq_true within, Bool.true_and, BitVec.getLsbD_or,
    BitVec.getLsbD_sshiftRight, decide_eq_false (by omega), if_pos (by omega), promoted _ (by omega)]
  rcases Nat.lt_or_ge index 8 with byte | byte
  · rw [if_pos (by omega), getLsbD_vacated _ byte, decide_eq_false (by omega)]
    simp only [Bool.not_false, Bool.true_and, Bool.or_false, Bool.false_and]
    rw [getLsbD_swapped t index]
    unfold mirror
    omega
  · rw [if_neg (by omega), getLsbD_shifted _ (by omega), promoted _ (by omega), if_pos (by omega),
      decide_eq_true byte, Bool.or_comm]
    simp only [Bool.not_false, Bool.true_and]
    rw [getLsbD_swapped t index]
    unfold mirror
    omega

/--
Swapping moves every bit to its mirrored place.

A negative number comes with its sign in all bytes but the first.
-/
private theorem getLsbD_bswap32 (signed : Bool) (t : BitVec 32) {index : Nat} (within : index < 32) :
    (bswap32 signed t).getLsbD index =
      (t.getLsbD (mirror 32 index) || (decide (8 ≤ index) && (signed && t.msb))) := by
  -- Each byte of the result comes from one of the shifts, and the last one brings the sign.
  have second : 0x0000FF00#32 = 0xFF#32 <<< 8 := by decide
  have third : 0x00FF0000#32 = 0xFF#32 <<< 16 := by decide
  simp only [bswap32, second, third, BitVec.getLsbD_or]
  rcases (by omega : index < 8 ∨ (8 ≤ index ∧ index < 16) ∨ (16 ≤ index ∧ index < 24) ∨
    24 ≤ index) with byte | byte | byte | byte
  all_goals
    simp (disch := omega) only [getLsbD_and_inside, getLsbD_and_outside, getLsbD_shifted,
      getLsbD_vacated, BitVec.getLsbD_ushiftRight, getLsbD_shiftRight_low, getLsbD_shiftRight_high,
      decide_eq_true, decide_eq_false, Bool.or_false, Bool.false_or, Bool.true_and, Bool.false_and]
    rw [getLsbD_swapped t index]
    unfold mirror
    omega

private theorem getLsbD_bswap64 (signed : Bool) (t : BitVec 64) {index : Nat} (within : index < 64) :
    (bswap64 signed t).getLsbD index =
      (t.getLsbD (mirror 64 index) || (decide (8 ≤ index) && (signed && t.msb))) := by
  -- As for four bytes, with twice as many shifts.
  have second : 0x000000000000FF00#64 = 0xFF#64 <<< 8 := by decide
  have third : 0x0000000000FF0000#64 = 0xFF#64 <<< 16 := by decide
  have fourth : 0x00000000FF000000#64 = 0xFF#64 <<< 24 := by decide
  have fifth : 0x000000FF00000000#64 = 0xFF#64 <<< 32 := by decide
  have sixth : 0x0000FF0000000000#64 = 0xFF#64 <<< 40 := by decide
  have seventh : 0x00FF000000000000#64 = 0xFF#64 <<< 48 := by decide
  simp only [bswap64, second, third, fourth, fifth, sixth, seventh, BitVec.getLsbD_or]
  rcases (by omega : index < 8 ∨ (8 ≤ index ∧ index < 16) ∨ (16 ≤ index ∧ index < 24) ∨
    (24 ≤ index ∧ index < 32) ∨ (32 ≤ index ∧ index < 40) ∨ (40 ≤ index ∧ index < 48) ∨
    (48 ≤ index ∧ index < 56) ∨ 56 ≤ index) with
    byte | byte | byte | byte | byte | byte | byte | byte
  all_goals
    simp (disch := omega) only [getLsbD_and_inside, getLsbD_and_outside, getLsbD_shifted,
      getLsbD_vacated, BitVec.getLsbD_ushiftRight, getLsbD_shiftRight_low, getLsbD_shiftRight_high,
      decide_eq_true, decide_eq_false, Bool.or_false, Bool.false_or, Bool.true_and, Bool.false_and]
    rw [getLsbD_swapped t index]
    unfold mirror
    omega

/-- A number of each size is swapped alike. -/
theorem getLsbD_bswap (signed : Bool) (size : IntegerSize) (t : BitVec size.bits) {index : Nat}
    (within : index < size.bits) :
    (bswap signed size t).getLsbD index =
      (t.getLsbD (mirror size.bits index) || (decide (8 ≤ index) && (signed && t.msb))) := by
  cases size with
  | one =>
    have small : index < 8 := within
    have same : mirror 8 index = index := by
      unfold mirror
      omega
    -- A single byte has no bits beside its own.
    rw [decide_eq_false (by omega), Bool.false_and, Bool.or_false]
    exact congrArg t.getLsbD same.symm
  | two => exact getLsbD_bswap16 signed t within
  | four => exact getLsbD_bswap32 signed t within
  | eight => exact getLsbD_bswap64 signed t within

/-- A number comes back, with what was the sign of its first byte in all others. -/
theorem getLsbD_bswap_bswap (signed : Bool) (size : IntegerSize) (t : BitVec size.bits) {index : Nat}
    (within : index < size.bits) :
    (bswap signed size (bswap false size t)).getLsbD index =
      (t.getLsbD index || (decide (8 ≤ index) && (signed && t.getLsbD 7))) := by
  obtain ⟨least, whole⟩ := size.bits_whole
  -- The last bit of the swapped number is the last one of the first byte.
  have last : (bswap false size t).msb = t.getLsbD 7 := by
    have place : mirror size.bits (size.bits - 1) = 7 := by
      unfold mirror
      omega
    rw [BitVec.msb_eq_getLsbD_last, getLsbD_bswap false size t (by omega), place, Bool.false_and,
      Bool.and_false, Bool.or_false]
  rw [getLsbD_bswap signed size _ within, getLsbD_bswap false size t (mirror_lt least whole),
    mirror_mirror least whole within, last, Bool.false_and, Bool.and_false, Bool.or_false]

/-! ### Which numbers come back -/

/-- A number that swapping brings back: not a signed one whose first byte looks negative by itself. -/
def Swappable (signed : Bool) {width : Nat} (t : BitVec width) : Prop :=
  signed = true → t.toNat % 256 < 128 ∨ -128 ≤ t.toInt ∧ t.toInt < 0

instance (signed : Bool) {width : Nat} (t : BitVec width) : Decidable (Swappable signed t) :=
  inferInstanceAs (Decidable (signed = true → _))

theorem low_lt_iff {width : Nat} (t : BitVec width) :
    t.toNat % 256 < 128 ↔ t.getLsbD 7 = false := by
  rw [← BitVec.testBit_toNat, Nat.testBit_eq_decide_div_mod_eq, decide_eq_false_iff_not]
  omega

/-- A number from -128 to -1 has nothing but ones above its first byte. -/
theorem small_negative_iff {width : Nat} (least : 8 ≤ width) {t : BitVec width}
    (negative : t.getLsbD 7 = true) :
    (-128 ≤ t.toInt ∧ t.toInt < 0) ↔ ∀ index, 8 ≤ index → index < width → t.getLsbD index = true := by
  have low : ¬ t.toNat % 256 < 128 := by
    rw [low_lt_iff, negative]
    exact Bool.noConfusion
  have small := t.isLt
  -- The bits from the eighth on are those of the quotient.
  have power : 2 ^ width = 256 * 2 ^ (width - 8) := by
    rw [show (256 : Nat) = 2 ^ 8 from rfl, ← Nat.pow_add]
    congr 1
    omega
  have quotient : (∀ index, 8 ≤ index → index < width → t.getLsbD index = true) ↔
      t.toNat / 2 ^ 8 = 2 ^ (width - 8) - 1 := by
    constructor
    · intro ones
      apply Nat.eq_of_testBit_eq
      intro index
      rw [Nat.testBit_div_two_pow, Nat.testBit_two_pow_sub_one, BitVec.testBit_toNat]
      by_cases within : index < width - 8
      · rw [ones _ (by omega) (by omega), decide_eq_true within]
      · rw [BitVec.getLsbD_of_ge _ _ (by omega), decide_eq_false within]
    · intro same index above within
      have bit := congrArg (fun number => number.testBit (index - 8)) same
      simp only [Nat.testBit_div_two_pow, Nat.testBit_two_pow_sub_one, BitVec.testBit_toNat] at bit
      rw [show index = index - 8 + 8 by omega, bit, decide_eq_true (by omega)]
  rw [quotient, BitVec.toInt_eq_toNat_cond, power]
  split <;> omega

/-- A number comes back exactly when swapping may bring it back. -/
theorem bswap_bswap_eq_iff (signed : Bool) (size : IntegerSize) (t : BitVec size.bits) :
    bswap signed size (bswap false size t) = t ↔ Swappable signed t := by
  have least := size.bits_whole.1
  constructor
  · rintro same rfl
    rw [low_lt_iff]
    cases negative : t.getLsbD 7 with
    | false => exact .inl rfl
    | true =>
      refine .inr ((small_negative_iff least negative).mpr fun index above within => ?_)
      -- The sign of the first byte has come into this place.
      have bit := getLsbD_bswap_bswap true size t within
      rw [same, negative, decide_eq_true above] at bit
      simpa using bit
  · intro swappable
    apply BitVec.eq_of_getLsbD_eq
    intro index within
    rw [getLsbD_bswap_bswap signed size t within]
    by_cases foreign : 8 ≤ index ∧ signed = true ∧ t.getLsbD 7 = true
    · obtain ⟨above, rfl, negative⟩ := foreign
      have high := swappable rfl
      rw [low_lt_iff, negative] at high
      rw [(small_negative_iff least negative).mp (high.resolve_left Bool.noConfusion) index above within]
      rfl
    · have nothing : (decide (8 ≤ index) && (signed && t.getLsbD 7)) = false := by
        simpa using foreign
      rw [nothing, Bool.or_false]

/-! ### Reading what was written -/

namespace IntegralType

variable (layout : (width : Nat) → BitLayout width)

/-- The bits that a value is written as. A signed integer is written as the unsigned one of its size. -/
def encode : (type : IntegralType) → type.Value → List Bool
  | .bool, (value : Bool) => (layout 8).bits (if value then 1 else 0)
  | .integer _ size, value => (layout size.bits).bits (bswap false size value)

/-- `Write` -/
def write (stream : BitStream) (type : IntegralType) (value : type.Value) : BitStream :=
  stream.writeBits (encode layout type value)

/-- `Read` at a place of the stream, which swaps the integer as one of its own type. -/
def read (stream : BitStream) (offset : Nat) : (type : IntegralType) → type.Value
  | .bool => decide ((layout 8).value (stream.slice offset 8) ≠ 0)
  | .integer signed size => bswap signed size ((layout size.bits).value (stream.slice offset size.bits))

/-- The values that are read as they were written. -/
def Kept : (type : IntegralType) → type.Value → Prop
  | .bool, _ => True
  | .integer signed _, value => Swappable signed value

@[simp] theorem length_encode (type : IntegralType) (value : type.Value) :
    (encode layout type value).length = type.width := by
  cases type with
  | bool => exact (layout 8).length_bits _
  | integer signed size => exact (layout size.bits).length_bits _

@[simp] theorem write_writeOffset (stream : BitStream) (type : IntegralType) (value : type.Value) :
    (write layout stream type value).writeOffset = stream.writeOffset + type.width :=
  congrArg _ (length_encode layout type value)

private theorem decide_byte (value : Bool) :
    decide ((if value = true then (1 : BitVec 8) else 0) ≠ 0) = value := by
  cases value <;> rfl

/--
A value is read back as it was written exactly when it is not a signed number whose lowest byte is
from 128 on, unless that number is one from -128 to -1.
-/
theorem read_write_iff (stream : BitStream) (type : IntegralType) (value : type.Value) :
    read layout (write layout stream type value) stream.writeOffset type = value ↔
      type.Kept value := by
  -- The stream gives back the bits, so only the two swaps are left.
  cases type with
  | bool =>
    refine iff_of_true ?_ trivial
    unfold read write encode
    simp only
    rw [stream.slice_layout (layout 8), (layout 8).value_bits]
    exact decide_byte value
  | integer signed size =>
    unfold read write encode
    simp only
    rw [stream.slice_layout (layout size.bits), (layout size.bits).value_bits]
    exact bswap_bswap_eq_iff signed size value

/-- Every place of a number in turn. -/
def inOrder (width : Nat) : BitLayout width where
  bits number := (List.range width).map number.getLsbD
  value bits := BitVec.ofNat width (Nat.ofBits fun index : Fin width => bits[index.val]?.getD false)
  length_bits := by simp
  value_bits := by
    intro number
    apply BitVec.eq_of_getLsbD_eq
    intro index within
    rw [BitVec.getLsbD_ofNat, decide_eq_true within, Bool.true_and, Nat.testBit_ofBits_lt _ _ within]
    simp [within]

/-- A signed number that is too large for a signed byte comes back negative. -/
theorem not_read_write :
    ¬ ∀ (layout : (width : Nat) → BitLayout width) (stream : BitStream) (type : IntegralType)
      (value : type.Value),
        read layout (write layout stream type value) stream.writeOffset type = value := by
  intro always
  have same := always inOrder ⟨fun _ => false, 0⟩ (.integer true .four) (128#32)
  exact absurd (congrArg (@BitVec.toInt 32) same) (by decide)

/-! ### Several fields in a row -/

section Fields

variable (layout : (width : Nat) → BitLayout width)

/-- A value along with its type. -/
abbrev Field := (type : IntegralType) × type.Value

def writeAll (stream : BitStream) (fields : List Field) : BitStream :=
  fields.foldl (fun stream field => write layout stream field.1 field.2) stream

/-- Reads values of some types, each from where the one before it ends. -/
def readAll (stream : BitStream) (offset : Nat) : List IntegralType → List Field
  | [] => []
  | type :: later => ⟨type, read layout stream offset type⟩ :: readAll stream (offset + type.width) later

/-- A write leaves what is in front of it. -/
theorem slice_write_before (stream : BitStream) (type : IntegralType) (value : type.Value)
    {start count : Nat} (before : start + count ≤ stream.writeOffset) :
    (write layout stream type value).slice start count = stream.slice start count :=
  stream.slice_writeBits_beside _ (.inl before)

theorem slice_writeAll_before (fields : List Field) {stream : BitStream} {start count : Nat}
    (before : start + count ≤ stream.writeOffset) :
    (writeAll layout stream fields).slice start count = stream.slice start count := by
  -- The induction follows the fields, which are all written behind the slice.
  induction fields generalizing stream with
  | nil => rfl
  | cons field later ih =>
    have further : start + count ≤ (write layout stream field.1 field.2).writeOffset := by
      rw [write_writeOffset]
      omega
    exact (ih further).trans (slice_write_before layout stream field.1 field.2 before)

/-- What is read depends on nothing but the bits of its place. -/
theorem read_congr {stream other : BitStream} {offset : Nat} (type : IntegralType)
    (same : stream.slice offset type.width = other.slice offset type.width) :
    read layout stream offset type = read layout other offset type := by
  cases type with
  | bool => exact congrArg (fun bits => decide ((layout 8).value bits ≠ 0)) same
  | integer signed size =>
    exact congrArg (fun bits => bswap signed size ((layout size.bits).value bits)) same

/-- Fields in a row are read back exactly when each of them would be. -/
theorem readAll_writeAll_iff (fields : List Field) (stream : BitStream) :
    readAll layout (writeAll layout stream fields) stream.writeOffset (fields.map Sigma.fst) =
      fields ↔ ∀ field ∈ fields, field.1.Kept field.2 := by
  -- The first field is in front of all later writes, and they go on where it ends.
  induction fields generalizing stream with
  | nil => simp [readAll]
  | cons field later ih =>
    obtain ⟨type, value⟩ := field
    have behind := write_writeOffset layout stream type value
    have first : read layout (writeAll layout stream (⟨type, value⟩ :: later)) stream.writeOffset
        type = read layout (write layout stream type value) stream.writeOffset type :=
      read_congr layout type (slice_writeAll_before layout later (by rw [behind]))
    have rest := ih (write layout stream type value)
    rw [behind] at rest
    rw [List.map_cons, readAll, first, List.forall_mem_cons, ← read_write_iff layout stream, ← rest]
    simp only [List.cons.injEq, Sigma.mk.injEq, heq_eq_eq, true_and]
    exact Iff.rfl

end Fields

end IntegralType

end Recap.RakNet
