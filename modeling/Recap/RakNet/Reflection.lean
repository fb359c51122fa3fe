import Recap.Lib.BitStream

/-! The serializer that writes which fields of a record are present in front of their values. -/

namespace Recap.RakNet

/-- A serializer between its calls. It has a start offset from its beginning to its end. -/
structure ReflectionSerializer where
  stream : BitStream
  startOffset : Option Nat
  writeBits : BitVec 16

/-- A field and the bits of its value. -/
abbrev ReflectedField := Nat × List Bool

namespace ReflectionSerializer

variable (byte : BitLayout 8) (word : BitLayout 16)

def new (stream : BitStream) : ReflectionSerializer where
  stream := stream
  startOffset := none
  writeBits := 0

/-- `begin`, which leaves room for the mask of few enough fields. -/
def beginFields (fieldCount : Nat) (serializer : ReflectionSerializer) : ReflectionSerializer :=
  match serializer.startOffset with
  | some _ => serializer
  | none =>
    let startOffset := serializer.stream.writeOffset
    { stream :=
        if fieldCount ≤ 8 then serializer.stream.setWriteOffset (startOffset + 8)
        else if fieldCount ≤ 16 then serializer.stream.setWriteOffset (startOffset + 16)
        else serializer.stream
      startOffset := some startOffset
      writeBits := 0 }

def write (fieldCount : Nat) (serializer : ReflectionSerializer) (field : ReflectedField) :
    ReflectionSerializer :=
  let serializer :=
    if fieldCount > 16 then
      { serializer with stream := serializer.stream.writeBits (byte.bits (BitVec.ofNat 8 field.1)) }
    else { serializer with writeBits := serializer.writeBits ||| BitVec.ofNat 16 (1 <<< field.1) }
  { serializer with stream := serializer.stream.writeBits field.2 }

/-- `end`, which writes the terminator, or goes back to write the mask. -/
def endFields (fieldCount : Nat) (serializer : ReflectionSerializer) : ReflectionSerializer :=
  let stream :=
    if fieldCount > 16 then serializer.stream.writeBits (byte.bits 0xFF)
    else
      let offset := serializer.stream.writeOffset
      -- Without a beginning, the offset is the largest number of its type.
      let stream := serializer.stream.setWriteOffset (serializer.startOffset.getD (2 ^ 32 - 1))
      let stream :=
        if fieldCount ≤ 8 then stream.writeBits (byte.bits (serializer.writeBits.setWidth 8))
        else stream.writeBits (word.bits serializer.writeBits)
      stream.setWriteOffset offset
  { serializer with stream := stream, startOffset := none }

/-- A whole record, from the beginning through its fields to the end. -/
def serialize (fieldCount : Nat) (fields : List ReflectedField) (stream : BitStream) : BitStream :=
  (endFields byte word fieldCount
    (fields.foldl (write byte fieldCount) (beginFields fieldCount (new stream)))).stream

end ReflectionSerializer

/-! ## What a reader makes of the bits -/

namespace Reflection

variable (byte : BitLayout 8) (word : BitLayout 16) (width : Nat → Nat)

/-- The values of some fields in turn, and the bits behind them. -/
def takeFields : List Nat → List Bool → Option (List ReflectedField × List Bool)
  | [], bits => some ([], bits)
  | field :: later, bits =>
    if bits.length < width field then none
    else do
      let (fields, rest) ← takeFields later (bits.drop (width field))
      return ((field, bits.take (width field)) :: fields, rest)

/-- A mask, whose bits tell which of the fields follow. -/
def decodeMask {size : Nat} (layout : BitLayout size) (fieldCount : Nat) (bits : List Bool) :
    Option (List ReflectedField × List Bool) :=
  if bits.length < size then none
  else
    let mask := layout.value (bits.take size)
    takeFields width ((List.range fieldCount).filter fun field => mask.getLsbD field)
      (bits.drop size)

/-- Tags, each in front of its field, up to the terminator. -/
def decodeTags (bits : List Bool) : Option (List ReflectedField × List Bool) :=
  if _short : bits.length < 8 then none
  else
    let tag := byte.value (bits.take 8)
    if tag = 0xFF then some ([], bits.drop 8)
    else if bits.length < 8 + width tag.toNat then none
    else do
      let (fields, rest) ← decodeTags (bits.drop (8 + width tag.toNat))
      return ((tag.toNat, (bits.drop 8).take (width tag.toNat)) :: fields, rest)
termination_by bits.length
decreasing_by
  rw [List.length_drop]
  omega

def decode (fieldCount : Nat) (bits : List Bool) : Option (List ReflectedField × List Bool) :=
  if fieldCount ≤ 8 then decodeMask width byte fieldCount bits
  else if fieldCount ≤ 16 then decodeMask width word fieldCount bits
  else decodeTags byte width bits

/-! ## What was written is what is read -/

section Laws

variable {byte : BitLayout 8} {word : BitLayout 16} {width : Nat → Nat}

/-- The bits of the fields, each behind its tag if there is no mask. -/
def body (byte : BitLayout 8) (fieldCount : Nat) (fields : List ReflectedField) : List Bool :=
  fields.flatMap fun field =>
    (if fieldCount > 16 then byte.bits (BitVec.ofNat 8 field.1) else []) ++ field.2

/-- The mask of the fields. -/
def mask (fields : List ReflectedField) : BitVec 16 :=
  fields.foldl (fun bits field => bits ||| BitVec.ofNat 16 (1 <<< field.1)) 0

/-- The writes leave the bits of the fields in the stream, and their mask in the serializer. -/
theorem foldl_write (fieldCount : Nat) (fields : List ReflectedField)
    (serializer : ReflectionSerializer) :
    fields.foldl (ReflectionSerializer.write byte fieldCount) serializer =
      { serializer with
        stream := serializer.stream.writeBits (body byte fieldCount fields)
        writeBits :=
          if fieldCount > 16 then serializer.writeBits
          else fields.foldl (fun bits field => bits ||| BitVec.ofNat 16 (1 <<< field.1))
            serializer.writeBits } := by
  induction fields generalizing serializer with
  | nil => simp [body]
  | cons field rest ih =>
    rw [List.foldl_cons, ih]
    by_cases tagged : fieldCount > 16
    · simp [ReflectionSerializer.write, body, tagged, BitStream.writeBits_writeBits]
    · simp [ReflectionSerializer.write, body, tagged, BitStream.writeBits_writeBits]

/-- A bit of the mask is set for each field that is present. -/
theorem mask_getLsbD {fields : List ReflectedField} (within : ∀ field ∈ fields, field.1 < 16)
    (index : Nat) :
    (mask fields).getLsbD index = true ↔ index ∈ fields.map Prod.fst := by
  have general : ∀ (fields : List ReflectedField) (bits : BitVec 16),
      (∀ field ∈ fields, field.1 < 16) →
      ((fields.foldl (fun bits field => bits ||| BitVec.ofNat 16 (1 <<< field.1)) bits).getLsbD index =
          true ↔ bits.getLsbD index = true ∨ index ∈ fields.map Prod.fst) := by
    intro fields
    induction fields with
    | nil => simp
    | cons field rest ih =>
      intro bits within
      have small := within field List.mem_cons_self
      rw [List.foldl_cons, ih _ fun later member => within later (List.mem_cons_of_mem _ member)]
      simp only [BitVec.getLsbD_or, Bool.or_eq_true, BitVec.getLsbD_ofNat, Bool.and_eq_true,
        decide_eq_true_eq, Nat.one_shiftLeft, Nat.testBit_two_pow, List.map_cons, List.mem_cons]
      -- The one bit that a field adds is its own.
      constructor
      · rintro ((held | ⟨-, same⟩) | later)
        · exact .inl held
        · exact .inr (.inl same.symm)
        · exact .inr (.inr later)
      · rintro (held | same | later)
        · exact .inl (.inl held)
        · exact .inl (.inr ⟨by omega, same.symm⟩)
        · exact .inr later
  rw [mask, general fields 0 within]
  simp

/-- Present fields in order are exactly the ones that the mask tells. -/
theorem filter_mask {fieldCount size : Nat} {bits : BitVec size} {indices : List Nat}
    (sorted : indices.Pairwise (· < ·)) (within : ∀ index ∈ indices, index < fieldCount)
    (told : ∀ index < fieldCount, bits.getLsbD index = true ↔ index ∈ indices) :
    ((List.range fieldCount).filter fun field => bits.getLsbD field) = indices := by
  refine (List.pairwise_lt_range.filter _).eq_of_mem_iff sorted fun index => ?_
  rw [List.mem_filter, List.mem_range]
  constructor
  · rintro ⟨below, set⟩
    exact (told index below).mp set
  · intro member
    exact ⟨within index member, (told index (within index member)).mpr member⟩

theorem takeFields_append {fields : List ReflectedField}
    (sized : ∀ field ∈ fields, field.2.length = width field.1) (rest : List Bool) :
    takeFields width (fields.map Prod.fst) (fields.flatMap Prod.snd ++ rest) = some (fields, rest) := by
  induction fields with
  | nil => rfl
  | cons field later ih =>
    have size := sized field List.mem_cons_self
    have taken := ih fun other member => sized other (List.mem_cons_of_mem _ member)
    simp only [List.map_cons, List.flatMap_cons, List.append_assoc, takeFields]
    rw [if_neg (by rw [List.length_append]; omega), ← size, List.drop_left, List.take_left, taken]
    rfl

theorem decodeMask_append {size fieldCount : Nat} {layout : BitLayout size} {bits : BitVec size}
    {fields : List ReflectedField} (sorted : (fields.map Prod.fst).Pairwise (· < ·))
    (within : ∀ field ∈ fields, field.1 < fieldCount ∧ field.2.length = width field.1)
    (told : ∀ index < fieldCount, bits.getLsbD index = true ↔ index ∈ fields.map Prod.fst)
    (rest : List Bool) :
    decodeMask width layout fieldCount (layout.bits bits ++ (fields.flatMap Prod.snd ++ rest)) =
      some (fields, rest) := by
  have size_ := layout.length_bits bits
  have indices : ∀ index ∈ fields.map Prod.fst, index < fieldCount := by
    intro index member
    obtain ⟨field, present, rfl⟩ := List.mem_map.mp member
    exact (within field present).1
  unfold decodeMask
  rw [if_neg (by rw [List.length_append]; omega), List.take_left' size_, List.drop_left' size_]
  simp only [layout.value_bits]
  rw [filter_mask sorted indices told]
  exact takeFields_append (fun field member => (within field member).2) rest

theorem decodeTags_append {fieldCount : Nat} {fields : List ReflectedField} (tagged : fieldCount > 16)
    (small : fieldCount ≤ 255)
    (within : ∀ field ∈ fields, field.1 < fieldCount ∧ field.2.length = width field.1)
    (rest : List Bool) :
    decodeTags byte width (body byte fieldCount fields ++ (byte.bits 0xFF ++ rest)) =
      some (fields, rest) := by
  induction fields with
  | nil =>
    have size := byte.length_bits 0xFF
    have terminator : body byte fieldCount [] ++ (byte.bits 0xFF ++ rest) = byte.bits 0xFF ++ rest := rfl
    rw [terminator, decodeTags, dif_neg (by rw [List.length_append]; omega)]
    simp only [List.take_left' size, byte.value_bits, if_true, List.drop_left' size]
  | cons field later ih =>
    obtain ⟨below, length⟩ := within field List.mem_cons_self
    have taken := ih fun other member => within other (List.mem_cons_of_mem _ member)
    have size := byte.length_bits (BitVec.ofNat 8 field.1)
    have tag : (BitVec.ofNat 8 field.1).toNat = field.1 := by
      rw [BitVec.toNat_ofNat]
      omega
    -- The terminator is no field's tag.
    have other : BitVec.ofNat 8 field.1 ≠ 0xFF := by
      intro same
      have number := congrArg BitVec.toNat same
      rw [tag] at number
      have terminator : (0xFF : BitVec 8).toNat = 255 := rfl
      omega
    have split : body byte fieldCount (field :: later) ++ (byte.bits 0xFF ++ rest) =
        byte.bits (BitVec.ofNat 8 field.1) ++ (field.2 ++
          (body byte fieldCount later ++ (byte.bits 0xFF ++ rest))) := by
      simp [body, tagged]
    have behind : (byte.bits (BitVec.ofNat 8 field.1) ++ (field.2 ++
        (body byte fieldCount later ++ (byte.bits 0xFF ++ rest)))).drop (8 + width field.1) =
          body byte fieldCount later ++ (byte.bits 0xFF ++ rest) := by
      rw [← List.drop_drop, List.drop_left' size, List.drop_left' length]
    rw [split, decodeTags, dif_neg (by rw [List.length_append]; omega)]
    simp only [List.take_left' size, byte.value_bits, if_neg other, tag, behind, taken,
      List.drop_left' size, List.take_left' length]
    rw [if_neg (by simp only [List.length_append]; omega)]
    rfl

variable (byte word) in
/-- A masked record: the bits in front of the fields are the mask's, and the stream goes on behind them. -/
theorem serialize_masked {fieldCount : Nat} {maskBits : List Bool} {size : Nat}
    (masked : ¬ fieldCount > 16) (sized : maskBits.length = size)
    (room : (if fieldCount ≤ 8 then 8 else 16) = size) (fields : List ReflectedField)
    (told : maskBits = if fieldCount ≤ 8 then byte.bits ((mask fields).setWidth 8)
      else word.bits (mask fields)) (stream : BitStream) :
    let written := ReflectionSerializer.serialize byte word fieldCount fields stream
    written.writeOffset = stream.writeOffset + (maskBits ++ fields.flatMap Prod.snd).length ∧
      written.slice stream.writeOffset (maskBits ++ fields.flatMap Prod.snd).length =
        maskBits ++ fields.flatMap Prod.snd ∧
      ∀ index < stream.writeOffset, written.data index = stream.data index := by
  have plain : body byte fieldCount fields = fields.flatMap Prod.snd := by
    simp [body, masked]
  -- The stream is written behind the room for the mask, and then patched.
  have patched : ReflectionSerializer.serialize byte word fieldCount fields stream =
      ((((stream.setWriteOffset (stream.writeOffset + maskBits.length)).writeBits
        (fields.flatMap Prod.snd)).setWriteOffset stream.writeOffset).writeBits
          maskBits).setWriteOffset
            (stream.writeOffset + maskBits.length + (fields.flatMap Prod.snd).length) := by
    unfold ReflectionSerializer.serialize
    rw [foldl_write, plain, sized, ← room, told]
    by_cases few : fieldCount ≤ 8
    · simp [ReflectionSerializer.endFields, ReflectionSerializer.beginFields,
        ReflectionSerializer.new, masked, few, mask]
    · simp [ReflectionSerializer.endFields, ReflectionSerializer.beginFields,
        ReflectionSerializer.new, masked, few, mask, Nat.not_lt.mp masked]
  intro written
  refine ⟨?_, ?_, fun index before => ?_⟩
  · rw [show written = _ from patched, BitStream.setWriteOffset_writeOffset, List.length_append,
      Nat.add_assoc]
  · rw [show written = _ from patched, BitStream.slice_setWriteOffset, List.length_append]
    exact stream.slice_patched maskBits (fields.flatMap Prod.snd)
  · rw [show written = _ from patched, BitStream.setWriteOffset_data,
      BitStream.writeBits_data_before _ _ (by simpa using before), BitStream.setWriteOffset_data,
      BitStream.writeBits_data_before _ _ (by simp only [BitStream.setWriteOffset_writeOffset]; omega),
      BitStream.setWriteOffset_data]

theorem serialize_tagged {fieldCount : Nat} (tagged : fieldCount > 16)
    (fields : List ReflectedField) (stream : BitStream) :
    ReflectionSerializer.serialize byte word fieldCount fields stream =
      stream.writeBits (body byte fieldCount fields ++ byte.bits 0xFF) := by
  unfold ReflectionSerializer.serialize
  rw [foldl_write]
  simp [ReflectionSerializer.endFields, ReflectionSerializer.beginFields, ReflectionSerializer.new,
    tagged, BitStream.writeBits_writeBits, show ¬ fieldCount ≤ 8 by omega,
    show ¬ fieldCount ≤ 16 by omega]

end Laws

/--
What the serializer writes is decoded to exactly the fields, and its write offset ends behind them.

Nothing in front of the record changes, and what comes behind it does not matter.
-/
theorem decode_serialize (byte : BitLayout 8) (word : BitLayout 16) (width : Nat → Nat)
    (fieldCount : Nat) (small : fieldCount ≤ 255) (fields : List ReflectedField)
    (sorted : (fields.map Prod.fst).Pairwise (· < ·))
    (within : ∀ field ∈ fields, field.1 < fieldCount ∧ field.2.length = width field.1)
    (stream : BitStream) (rest : List Bool) :
    let written := ReflectionSerializer.serialize byte word fieldCount fields stream
    stream.writeOffset ≤ written.writeOffset ∧
      decode byte word width fieldCount
        (written.slice stream.writeOffset (written.writeOffset - stream.writeOffset) ++ rest) =
          some (fields, rest) ∧
      ∀ index < stream.writeOffset, written.data index = stream.data index := by
  -- More than 16 fields are tagged one by one. Fewer are announced by a mask of one byte or two.
  intro written
  by_cases tagged : fieldCount > 16
  · have wrote : written = stream.writeBits (body byte fieldCount fields ++ byte.bits 0xFF) :=
      serialize_tagged tagged fields stream
    have offset : written.writeOffset - stream.writeOffset =
        (body byte fieldCount fields ++ byte.bits 0xFF).length := by
      rw [wrote, BitStream.writeBits_writeOffset, Nat.add_sub_cancel_left]
    refine ⟨?_, ?_, fun index before => ?_⟩
    · rw [wrote]
      exact Nat.le_add_right _ _
    · rw [offset, wrote, BitStream.slice_writeBits, decode, if_neg (by omega), if_neg (by omega),
        List.append_assoc]
      exact decodeTags_append tagged small within rest
    · rw [wrote]
      exact stream.writeBits_data_before _ before
  · have present : ∀ index, (mask fields).getLsbD index = true ↔ index ∈ fields.map Prod.fst :=
      mask_getLsbD fun field member => Nat.lt_of_lt_of_le (within field member).1 (Nat.not_lt.mp tagged)
    by_cases few : fieldCount ≤ 8
    · have size := byte.length_bits ((mask fields).setWidth 8)
      obtain ⟨offset, bits, kept⟩ := serialize_masked byte word tagged size (if_pos few) fields
        (if_pos few).symm stream
      refine ⟨Nat.le.intro offset.symm, ?_, kept⟩
      rw [show written.writeOffset - stream.writeOffset = _ by rw [offset, Nat.add_sub_cancel_left],
        bits, decode, if_pos few, List.append_assoc]
      refine decodeMask_append sorted within (fun index below => ?_) rest
      rw [BitVec.getLsbD_setWidth, ← present index]
      simp [show index < 8 by omega]
    · have size := word.length_bits (mask fields)
      obtain ⟨offset, bits, kept⟩ := serialize_masked byte word tagged size (if_neg few) fields
        (if_neg few).symm stream
      refine ⟨Nat.le.intro offset.symm, ?_, kept⟩
      rw [show written.writeOffset - stream.writeOffset = _ by rw [offset, Nat.add_sub_cancel_left],
        bits, decode, if_neg few, if_pos (Nat.not_lt.mp tagged), List.append_assoc]
      exact decodeMask_append sorted within (fun index _ => present index) rest

/-- A byte from its high bit on. -/
def highFirst : BitLayout 8 where
  bits number := (List.range 8).map fun index => number.getMsbD index
  value bits := BitVec.ofNat 8 (bits.foldl (fun number bit => 2 * number + bit.toNat) 0)
  length_bits := fun _ => rfl
  value_bits := by decide

/-- A word as its low byte and then its high one. -/
def lowByteFirst : BitLayout 16 where
  bits number := highFirst.bits (number.setWidth 8) ++ highFirst.bits (number.extractLsb' 8 8)
  value bits := highFirst.value (bits.drop 8) ++ highFirst.value (bits.take 8)
  length_bits := fun _ => rfl
  value_bits := by
    intro number
    have size := highFirst.length_bits (number.setWidth 8)
    rw [List.take_left' size, List.drop_left' size, highFirst.value_bits, highFirst.value_bits]
    apply BitVec.eq_of_getLsbD_eq
    intro index below
    simp only [BitVec.getLsbD_append, BitVec.getLsbD_setWidth, BitVec.getLsbD_extractLsb']
    by_cases low : index < 8
    · simp [low]
    · simp [low, show index - 8 < 8 by omega, show 8 + (index - 8) = index by omega]

/-- Two of ten fields behind seven other bits, which leaves the mask between the bytes. -/
theorem decode_serialize_unaligned :
    let stream : BitStream := ⟨fun _ => true, 7⟩
    let written := ReflectionSerializer.serialize highFirst lowByteFirst 10
      [(1, [true, false, true]), (9, [false])] stream
    7 ≤ written.writeOffset ∧
      decode highFirst lowByteFirst (fun field => if field = 1 then 3 else 1) 10
        (written.slice 7 (written.writeOffset - 7) ++ [true]) =
          some ([(1, [true, false, true]), (9, [false])], [true]) ∧
      ∀ index < 7, written.data index = true :=
  decode_serialize highFirst lowByteFirst (fun field => if field = 1 then 3 else 1) 10 (by decide)
    [(1, [true, false, true]), (9, [false])] (by decide) (by decide) ⟨fun _ => true, 7⟩ [true]

end Reflection

end Recap.RakNet
