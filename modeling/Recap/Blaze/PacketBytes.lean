import Recap.Blaze.LabelLaws
import Recap.Core.DataBufferLaws

/-! The writer lays out exactly the bytes of a tree when it is given the document of the tree. -/

namespace Recap.Blaze

/-! ## Keys in decimal -/

private theorem digitValue_digit : ∀ digit < 10, digitValue (UInt8.ofNat (48 + digit)) = some digit := by
  decide

/-- Decimal digits are read back as they are, in any base that is large enough for them. -/
private theorem leadingDigits_map {digits : List Nat} (small : ∀ digit ∈ digits, digit < 10) :
    leadingDigits 10 (digits.map fun digit => UInt8.ofNat (48 + digit)) = digits := by
  induction digits with
  | nil => rfl
  | cons digit rest ih =>
    have first := small digit List.mem_cons_self
    rw [List.map_cons, leadingDigits, digitValue_digit digit first]
    simp only [if_pos first, ih fun later member => small later (List.mem_cons_of_mem _ member)]

private theorem digitsValue_reverse (digits : List Nat) :
    digitsValue 10 digits.reverse = Nat.ofDigits 10 digits := by
  -- Reading from the highest digit is folding from the other end.
  rw [digitsValue, List.foldl_reverse, Nat.ofDigits_eq_foldr]
  congr 1
  funext digit value
  simp only [Nat.cast_id]
  ring

/-- The decimal digits of a number spell it. -/
theorem digitsValue_toDecimal (value : Nat) : digitsValue 10 (leadingDigits 10 (toDecimal value)) = value := by
  unfold toDecimal
  split
  · rename_i zero
    rw [zero]
    decide
  · rw [leadingDigits_map, digitsValue_reverse, Nat.ofDigits_digits]
    intro digit member
    exact Nat.digits_lt_base (by decide) (List.mem_reverse.mp member)

/-- A positive number starts with a digit that is not zero. -/
private theorem toDecimal_head {value : Nat} (positive : value ≠ 0) :
    ∃ character rest, toDecimal value = character :: rest ∧
      49 ≤ character.toNat ∧ character.toNat ≤ 57 := by
  have nonempty : Nat.digits 10 value ≠ [] := Nat.digits_ne_nil_iff_ne_zero.mpr positive
  have last := Nat.getLast_digit_ne_zero 10 positive
  have small := Nat.digits_lt_base (by decide : 1 < 10) (List.getLast_mem nonempty)
  have split := List.dropLast_append_getLast nonempty
  -- The digits come lowest first, so the last of them becomes the first character.
  refine ⟨UInt8.ofNat (48 + (Nat.digits 10 value).getLast nonempty),
    (Nat.digits 10 value).dropLast.reverse.map fun digit => UInt8.ofNat (48 + digit), ?_, ?_⟩
  · rw [toDecimal, if_neg positive]
    conv_lhs => rw [← split]
    rw [List.reverse_append, List.reverse_singleton, List.singleton_append, List.map_cons]
  · rw [UInt8.toNat_ofNat_of_lt' (show _ < 256 by omega)]
    omega

/-- A text that starts with a digit other than zero is neither signed nor in another base. -/
private theorem stoull_digits {character : UInt8} {rest : Bytes} (least : 49 ≤ character.toNat)
    (most : character.toNat ≤ 57) (word : digitsValue 10 (leadingDigits 10 (character :: rest)) < wordBound) :
    stoull (character :: rest) = .ok (digitsValue 10 (leadingDigits 10 (character :: rest))) := by
  -- The first character is no space, no sign, and no zero that would announce another base.
  have other : ∀ code : UInt8, code.toNat < 49 → character ≠ code := by
    rintro code below rfl
    omega
  have solid : isSpace character = false := by
    have below : ∀ code : UInt8, code.toNat < 49 → ¬ character = code := other
    simp only [isSpace, decide_eq_false_iff_not, not_or, not_and]
    exact ⟨below 32 (by decide), fun _ high => absurd (show character.toNat ≤ 13 from high) (by omega)⟩
  have plain : unsignedDigits (character :: rest) = (10, leadingDigits 10 (character :: rest)) := by
    unfold unsignedDigits
    split
    · rename_i same
      exact absurd (List.cons.inj same).1 (other 48 (by decide))
    · rename_i same
      exact absurd (List.cons.inj same).1 (other 48 (by decide))
    · rfl
  have some_digit : leadingDigits 10 (character :: rest) ≠ [] := by
    have digit : digitValue character = some (character.toNat - 48) := by
      simp only [digitValue, if_pos (show 48 ≤ character.toNat ∧ character.toNat ≤ 57 by omega)]
    simp only [leadingDigits, digit, if_pos (show character.toNat - 48 < 10 by omega)]
    exact List.cons_ne_nil _ _
  unfold stoull
  simp only [List.dropWhile_cons, solid, Bool.false_eq_true, if_false]
  split
  · rename_i same
    exact absurd (List.cons.inj same).1 (other 45 (by decide))
  · rename_i same
    exact absurd (List.cons.inj same).1 (other 43 (by decide))
  · simp [plain, some_digit, Nat.not_le.mpr word]

/-- A key in decimal is read back as its number. -/
theorem stoull_toDecimal {value : Nat} (word : value < wordBound) : stoull (toDecimal value) = .ok value := by
  have read := digitsValue_toDecimal value
  by_cases zero : value = 0
  · rw [zero]
    decide
  · obtain ⟨character, rest, text, least, most⟩ := toDecimal_head zero
    rw [text] at read ⊢
    rw [stoull_digits least most (by rw [read]; exact word), read]

/-- Every character of a number in decimal is a digit. -/
theorem digit_of_mem_toDecimal {value : Nat} {character : UInt8}
    (member : character ∈ toDecimal value) : 48 ≤ character.toNat ∧ character.toNat ≤ 57 := by
  unfold toDecimal at member
  split at member
  · rw [List.mem_singleton.mp member]
    decide
  · obtain ⟨digit, found, rfl⟩ := List.mem_map.mp member
    have small := Nat.digits_lt_base (by decide : 1 < 10) (List.mem_reverse.mp found)
    rw [UInt8.toNat_ofNat_of_lt' (show _ < 256 by omega)]
    omega

/-- What is no digit is nowhere in a number. -/
theorem toDecimal_without (value : Nat) {character : UInt8} (low : character.toNat < 48) :
    character ∉ toDecimal value := fun member => by
  have digit := digit_of_mem_toDecimal member
  omega

/-- A key in decimal has no NUL. -/
theorem toDecimal_plain (value : Nat) : (0 : UInt8) ∉ toDecimal value :=
  toDecimal_without value (by decide)

/-! ## Headers and texts -/

/-- The types of values fit in a byte and come back from it. -/
theorem Value.kind_toNat (value : Value) :
    value.kind.toNat < 12 ∧ Kind.ofNat value.kind.toNat = value.kind := by
  cases value <;> exact ⟨Nat.le_of_ble_eq_true rfl, rfl⟩

/-- The types of what a list or a map holds fit in a byte and come back from it. -/
theorem Listed.toNat {kind : Kind} (listed : Listed kind) :
    kind.toNat < 12 ∧ Kind.ofNat kind.toNat = kind := by
  rcases listed with rfl | rfl | rfl <;> exact ⟨by decide, rfl⟩

/-- There is one member of the document for each value. -/
theorem Members.document_length (members : Members) : members.document.length = members.length := by
  match members with
  | .nil => rfl
  | .cons name value rest =>
    rw [Members.document, List.length_cons, rest.document_length, Members.length]

/-- Members without a value are none at all. -/
theorem Members.eq_nil {members : Members} (none : members.length = 0) : members = .nil := by
  cases members with
  | nil => rfl
  | cons name value rest => exact absurd none (Nat.succ_ne_zero _)

/-- No character of a label is a NUL. -/
theorem Label.plain {name : Bytes} (label : Label name) : (0 : UInt8) ∉ name := by
  intro member
  exact absurd (label.2.2 0 member).1 (by decide)

private theorem ofNat_congr {first second : Nat} (same : first % 256 = second % 256) :
    UInt8.ofNat first = UInt8.ofNat second := by
  apply UInt8.toNat_inj.mp
  rw [UInt8.toNat_ofNat', UInt8.toNat_ofNat', same]

/-- A header takes four bytes. -/
@[simp] theorem headerBytes_length (label : Bytes) (kind : Kind) : (headerBytes label kind).length = 4 := rfl

/-- Writing a header lays out its bytes. -/
theorem writeHeader_wrote {b : DataBuffer} (label : Bytes) (kind : Kind)
    (room : b.position + 4 < wordBound) :
    DataBuffer.Wrote b (headerBytes label kind) (writeHeader b label kind) := by
  have small := compressLabel_lt label
  -- The type is put above the twenty-four bits of the label.
  have joined : compressLabel label ||| (kind.toNat <<< 24) =
      2 ^ 24 * kind.toNat + compressLabel label := by
    rw [Nat.or_comm, Nat.shiftLeft_eq, Nat.mul_comm, Nat.two_pow_add_eq_or_of_lt small]
  have laid : writeHeader b label kind = b.implWrite (headerBytes label kind) := by
    simp only [writeHeader, headerBytes, joined, Nat.shiftRight_eq_div_pow]
    congr 2
    · exact ofNat_congr (by omega)
    congr 1
    · exact ofNat_congr (by omega)
    congr 1
    · exact ofNat_congr (by omega)
    · congr 1
      exact ofNat_congr (by omega)
  rw [laid]
  exact DataBuffer.implWrite_wrote room

namespace Packet

open DataBuffer

/-- Writing a single byte lays it out. -/
theorem writeU8_wrote {b : DataBuffer} (byte : UInt8) (room : b.position + 1 < wordBound) :
    Wrote b [byte] (b.writeU8 byte) := implWrite_wrote room

/-- Writing a text lays out its bytes. -/
theorem writeText_wrote {b : DataBuffer} (text : Bytes)
    (room : b.position + (textBytes text).length < wordBound) :
    Wrote b (textBytes text) (writeText b text) := by
  simp only [textBytes, List.length_append, List.length_singleton] at room
  -- The length, the characters, and the NUL are written one after another.
  have length := b.encodeTdfInteger_wrote (text.length + 1) (by omega)
  have first := length.position
  have characters : Wrote _ text ((b.encodeTdfInteger (text.length + 1)).implWrite text) :=
    implWrite_wrote (by omega)
  have second := characters.position
  exact (length.trans characters).trans (writeU8_wrote 0 (by omega))

/-- Two integers written in turn lay out their bytes in turn. -/
private theorem encode_trans {before b : DataBuffer} {bytes : Bytes} (wrote : Wrote before bytes b)
    (value : Nat) (room : before.position + (bytes ++ tdfBytes value).length < wordBound) :
    Wrote before (bytes ++ tdfBytes value) (b.encodeTdfInteger value) := by
  have moved := wrote.position
  simp only [List.length_append] at room
  exact wrote.trans (b.encodeTdfInteger_wrote value (by omega))

theorem byte_trans {before b : DataBuffer} {bytes : Bytes} (wrote : Wrote before bytes b)
    (byte : UInt8) (room : before.position + (bytes ++ [byte]).length < wordBound) :
    Wrote before (bytes ++ [byte]) (b.writeU8 byte) := by
  have moved := wrote.position
  simp only [List.length_append, List.length_singleton] at room
  exact wrote.trans (writeU8_wrote byte (by omega))

/-- What is written under a name is a header and then what is written without one. -/
theorem writeType_name (b : DataBuffer) (type : Kind) (name : Bytes) (value : Json) :
    writeType b type (some name) value =
      writeType (writeHeader b (Json.cString name) type) type none value := by
  unfold writeType
  rfl

/-- A key of a map is laid out as its map's type asks. -/
theorem writeType_key {b : DataBuffer} {keys : Kind} {name : Bytes} (key : Key keys name)
    (room : b.position + (keyBytes keys name).length < wordBound) :
    ∃ after, writeType b keys none (.string name) = .ok after ∧ Wrote b (keyBytes keys name) after := by
  rcases key with ⟨rfl, plain, -⟩ | ⟨rfl, value, small, rfl⟩
  · refine ⟨_, ?_, writeText_wrote name room⟩
    simp only [writeType, writeName, Json.getString, Json.cString_eq plain]
    rfl
  · -- A key in decimal is turned back into the number it spells.
    have word : value < wordBound := Nat.lt_trans small (by decide)
    have read := stoull_toDecimal word
    simp only [keyBytes, digitsValue_toDecimal] at room ⊢
    refine ⟨_, ?_, b.encodeTdfInteger_wrote value room⟩
    simp only [writeType, writeName, Json.cString_eq (toDecimal_plain value), read]
    rfl

/-- A value goes to the writer of its own type. -/
theorem write_value (b : DataBuffer) (name : Option Bytes) (value : Value) :
    write b name value.document = writeType b value.kind name value.document := by
  -- An object says its type itself, and other values are strings or integers.
  cases value <;> simp only [Value.document, Json.ofText, write] <;> rfl

/-- Writing the integers of a list lays out their bytes in order. -/
private theorem writeIntegers_items (b : DataBuffer) (elements : Members)
    (all : elements.AllOf .integer) (room : b.position + elements.itemBytes.length < wordBound) :
    ∃ after, writeIntegers b elements.length (elements.document.map Prod.snd) = .ok after ∧
      Wrote b elements.itemBytes after := by
  match elements with
  | .nil => exact ⟨b, rfl, Wrote.refl b⟩
  | .cons name value rest =>
    obtain ⟨kind, restKinds⟩ := all
    cases value with
    | integer value =>
      simp only [Members.itemBytes, Value.bytes, List.length_append] at room
      have first := b.encodeTdfInteger_wrote value (by omega)
      have moved := first.position
      obtain ⟨after, later, wroteRest⟩ := writeIntegers_items (b.encodeTdfInteger value) rest
        restKinds (by omega)
      exact ⟨after, later, first.trans wroteRest⟩
    | _ => exact absurd kind (by simp [Value.kind])

/-- A number below 2 ^ 32 is what `GetUint` gives. -/
theorem getUint_eq {value : Nat} (small : value < 2 ^ 32) :
    (Json.number value).getUint = .ok value := if_pos small

mutual

/-- Writing the document of a value lays out the bytes of the value. -/
theorem writeType_value (b : DataBuffer) (value : Value) (wellFormed : value.WellFormed)
    (room : b.position + value.bytes.length < wordBound) :
    ∃ after, writeType b value.kind none value.document = .ok after ∧
      Wrote b value.bytes after := by
  -- One case for each type: its members are looked up, and its parts are written in order.
  match value with
  | .integer value =>
    refine ⟨_, ?_, b.encodeTdfInteger_wrote value room⟩
    simp only [Value.kind, Value.document, writeType, writeName, Json.getUint64]
    rfl
  | .string text =>
    refine ⟨_, ?_, writeText_wrote text room⟩
    simp only [Value.kind, Value.document, Json.ofText_eq wellFormed.2, writeType, writeName,
      Json.getString, Json.cString_eq wellFormed.1]
    rfl
  | .blob data =>
    simp only [Value.bytes, List.length_append] at room
    have length := b.encodeTdfInteger_wrote data.length (by omega)
    have moved := length.position
    refine ⟨_, ?_, length.trans (implWrite_wrote (by omega))⟩
    have content : (Value.blob data).document.member (ascii "_Content") = .ok (.ofText data) := rfl
    simp only [Value.kind, writeType, writeName, content, Json.ok_bind,
      Json.ofText_eq wellFormed.2, Json.getString, Json.cString_eq wellFormed.1]
    rfl
  | .struct fields =>
    simp only [Value.bytes, List.length_append, List.length_singleton] at room
    obtain ⟨after, written, wrote⟩ := writeMembers_fields b fields wellFormed (by omega)
    have moved := wrote.position
    refine ⟨_, ?_, wrote.trans (writeU8_wrote 0 (by omega))⟩
    obtain ⟨smaller, content⟩ : ∃ smaller, (Value.struct fields).document.contentObject =
        .ok ⟨fields.document, smaller⟩ := Json.contentObject_eq rfl
    simp only [Value.kind, writeType, writeName, content, Json.ok_bind, written]
    rfl
  | .list items elements =>
    obtain ⟨listed, few, all, each⟩ := wellFormed
    obtain ⟨small, same⟩ := listed.toNat
    simp only [Value.bytes, List.length_append, List.length_cons, List.length_nil] at room
    have header := byte_trans (writeU8_wrote (UInt8.ofNat items.toNat) (show b.position + 1 < _ by omega))
      (UInt8.ofNat elements.length) (by simp only [List.length_append, List.length_singleton]; omega)
    have moved := header.position
    simp only [List.length_append, List.length_singleton] at moved
    obtain ⟨after, written, wrote⟩ := writeItems_items
      ((b.writeU8 (UInt8.ofNat items.toNat)).writeU8 (UInt8.ofNat elements.length)) items elements
      all each (by omega)
    refine ⟨after, ?_, header.trans wrote⟩
    obtain ⟨smaller, content⟩ : ∃ smaller, (Value.list items elements).document.contentArray =
        .ok ⟨elements.document.map Prod.snd, smaller⟩ := Json.contentArray_eq rfl
    have listType : (Value.list items elements).document.member (ascii "_ListType") =
        .ok (.number items.toNat) := rfl
    have stub : (Value.list items elements).document.member (ascii "_Stub") = .ok (.bool false) := rfl
    have count : (elements.document.map Prod.snd).length % 256 = elements.length := by
      rw [List.length_map, elements.document_length]
      omega
    simp only [Value.kind, writeType, writeName, content, listType, stub, Json.ok_bind,
      getUint_eq (show items.toNat < 2 ^ 32 by omega), Json.getBool, Bool.false_eq_true, if_false,
      count, same]
    exact written
  | .integerList elements =>
    obtain ⟨few, all, each⟩ := wellFormed
    simp only [Value.bytes, List.length_append, List.length_cons, List.length_nil] at room
    have header := writeU8_wrote (UInt8.ofNat elements.length) (show b.position + 1 < _ by omega)
    have moved := header.position
    simp only [List.length_singleton] at moved
    obtain ⟨after, written, wrote⟩ := writeIntegers_items
      (b.writeU8 (UInt8.ofNat elements.length)) elements all (by omega)
    refine ⟨after, ?_, header.trans wrote⟩
    have content : (Value.integerList elements).document.member (ascii "_Content") =
        .ok (.array (elements.document.map Prod.snd)) := rfl
    have count : (elements.document.map Prod.snd).length % 256 = elements.length := by
      rw [List.length_map, elements.document_length]
      omega
    simp only [Value.kind, writeType, writeName, content, Json.ok_bind, Json.getArray, count]
    exact written
  | .map keys values entries =>
    obtain ⟨named, keyed, listed, few, all, each⟩ := wellFormed
    obtain ⟨valueSmall, valueSame⟩ := listed.toNat
    obtain ⟨keySmall, keySame⟩ : keys.toNat < 12 ∧ Kind.ofNat keys.toNat = keys := by
      rcases keyed with rfl | rfl <;> exact ⟨by decide, rfl⟩
    simp only [Value.bytes, List.length_append, List.length_cons, List.length_nil] at room
    have header := byte_trans (byte_trans
      (writeU8_wrote (UInt8.ofNat keys.toNat) (show b.position + 1 < _ by omega))
      (UInt8.ofNat values.toNat) (by simp only [List.length_append, List.length_singleton]; omega))
      (UInt8.ofNat entries.length) (by simp only [List.length_append, List.length_singleton]; omega)
    have moved := header.position
    simp only [List.length_append, List.length_singleton] at moved
    obtain ⟨after, written, wrote⟩ := writeEntries_entries
      (((b.writeU8 (UInt8.ofNat keys.toNat)).writeU8 (UInt8.ofNat values.toNat)).writeU8
        (UInt8.ofNat entries.length)) keys values entries named all each (by omega)
    refine ⟨after, ?_, header.trans wrote⟩
    obtain ⟨smaller, content⟩ : ∃ smaller, (Value.map keys values entries).document.contentObject =
        .ok ⟨entries.document, smaller⟩ := Json.contentObject_eq rfl
    have keyType : (Value.map keys values entries).document.member (ascii "_KeyType") =
        .ok (.number keys.toNat) := rfl
    have valueType : (Value.map keys values entries).document.member (ascii "_ValueType") =
        .ok (.number values.toNat) := rfl
    have count : entries.document.length % 256 = entries.length := by
      rw [entries.document_length]
      omega
    simp only [Value.kind, writeType, writeName, content, keyType, valueType, Json.ok_bind,
      getUint_eq (show keys.toNat < 2 ^ 32 by omega),
      getUint_eq (show values.toNat < 2 ^ 32 by omega), count, keySame, valueSame]
    exact written
  | .union addressMember content =>
    obtain ⟨byte, single, fields⟩ := wellFormed
    simp only [Value.bytes, List.length_append, List.length_singleton] at room
    have header := writeU8_wrote (UInt8.ofNat addressMember) (show b.position + 1 < _ by omega)
    have moved := header.position
    simp only [List.length_singleton] at moved
    obtain ⟨after, written, wrote⟩ := writeMembers_fields
      (b.writeU8 (UInt8.ofNat addressMember)) content fields (by omega)
    refine ⟨after, ?_, header.trans wrote⟩
    obtain ⟨smaller, held⟩ : ∃ smaller, (Value.union addressMember content).document.contentObject =
        .ok ⟨content.document, smaller⟩ := Json.contentObject_eq rfl
    have tag : (Value.union addressMember content).document.member (ascii "_AddressMember") =
        .ok (.number addressMember) := rfl
    simp only [Value.kind, writeType, writeName, tag, Json.ok_bind,
      getUint_eq (show addressMember < 2 ^ 32 by omega), held]
    by_cases unset : addressMember = addressUnset
    · -- An unset union has no content, and the writer does not look for any.
      rw [if_pos unset] at single
      rw [content.eq_nil single, Members.document, writeMembers] at written
      rw [if_neg (not_not.mpr unset)]
      exact written
    · rw [if_pos unset]
      exact written
  | .objectType x y =>
    have first := b.encodeTdfInteger_wrote x (by
      simp only [Value.bytes, List.length_append] at room; omega)
    refine ⟨_, ?_, encode_trans first y room⟩
    have getX : (Value.objectType x y).document.member (ascii "_X") = .ok (.number x) := rfl
    have getY : (Value.objectType x y).document.member (ascii "_Y") = .ok (.number y) := rfl
    simp only [Value.kind, writeType, writeName, getX, getY, Json.ok_bind, Json.getUint64]
    rfl
  | .objectId x y z =>
    simp only [Value.bytes, List.length_append] at room
    have first := b.encodeTdfInteger_wrote x (by omega)
    have second := encode_trans first y (by simp only [List.length_append]; omega)
    refine ⟨_, ?_, encode_trans second z (by simp only [List.length_append]; omega)⟩
    have getX : (Value.objectId x y z).document.member (ascii "_X") = .ok (.number x) := rfl
    have getY : (Value.objectId x y z).document.member (ascii "_Y") = .ok (.number y) := rfl
    have getZ : (Value.objectId x y z).document.member (ascii "_Z") = .ok (.number z) := rfl
    simp only [Value.kind, writeType, writeName, getX, getY, getZ, Json.ok_bind, Json.getUint64]
    rfl

/-- Writing the documents of fields lays out each with its header. -/
theorem writeMembers_fields (b : DataBuffer) (fields : Members) (wellFormed : fields.Fields)
    (room : b.position + fields.fieldBytes.length < wordBound) :
    ∃ after, writeMembers b fields.document = .ok after ∧ Wrote b fields.fieldBytes after := by
  match fields with
  | .nil => exact ⟨b, by rw [Members.document, writeMembers], Wrote.refl b⟩
  | .cons name value rest =>
    obtain ⟨label, -, valueFormed, restFormed⟩ := wellFormed
    simp only [Members.fieldBytes, List.length_append, headerBytes_length] at room
    have header := writeHeader_wrote name value.kind (show b.position + 4 < _ by omega)
    have afterHeader := header.position
    simp only [headerBytes_length] at afterHeader
    -- The header, the value, and the other fields are written where the one before left off.
    obtain ⟨between, first, wroteValue⟩ := writeType_value (writeHeader b name value.kind) value
      valueFormed (by omega)
    have afterValue := wroteValue.position
    obtain ⟨after, later, wroteRest⟩ := writeMembers_fields between rest restFormed (by omega)
    refine ⟨after, ?_, (header.trans wroteValue).trans wroteRest⟩
    rw [Members.document, writeMembers, write_value, writeType_name, Json.cString_eq label.plain, first]
    exact later

/-- Writing the documents of list elements lays out each without a header. -/
theorem writeItems_items (b : DataBuffer) (items : Kind) (elements : Members)
    (all : elements.AllOf items) (each : elements.AllWellFormed)
    (room : b.position + elements.itemBytes.length < wordBound) :
    ∃ after, writeItems b items elements.length (elements.document.map Prod.snd) = .ok after ∧
      Wrote b elements.itemBytes after := by
  match elements with
  | .nil => exact ⟨b, by rw [Members.length, writeItems], Wrote.refl b⟩
  | .cons name value rest =>
    obtain ⟨kind, restKinds⟩ := all
    obtain ⟨valueFormed, restFormed⟩ := each
    simp only [Members.itemBytes, List.length_append] at room
    obtain ⟨between, first, wroteValue⟩ := writeType_value b value valueFormed (by omega)
    have afterValue := wroteValue.position
    obtain ⟨after, later, wroteRest⟩ := writeItems_items between items rest restKinds restFormed
      (by omega)
    refine ⟨after, ?_, wroteValue.trans wroteRest⟩
    rw [Members.length, Members.document, List.map_cons, writeItems, ← kind, first]
    rw [kind]
    exact later

/-- Writing the entries of a map lays out each key and value without headers. -/
theorem writeEntries_entries (b : DataBuffer) (keys values : Kind) (entries : Members)
    (named : ∀ name ∈ entries.names, Key keys name) (all : entries.AllOf values)
    (each : entries.AllWellFormed)
    (room : b.position + (entries.entryBytes keys).length < wordBound) :
    ∃ after, writeEntries b keys values entries.document = .ok after ∧
      Wrote b (entries.entryBytes keys) after := by
  match entries with
  | .nil => exact ⟨b, by rw [Members.document, writeEntries], Wrote.refl b⟩
  | .cons name value rest =>
    obtain ⟨kind, restKinds⟩ := all
    obtain ⟨valueFormed, restFormed⟩ := each
    simp only [Members.entryBytes, List.length_append] at room
    obtain ⟨keyed, key, wroteKey⟩ := writeType_key (b := b) (named name List.mem_cons_self) (by omega)
    have afterKey := wroteKey.position
    obtain ⟨between, first, wroteValue⟩ := writeType_value keyed value valueFormed (by omega)
    have afterValue := wroteValue.position
    obtain ⟨after, later, wroteRest⟩ := writeEntries_entries between keys values rest
      (fun other member => named other (List.mem_cons_of_mem _ member)) restKinds restFormed
      (by omega)
    refine ⟨after, ?_, (wroteKey.trans wroteValue).trans wroteRest⟩
    rw [Members.document, writeEntries, key, Json.ok_bind, ← kind, first]
    rw [kind]
    exact later

end

end Packet

end Recap.Blaze
