import Recap.Blaze.PacketBytes

/-! The parser makes of the bytes of a tree the document that the tree stands for. -/

namespace Recap.Blaze

/-- The bytes at the position of a reader, all of them content. -/
structure Holds (r : Reader) (bytes : Bytes) : Prop where
  found : ∃ tail, r.rest = bytes ++ tail
  inside : r.buffer.position + bytes.length ≤ r.buffer.size
  bounded : r.buffer.position + bytes.length < maxCapacity

namespace Holds

/-- What is held ends short of where positions wrap. -/
theorem noWrap {r : Reader} {bytes : Bytes} (holds : Holds r bytes) :
    r.buffer.position + bytes.length + 1 < wordBound := by
  have bounded := holds.bounded
  have far : maxCapacity + 1 < wordBound := by decide
  omega

/-- The first part of what a reader holds. -/
theorem left {r : Reader} {first second : Bytes} (holds : Holds r (first ++ second)) : Holds r first where
  found := by
    obtain ⟨tail, found⟩ := holds.found
    exact ⟨second ++ tail, by rw [found, List.append_assoc]⟩
  inside := by
    have := holds.inside
    simp only [List.length_append] at this
    omega
  bounded := by
    have := holds.bounded
    simp only [List.length_append] at this
    omega

/-- The second part of what a reader holds, once the reader is past the first. -/
theorem right {r : Reader} (first : Bytes) {second : Bytes} (holds : Holds r (first ++ second)) :
    Holds (r.advance first.length) second where
  found := by
    obtain ⟨tail, found⟩ := holds.found
    exact ⟨tail, by rw [Reader.advance_rest, found, List.append_assoc, List.drop_left]⟩
  inside := by
    have := holds.inside
    simp only [List.length_append] at this
    simp only [Reader.advance_position, Reader.advance_size]
    omega
  bounded := by
    have := holds.bounded
    simp only [List.length_append] at this
    simp only [Reader.advance_position]
    omega

/-- A reader that holds some bytes has not reached the end. -/
theorem rest_ne_nil {r : Reader} {bytes : Bytes} (holds : Holds r bytes) (some_bytes : bytes ≠ []) :
    r.rest ≠ [] := by
  obtain ⟨tail, found⟩ := holds.found
  rw [found]
  exact List.append_ne_nil_of_left_ne_nil some_bytes tail

/-- What a reader holds depends on its buffer alone. -/
theorem congr {r other : Reader} {bytes : Bytes} (holds : Holds r bytes)
    (same : other.buffer = r.buffer) : Holds other bytes where
  found := by
    rw [Reader.rest, same]
    exact holds.found
  inside := by
    rw [same]
    exact holds.inside
  bounded := by
    rw [same]
    exact holds.bounded

end Holds

namespace Parser

/--
A part of the parser reads some bytes and makes a value of them.

It ends right behind the bytes.
Only where nothing follows may it have used up an uninitialised value, by peeking at what follows.
-/
def Reads {α : Type} (part : Parse α) (r : Reader) (bytes : Bytes) (value : α) : Prop :=
  ∃ after, part r = .done (value, after) ∧ after.buffer = (r.advance bytes.length).buffer ∧
    ((r.advance bytes.length).rest ≠ [] → after = r.advance bytes.length)

/-- A part that ends exactly behind its bytes reads them. -/
theorem Reads.of_done {α : Type} {part : Parse α} {r : Reader} {bytes : Bytes} {value : α}
    (returned : part r = .done (value, r.advance bytes.length)) : Reads part r bytes value :=
  ⟨_, returned, rfl, fun _ => rfl⟩

/-- Where more bytes follow, a part ends exactly behind its own. -/
theorem Reads.done {α : Type} {part : Parse α} {r : Reader} {bytes more : Bytes} {value : α}
    (reads : Reads part r bytes value) (holds : Holds r (bytes ++ more)) (some_more : more ≠ []) :
    part r = .done (value, r.advance bytes.length) := by
  obtain ⟨after, returned, -, exact_end⟩ := reads
  rw [returned, exact_end ((holds.right bytes).rest_ne_nil some_more)]

/-- What is done with a value afterwards reads no more bytes. -/
theorem Reads.map {α β : Type} {part : Parse α} {r : Reader} {bytes : Bytes} {value : α}
    (reads : Reads part r bytes value) (change : α → β) :
    Reads (do return change (← part)) r bytes (change value) := by
  obtain ⟨after, returned, same, exact_end⟩ := reads
  exact ⟨after, Program.bind_done returned, same, exact_end⟩

/-- Parts in sequence read their bytes in sequence. -/
theorem Reads.bind {α β : Type} {part : Parse α} {next : α → Parse β} {r : Reader}
    (first : Bytes) {second : Bytes} {value : α} {result : β}
    (returned : part r = .done (value, r.advance first.length))
    (reads : Reads (next value) (r.advance first.length) second result) :
    Reads (part >>= next) r (first ++ second) result := by
  obtain ⟨after, ended, same, exact_end⟩ := reads
  refine ⟨after, by rw [Program.bind_done returned, ended], ?_, ?_⟩
  · rw [same, Reader.advance_advance, List.length_append]
  · rw [List.length_append, ← Reader.advance_advance]
    exact exact_end

/-! ## The parts of the parser that do not nest -/

/-- Reading a byte. -/
theorem readU8_eq {r : Reader} {byte : UInt8} {more : Bytes} (holds : Holds r (byte :: more)) :
    readU8 r = .done (byte.toNat, r.advance 1) := by
  obtain ⟨tail, found⟩ := holds.found
  have bounded := holds.noWrap
  simp only [List.length_cons] at bounded
  have taken : r.read 1 = (byte.toNat, r.advance 1) := Reader.read_byte found (by omega)
  rw [readU8, Program.act_apply, taken]

/-- Peeking at a byte. -/
theorem peekU8_eq {r : Reader} {byte : UInt8} {more : Bytes} (holds : Holds r (byte :: more)) :
    peekU8 r = .done (byte.toNat, r) := by
  obtain ⟨tail, found⟩ := holds.found
  have bounded := holds.noWrap
  simp only [List.length_cons] at bounded
  have taken : r.peek 1 = (byte.toNat, r) := Reader.peek_byte found (by omega)
  rw [peekU8, Program.act_apply, taken]

/-- A peek never moves, and at a byte it uses up nothing. -/
theorem peekU8_ahead (r : Reader) (bounded : r.buffer.position < maxCapacity) :
    ∃ after, peekU8 r = .done ((r.peek 1).1, after) ∧ after.buffer = r.buffer ∧
      (r.rest ≠ [] → after = r) := by
  refine ⟨(r.peek 1).2, rfl, ?_, fun more => ?_⟩
  · -- Both ways to end, the buffer is the one it was called with.
    unfold Reader.peek
    split <;> rfl
  · obtain ⟨byte, tail, found⟩ := List.exists_cons_of_ne_nil more
    have far : maxCapacity + 1 < wordBound := by decide
    rw [Reader.peek_byte found (by omega)]

/-- Skipping a byte. -/
theorem skipU8_eq {r : Reader} (bounded : r.buffer.position + 1 < wordBound) :
    skipU8 r = .done ((), r.advance 1) := by
  have short : 1 * 1 % wordBound = 1 := rfl
  simp only [skipU8, Program.act_apply, DataBuffer.skip, short, Nat.mod_eq_of_lt bounded]
  rfl

/-- Reading an integer. -/
theorem readU64_eq {r : Reader} {value : Nat} (small : value < 2 ^ 55)
    (holds : Holds r (tdfBytes value)) :
    readU64 r = .done (value, r.advance (tdfBytes value).length) := by
  obtain ⟨tail, found⟩ := holds.found
  have bounded := holds.noWrap
  rw [readU64, Program.act_apply, Reader.decodeTdfInteger_eq small found (by omega)]

/-- Reading a header, whatever its label unpacks to. -/
theorem readHeader_unpacks {r : Reader} {name : Bytes} {kind : Kind} (kindSmall : kind.toNat < 256)
    (kindSame : Kind.ofNat kind.toNat = kind) (holds : Holds r (headerBytes name kind)) :
    readHeader r = .done (⟨decompressLabel (compressLabel name), kind⟩, r.advance 4) := by
  obtain ⟨tail, found⟩ := holds.found
  have bounded := holds.noWrap
  have small := compressLabel_lt name
  have taken : r.read 4 = (Reader.littleEndian (headerBytes name kind), r.advance 4) :=
    Reader.read_of_rest found rfl (by simp [headerBytes]) (by
      simp only [headerBytes_length] at bounded ⊢
      omega)
  -- The four bytes put together are the label below and the type above.
  have word : Reader.littleEndian (headerBytes name kind) =
      compressLabel name + 16777216 * kind.toNat := by
    simp only [headerBytes, Reader.littleEndian]
    rw [UInt8.toNat_ofNat_of_lt' (show compressLabel name % 256 < 256 by omega),
      UInt8.toNat_ofNat_of_lt' (show compressLabel name / 256 % 256 < 256 by omega),
      UInt8.toNat_ofNat_of_lt' (show compressLabel name / 65536 % 256 < 256 by omega),
      UInt8.toNat_ofNat_of_lt' (show kind.toNat < 256 by omega)]
    omega
  have low : (compressLabel name + 16777216 * kind.toNat) &&& 0x00FFFFFF = compressLabel name := by
    refine (Nat.and_two_pow_sub_one_eq_mod _ 24).trans ?_
    omega
  have high : (compressLabel name + 16777216 * kind.toNat) >>> 24 = kind.toNat := by
    rw [Nat.shiftRight_eq_div_pow]
    omega
  rw [readHeader, Program.act_bind, taken]
  simp only [word, low, high, kindSame]
  rfl

/-- Reading a header. -/
theorem readHeader_eq {r : Reader} {name : Bytes} (label : Label name) (value : Value)
    (holds : Holds r (headerBytes name value.kind)) :
    readHeader r = .done (⟨name, value.kind⟩, r.advance 4) := by
  obtain ⟨kindSmall, kindSame⟩ := value.kind_toNat
  rw [readHeader_unpacks (by omega) kindSame holds, decompressLabel_label label]

/-- Reading characters. -/
theorem readChars_eq {env : Env} {r : Reader} {text : Bytes} (fits : text.length ≤ env.maxSize)
    (some_text : text ≠ []) (holds : Holds r text) :
    readChars env text.length r = .done (text, r.advance text.length) := by
  obtain ⟨tail, found⟩ := holds.found
  have bounded := holds.noWrap
  have copied := Reader.implRead_of_rest found (Nat.one_mul _) some_text (by omega)
  rw [readChars, if_neg (Nat.not_lt.mpr fits), Program.act_apply, copied]
  rfl

/-- Reading characters, or nothing where there are none. -/
theorem readSized_eq {env : Env} {r : Reader} {text : Bytes} (fits : text.length ≤ env.maxSize)
    (holds : Holds r text) :
    readSized env text.length r = .done (text, r.advance text.length) := by
  unfold readSized
  by_cases empty : text = []
  · rw [empty]
    rfl
  · rw [if_pos (List.length_pos_iff.mpr empty), readChars_eq fits empty holds]

/-- Reading a text. -/
theorem readText_eq {env : Env} {r : Reader} {text : Bytes} (plain : Plain text)
    (fits : text.length ≤ env.maxSize) (holds : Holds r (textBytes text)) :
    readText env r = .done (text, r.advance (textBytes text).length) := by
  have short : text.length < 2 ^ 32 := plain.2
  have length := readU64_eq (show text.length + 1 < 2 ^ 55 by omega) holds.left.left
  -- The length comes with the NUL counted in.
  have counted : (text.length + 1 + (2 ^ 64 - 1)) % 2 ^ 64 = text.length := by omega
  have characters := readSized_eq fits (holds.left.right _)
  have bounded := holds.noWrap
  simp only [textBytes, List.length_append, List.length_singleton] at bounded
  have ended := skipU8_eq (r := (r.advance (tdfBytes (text.length + 1)).length).advance text.length)
    (by simp only [Reader.advance_position]; omega)
  rw [readText, Program.bind_done length]
  simp only [wordBound, counted]
  rw [Program.bind_done characters, Program.bind_done ended]
  simp only [textBytes, Reader.advance_advance, List.length_append, List.length_singleton]
  rfl

/-- Reading a string value. -/
theorem readString_eq {env : Env} {r : Reader} {text : Bytes} (plain : Plain text)
    (fits : text.length ≤ env.maxSize) (holds : Holds r (textBytes text)) :
    readString env r = .done (.string text, r.advance (textBytes text).length) := by
  rw [readString, Program.bind_done (readText_eq plain fits holds), Json.ofText_eq plain.2]
  rfl

/-- Reading an integer value. -/
theorem readInteger_eq {r : Reader} {value : Nat} (small : value < 2 ^ 55)
    (holds : Holds r (tdfBytes value)) :
    readInteger r = .done (.number value, r.advance (tdfBytes value).length) := by
  rw [readInteger, Program.bind_done (readU64_eq small holds)]
  rfl

end Parser
end Recap.Blaze
