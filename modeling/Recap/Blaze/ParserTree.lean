import Recap.Blaze.PacketCalls
import Recap.Blaze.ParserBytes
import Recap.Core.DataBufferReuse

/-! Parsing what a packet was written as gives back the tree that the packet was built from. -/

namespace Recap.Blaze

/-- A value takes at least one byte. -/
theorem Value.bytes_ne_nil {value : Value} (wellFormed : value.WellFormed) : value.bytes ≠ [] := by
  cases value with
  | integer value => exact tdfBytes_ne_nil value
  | string text => simp [Value.bytes, textBytes]
  | blob data => simp [Value.bytes, tdfBytes_ne_nil]
  | objectType x y => simp [Value.bytes, tdfBytes_ne_nil]
  | objectId x y z => simp [Value.bytes, tdfBytes_ne_nil]
  | _ => simp [Value.bytes]

/-- A header with a label starts with a byte whose top bit is set. -/
theorem headerBytes_head {name : Bytes} (label : Label name) (kind : Kind) :
    ∃ first rest, headerBytes name kind = first :: rest ∧ 128 ≤ first.toNat := by
  have nonempty : name ≠ [] := List.length_pos_iff.mp label.1
  refine ⟨_, _, rfl, ?_⟩
  rw [UInt8.toNat_ofNat_of_lt' (show compressLabel name % 256 < 256 by omega)]
  exact compressLabel_first nonempty

namespace Parser

/-- The byte that follows some bytes is not the one that marks a stub list. -/
def NotStub (r : Reader) : Prop := (r.peek 1).1 ≠ 0x02

/-- A byte other than the mark is not the mark. -/
theorem NotStub.of_holds {r : Reader} {byte : UInt8} {more : Bytes} (holds : Holds r (byte :: more))
    (other : byte.toNat ≠ 2) : NotStub r := by
  obtain ⟨tail, found⟩ := holds.found
  have bounded := holds.noWrap
  simp only [List.length_cons] at bounded
  rw [NotStub, Reader.peek_byte found (by omega)]
  exact other

/-- A value under a new name is added behind the members that there are. -/
theorem addObject_fresh {header : Header} {value : Json} {held : List (Bytes × Json)}
    (fresh : header.label ∉ held.map Prod.fst) :
    addObject header value (.object held) = .object (held ++ [(header.label, value)]) := by
  rw [addObject, Json.find_none fresh]

/-- What a parent is once fields have been added to it. -/
def addFields (parent : Json) : Members → Json
  | .nil => parent
  | .cons name value rest => addFields (addObject ⟨name, value.kind⟩ value.parsed parent) rest

/-- Fields are added to an object behind the members that there are. -/
theorem addFields_object {fields : Members} (wellFormed : fields.Fields) {held : List (Bytes × Json)}
    (fresh : ∀ name ∈ fields.names, name ∉ held.map Prod.fst) :
    addFields (.object held) fields = .object (held ++ fields.parsed) := by
  match fields with
  | .nil => rw [addFields, Members.parsed, List.append_nil]
  | .cons name value rest =>
    obtain ⟨-, unlike, -, restFormed⟩ := wellFormed
    have new : name ∉ held.map Prod.fst := fresh name List.mem_cons_self
    have others : ∀ other ∈ rest.names, other ∉ (held ++ [(name, value.parsed)]).map Prod.fst := by
      intro other member
      rw [List.map_append, List.mem_append, not_or]
      refine ⟨fresh other (List.mem_cons_of_mem _ member), fun same => unlike ?_⟩
      rw [List.map_singleton, List.mem_singleton] at same
      exact (show other = name from same) ▸ member
    rw [addFields, addObject_fresh new, addFields_object restFormed others, Members.parsed,
      List.append_assoc, List.singleton_append]

/-- Fields are added to an array as the values that they have. -/
theorem addFields_array (fields : Members) (held : List Json) :
    addFields (.array held) fields = .array (held ++ fields.parsed.map Prod.snd) := by
  cases fields with
  | nil => rw [addFields, Members.parsed, List.map_nil, List.append_nil]
  | cons name value rest =>
    rw [addFields, addObject, addFields_array rest, Members.parsed, List.map_cons, List.append_assoc,
      List.singleton_append]

variable {env : Env}

/-- A field is read as its header and then its value, which goes to the parent under its label. -/
theorem readValue_field {fuel : Nat} {name bytes : Bytes} {value : Value} {found : Json}
    {typed : Parse Json} {r : Reader} (parent : Json) (label : Label name)
    (reader : readTyped env (readValue env fuel) fuel value.kind = some typed)
    (some_bytes : bytes ≠ []) (holds : Holds r (headerBytes name value.kind ++ bytes))
    (reads : Reads typed (r.advance 4) bytes found) :
    Reads (readValue env (fuel + 1) parent) r (headerBytes name value.kind ++ bytes)
      (addObject ⟨name, value.kind⟩ found parent) := by
  have header := readHeader_eq label value holds.left
  -- A value takes at least one byte, so the header never ends at the end of the content.
  have more : (r.advance 4).buffer.eof = false := by
    have inside := holds.inside
    have positive := List.length_pos_iff.mpr some_bytes
    simp only [List.length_append, headerBytes_length] at inside
    have before : ¬ r.buffer.size ≤ r.buffer.position + 4 := by omega
    exact decide_eq_false before
  refine Reads.bind (headerBytes name value.kind) header ?_
  have valued := reads.map fun json => addObject ⟨name, value.kind⟩ json parent
  obtain ⟨after, returned, same, exact_end⟩ := valued
  refine ⟨after, ?_, same, exact_end⟩
  rw [eof, Program.act_bind]
  simp only [headerBytes_length, more, Bool.false_eq_true, if_false, reader]
  exact returned

/-- A run of one round is its body. -/
theorem Reads.repeated_last {α : Type} {body : α → Parse α} {r : Reader} {bytes : Bytes}
    {before after : α} (reads : Reads (body before) r bytes after) :
    Reads (Program.repeated body 1 before) r bytes after :=
  reads.map id

/-- A run of several rounds reads what the first reads and then what the others read. -/
theorem Reads.repeated_more {α : Type} {body : α → Parse α} {count : Nat} {r : Reader}
    {first second : Bytes} {before between after : α} (reads : Reads (body before) r first between)
    (holds : Holds r (first ++ second)) (some_bytes : second ≠ [])
    (others : Reads (Program.repeated body count between) (r.advance first.length) second after) :
    Reads (Program.repeated body (count + 1) before) r (first ++ second) after :=
  Reads.bind first (reads.done holds some_bytes) others

/-- What a loop over fields is left with once it has read some of them. -/
def LoopReads (env : Env) (test : Parse Bool) (body : Json → Parse Json) (limit : Nat) (r : Reader)
    (bytes : Bytes) (before after : Json) : Prop :=
  ∃ left last, last.buffer = (r.advance bytes.length).buffer ∧
    ((r.advance bytes.length).rest ≠ [] → last = r.advance bytes.length) ∧
    Program.loop (starving env) test body limit before r =
      Program.loop (starving env) test body (left + 1) after last

/-- A loop test that passes at every header. -/
def PassesHeaders (test : Parse Bool) : Prop :=
  ∀ (r : Reader) (name : Bytes) (kind : Kind) (more : Bytes), Label name →
    Holds r (headerBytes name kind ++ more) → test r = .done (true, r)

/-- The test of a struct passes at headers, whose first byte is not zero. -/
theorem moreFields_passes : PassesHeaders moreFields := by
  intro r name kind more label holds
  obtain ⟨first, rest, bytes, high⟩ := headerBytes_head label kind
  rw [bytes] at holds
  rw [moreFields, Program.bind_done (peekU8_eq holds)]
  have other : first.toNat ≠ 0 := by omega
  simp [other]

/-- The test of the whole content passes at headers, which take some of it. -/
theorem moreContent_passes : PassesHeaders moreContent := by
  intro r name kind more _ holds
  have inside := holds.inside
  simp only [List.length_append, headerBytes_length] at inside
  have before : ¬ r.buffer.size ≤ r.buffer.position := by omega
  have more : r.buffer.eof = false := decide_eq_false before
  rw [moreContent_eq, more]
  rfl

/-- What a loop reads in its first round and in the others is what it reads. -/
theorem LoopReads.round {test : Parse Bool} {body : Json → Parse Json} {limit : Nat} {r : Reader}
    {first second : Bytes} {before between after : Json} (source : env.strict = false)
    (passed : test r = .done (true, r))
    (ran : body before r = .done (between, r.advance first.length))
    (others : LoopReads env test body limit (r.advance first.length) second between after) :
    LoopReads env test body (limit + 1) r (first ++ second) before after := by
  obtain ⟨left, last, same, exact_end, looped⟩ := others
  have free : starving env r = false := by rw [starving, source, Bool.false_and]
  refine ⟨left, last, ?_, ?_, ?_⟩
  · rw [same, Reader.advance_advance, List.length_append]
  · rw [List.length_append, ← Reader.advance_advance]
    exact exact_end
  · rw [Program.loop_round limit passed free ran, looped]

/-- A loop that reads a single field is left with whatever follows it. -/
theorem LoopReads.last {test : Parse Bool} {body : Json → Parse Json} {limit : Nat} {r : Reader}
    {bytes : Bytes} {before after : Json} (source : env.strict = false) (room : 0 < limit)
    (passed : test r = .done (true, r)) (reads : Reads (body before) r bytes after) :
    LoopReads env test body (limit + 1) r bytes before after := by
  obtain ⟨last, returned, same, exact_end⟩ := reads
  have free : starving env r = false := by rw [starving, source, Bool.false_and]
  refine ⟨limit - 1, last, same, exact_end, ?_⟩
  rw [Program.loop_round limit passed free returned, Nat.sub_add_cancel room]

/-- What a list or a map holds is read as it is read under a header. -/
theorem readItem_typed (rv : Json → Parse Json) (fuel : Nat) {kind : Kind} (listed : Listed kind) :
    readItem env rv fuel kind = readTyped env rv fuel kind := by
  rcases listed with rfl | rfl | rfl <;> rfl

/-- What a list or a map holds does not end in an empty list of structs. -/
theorem not_open {value : Value} (listed : Listed value.kind) : ¬ value.Open := by
  cases value with
  | list | union => rcases listed with wrong | wrong | wrong <;> simp [Value.kind] at wrong
  | _ => exact fun impossible => impossible

/-- The bytes of a struct start with a header or with the zero byte. -/
theorem struct_head {value : Value} (struct : value.kind = .struct) (wellFormed : value.WellFormed) :
    ∃ first rest, value.bytes = first :: rest ∧ first.toNat ≠ 2 := by
  cases value with
  | struct fields =>
    cases fields with
    | nil => exact ⟨0, [], rfl, by decide⟩
    | cons name value rest =>
      obtain ⟨first, more, bytes, high⟩ := headerBytes_head wellFormed.1 value.kind
      refine ⟨first, more ++ value.bytes ++ rest.fieldBytes ++ [0], ?_, by omega⟩
      rw [Value.bytes, Members.fieldBytes, bytes]
      simp only [List.cons_append]
  | _ => exact absurd struct (by simp [Value.kind])

/-- Every name of a field is too short to be one that the parser itself adds. -/
theorem fields_fresh {fields : Members} (wellFormed : fields.Fields) {name : Bytes}
    (long : 4 < name.length) : name ∉ fields.names := by
  match fields with
  | .nil => simp [Members.names]
  | .cons first value rest =>
    obtain ⟨label, -, -, others⟩ := wellFormed
    intro member
    rcases List.mem_cons.mp member with rfl | later
    · exact absurd label.2.1 (by omega)
    · exact fields_fresh others long later

/-- A key is read as the name it stands for, and its value is added under that name. -/
theorem readEntry_eq {fuel : Nat} {keys values : Kind} {name : Bytes} {value : Value}
    {typed : Parse Json} {r : Reader} (key : Key keys name) (roomy : 2 ^ 32 ≤ env.maxSize)
    (holds : Holds r (keyBytes keys name ++ value.bytes))
    (reader : readItem env (readValue env fuel) fuel values = some typed)
    (reads : Reads typed (r.advance (keyBytes keys name).length) value.bytes value.parsed)
    (held : List (Bytes × Json)) :
    Reads (readEntry env (readValue env fuel) fuel keys values (.object held)) r
      (keyBytes keys name ++ value.bytes) (.object (held ++ [(name, value.parsed)])) := by
  rcases key with ⟨rfl, plain⟩ | ⟨rfl, number, small, rfl⟩
  · have fits : name.length ≤ env.maxSize := Nat.le_trans (Nat.le_of_lt plain.2) roomy
    have read : readString env r = .done (.string name, r.advance (keyBytes .string name).length) :=
      readString_eq plain fits holds.left
    unfold readEntry
    rw [reader, readItem, Option.getD_some, Option.getD_some]
    refine Reads.bind _ read ?_
    exact reads.map fun json => (Json.object held).addMember name json
  · -- An integer key is turned into its decimal digits, which are what it was written from.
    have spelled : keyBytes .integer (toDecimal number) = tdfBytes number := by
      rw [keyBytes, digitsValue_toDecimal]
    rw [spelled] at holds reads ⊢
    have read := readInteger_eq small holds.left
    unfold readEntry
    rw [reader, readItem, Option.getD_some, Option.getD_some]
    refine Reads.bind _ read ?_
    exact reads.map fun json => (Json.object held).addMember (toDecimal number) json

mutual

/-- The reader of a value's type reads the bytes of the value, and makes of them what it stands for. -/
theorem readTyped_value (source : env.strict = false) (roomy : 2 ^ 32 ≤ env.maxSize) (fuel : Nat)
    (value : Value) (wellFormed : value.WellFormed) (enough : value.bytes.length ≤ fuel) (r : Reader)
    (holds : Holds r value.bytes) (ahead : value.Open → NotStub (r.advance value.bytes.length)) :
    ∃ typed, readTyped env (readValue env fuel) fuel value.kind = some typed ∧
      Reads typed r value.bytes value.parsed := by
  match value with
  | .integer value =>
    exact ⟨_, rfl, Reads.of_done (readInteger_eq wellFormed holds)⟩
  | .string text =>
    have fits : text.length ≤ env.maxSize := Nat.le_trans (Nat.le_of_lt wellFormed.2) roomy
    exact ⟨_, rfl, Reads.of_done (readString_eq wellFormed fits holds)⟩
  | .blob data =>
    have short : data.length < 2 ^ 32 := wellFormed.2
    have length := readU64_eq (show data.length < 2 ^ 55 by omega) holds.left
    have characters := readSized_eq (show data.length ≤ env.maxSize by omega) (holds.right _)
    refine ⟨_, rfl, Reads.bind _ length (Reads.of_done ?_)⟩
    rw [Program.bind_done characters, Json.ofText_eq short]
    rfl
  | .objectType x y =>
    obtain ⟨xSmall, ySmall⟩ := wellFormed
    have first := readInteger_eq (show x < 2 ^ 55 by omega) holds.left
    have second := readInteger_eq (show y < 2 ^ 55 by omega) (holds.right _)
    refine ⟨_, rfl, Reads.bind _ first (Reads.of_done ?_)⟩
    exact Program.bind_done second
  | .objectId x y z =>
    obtain ⟨xSmall, ySmall, zSmall⟩ := wellFormed
    rw [Value.bytes, List.append_assoc] at holds ⊢
    have first := readInteger_eq (show x < 2 ^ 55 by omega) holds.left
    have second := readInteger_eq (show y < 2 ^ 55 by omega) (holds.right _).left
    have third := readInteger_eq zSmall ((holds.right _).right _)
    refine ⟨_, rfl, Reads.bind _ first (Reads.bind _ second (Reads.of_done ?_))⟩
    exact Program.bind_done third
  | .struct fields =>
    refine ⟨_, rfl, ?_⟩
    -- The zero byte behind the fields ends the loop, and it is skipped.
    have terminator := holds.right fields.fieldBytes
    have bounded := terminator.noWrap
    simp only [Value.bytes, List.length_append, List.length_singleton] at enough
    have fresh : ∀ name ∈ fields.names,
        name ∉ [(ascii "_Type", Json.number Kind.struct.toNat)].map Prod.fst := by
      intro name member same
      rw [List.map_singleton, List.mem_singleton] at same
      exact fields_fresh wellFormed (by decide) (same ▸ member)
    obtain ⟨left, last, same, exact_end, looped⟩ := loop_members source roomy moreFields
      moreFields_passes fuel fields wellFormed (by omega) fuel (by omega) r holds.left
      (.object [(ascii "_Type", .number Kind.struct.toNat)])
      (fun _ => NotStub.of_holds terminator (by decide))
    rw [addFields_object wellFormed fresh] at looped
    rw [exact_end (terminator.rest_ne_nil (by simp))] at looped
    have ended : moreFields (r.advance fields.fieldBytes.length) =
        .done (false, r.advance fields.fieldBytes.length) :=
      Program.bind_done (peekU8_eq terminator)
    refine Reads.bind _ (looped.trans (Program.loop_exit left _ ended)) (Reads.of_done ?_)
    exact Program.bind_done (skipU8_eq (by omega))
  | .union addressMember content =>
    obtain ⟨byte, single, fields⟩ := wellFormed
    have tag := readU8_eq holds
    rw [UInt8.toNat_ofNat_of_lt' (show addressMember < 256 from byte)] at tag
    refine ⟨_, rfl, Reads.bind [UInt8.ofNat addressMember] tag ?_⟩
    by_cases unset : addressMember = addressUnset
    · -- An unset union has no content, and none is read.
      rw [if_pos unset] at single
      rw [content.eq_nil single, if_neg (not_not.mpr unset)]
      exact Reads.of_done rfl
    · rw [if_neg unset] at single
      rw [if_pos unset]
      match content, fields with
      | .nil, _ => exact absurd single (by simp [Members.length])
      | .cons name value rest, ⟨label, _, valueFormed, _⟩ =>
        have alone : rest = .nil := rest.eq_nil (Nat.succ.inj single)
        subst alone
        have inner := holds.right [UInt8.ofNat addressMember]
        simp only [Value.bytes, Members.fieldBytes, List.append_nil, List.length_append,
          List.length_singleton, headerBytes_length] at enough inner ahead ⊢
        obtain ⟨fuel, rfl⟩ : ∃ less, fuel = less + 1 := ⟨fuel - 1, by omega⟩
        obtain ⟨typed, reader, reads⟩ := readTyped_value source roomy fuel value valueFormed
          (by omega) ((r.advance 1).advance 4) (inner.right _) (fun opened => by
            have next := ahead opened
            rwa [← Reader.advance_advance, ← Reader.advance_advance] at next)
        have field := readValue_field (.object [(ascii "_Type", .number Kind.union.toNat),
          (ascii "_AddressMember", .number addressMember)]) label reader
          (value.bytes_ne_nil valueFormed) inner reads
        have fresh : name ∉ [ascii "_Type", ascii "_AddressMember"] := by
          intro member
          rcases List.mem_cons.mp member with rfl | member
          · exact absurd label.2.1 (by decide)
          · rw [List.mem_singleton] at member
            subst member
            exact absurd label.2.1 (by decide)
        rw [addObject_fresh fresh] at field
        exact field
  | .list items elements =>
    obtain ⟨listed, few, all, each⟩ := wellFormed
    obtain ⟨small, same_kind⟩ := listed.toNat
    simp only [Value.bytes, List.length_append, List.length_cons, List.length_nil] at enough
    have type := readU8_eq holds
    have size : readU8 (r.advance 1) = _ := readU8_eq (holds.right [UInt8.ofNat items.toNat])
    rw [UInt8.toNat_ofNat_of_lt' (show items.toNat < 256 by omega)] at type
    rw [UInt8.toNat_ofNat_of_lt' (show elements.length < 256 by omega)] at size
    have inner : Holds ((r.advance 1).advance 1) elements.itemBytes :=
      holds.right [UInt8.ofNat items.toNat, UInt8.ofNat elements.length]
    -- The byte ahead marks no stub: it starts a struct, or follows an empty list.
    have unmarked : items = .struct → NotStub ((r.advance 1).advance 1) := by
      rintro rfl
      match elements, all, each with
      | .nil, _, _ => exact ahead rfl
      | .cons name value rest, ⟨kind, _⟩, ⟨valueFormed, _⟩ =>
        obtain ⟨first, more, bytes, other⟩ := struct_head kind valueFormed
        rw [Members.itemBytes, bytes] at inner
        exact NotStub.of_holds inner other
    obtain ⟨peeked, looked, same, exact_end⟩ :=
      peekU8_ahead ((r.advance 1).advance 1) (by
        have := inner.bounded
        omega)
    have stub : decide ((((r.advance 1).advance 1).peek 1).1 = 0x02 ∧ items = .struct) = false :=
      decide_eq_false fun ⟨marked, struct⟩ => unmarked struct marked
    obtain ⟨item, reader⟩ : ∃ item, readItem env (readValue env fuel) fuel items = some item := by
      rcases listed with rfl | rfl | rfl <;> exact ⟨_, rfl⟩
    have content : Reads (readListContent env (readValue env fuel) fuel items elements.length false)
        peeked elements.itemBytes (.array (elements.parsed.map Prod.snd)) := by
      have items_read := repeated_items source roomy fuel items listed item reader elements all each
        (by omega) peeked (inner.congr same) []
      simpa only [readListContent, Bool.false_eq_true, if_false, reader, List.nil_append] using
        items_read
    obtain ⟨last, returned, ended, exact_last⟩ := content
    have whole : r.advance (Value.list items elements).bytes.length =
        ((r.advance 1).advance 1).advance elements.itemBytes.length := by
      simp only [Value.bytes, Reader.advance_advance, List.length_append, List.length_cons,
        List.length_nil]
    have moved : (peeked.advance elements.itemBytes.length).buffer =
        (((r.advance 1).advance 1).advance elements.itemBytes.length).buffer := by
      simp only [Reader.advance, same]
    refine ⟨_, rfl, last, ?_, by rw [ended, moved, whole], ?_⟩
    · rw [readList, Program.bind_done type, Program.bind_done size, Program.bind_done looked]
      simp only [same_kind, stub]
      rw [Program.bind_done returned]
      rfl
    · -- Where anything follows the list, something followed its header too.
      rw [whole]
      intro more
      have before : ((r.advance 1).advance 1).rest ≠ [] := by
        intro none_left
        rw [Reader.advance_rest, none_left, List.drop_nil] at more
        exact more rfl
      rw [exact_end before] at exact_last
      exact exact_last more
  | .integerList elements =>
    obtain ⟨few, all, each⟩ := wellFormed
    simp only [Value.bytes, List.length_append, List.length_cons, List.length_nil] at enough
    have size := readU8_eq holds
    rw [UInt8.toNat_ofNat_of_lt' (show elements.length < 256 by omega)] at size
    have inner : Holds (r.advance 1) elements.itemBytes :=
      holds.right [UInt8.ofNat elements.length]
    have integers := repeated_items source roomy fuel .integer (.inl rfl) readInteger rfl elements
      all each (by omega) (r.advance 1) inner []
    exact ⟨_, rfl, Reads.bind [UInt8.ofNat elements.length] size (integers.map _)⟩
  | .map keys values entries =>
    obtain ⟨named, keyed, listed, few, all, each⟩ := wellFormed
    obtain ⟨valueSmall, valueSame⟩ := listed.toNat
    obtain ⟨keySmall, keySame⟩ : keys.toNat < 12 ∧ Kind.ofNat keys.toNat = keys := by
      rcases keyed with rfl | rfl <;> exact ⟨by decide, rfl⟩
    simp only [Value.bytes, List.length_append, List.length_cons, List.length_nil] at enough
    have keyType := readU8_eq holds
    have valueType := readU8_eq (holds.right [UInt8.ofNat keys.toNat])
    have size := readU8_eq
      (holds.right [UInt8.ofNat keys.toNat, UInt8.ofNat values.toNat])
    rw [UInt8.toNat_ofNat_of_lt' (show keys.toNat < 256 by omega)] at keyType
    rw [UInt8.toNat_ofNat_of_lt' (show values.toNat < 256 by omega)] at valueType
    rw [UInt8.toNat_ofNat_of_lt' (show entries.length < 256 by omega)] at size
    have inner : Holds (((r.advance 1).advance 1).advance 1) (entries.entryBytes keys) :=
      holds.right [UInt8.ofNat keys.toNat, UInt8.ofNat values.toNat, UInt8.ofNat entries.length]
    have read := repeated_entries source roomy fuel keys values listed entries named all each
      (by omega) (((r.advance 1).advance 1).advance 1) inner []
    refine ⟨_, rfl, Reads.bind [UInt8.ofNat keys.toNat] keyType
      (Reads.bind [UInt8.ofNat values.toNat] valueType
        (Reads.bind [UInt8.ofNat entries.length] size ?_))⟩
    rw [keySame, valueSame]
    exact read.map _

/-- A loop over fields adds each of them to its parent, in order. -/
theorem loop_members (source : env.strict = false) (roomy : 2 ^ 32 ≤ env.maxSize)
    (test : Parse Bool) (passes : PassesHeaders test) (fuel : Nat) (fields : Members)
    (wellFormed : fields.Fields) (enough : fields.fieldBytes.length ≤ fuel) (limit : Nat)
    (within : fields.fieldBytes.length < limit) (r : Reader) (holds : Holds r fields.fieldBytes)
    (parent : Json) (ahead : fields.Open → NotStub (r.advance fields.fieldBytes.length)) :
    LoopReads env test (readValue env fuel) limit r fields.fieldBytes parent
      (addFields parent fields) := by
  match fields with
  | .nil =>
    exact ⟨limit - 1, r, rfl, fun _ => rfl, by
      rw [Nat.sub_add_cancel (Nat.pos_of_ne_zero (by omega)), addFields]⟩
  | .cons name value rest =>
    obtain ⟨label, -, valueFormed, restFormed⟩ := wellFormed
    have bytes : (Members.cons name value rest).fieldBytes =
        (headerBytes name value.kind ++ value.bytes) ++ rest.fieldBytes := rfl
    have lengths := congrArg List.length bytes
    simp only [List.length_append, headerBytes_length] at lengths
    obtain ⟨fuel, rfl⟩ : ∃ less, fuel = less + 1 := ⟨fuel - 1, by omega⟩
    obtain ⟨limit, rfl⟩ : ∃ less, limit = less + 1 := ⟨limit - 1, by omega⟩
    rw [bytes] at holds
    have passed := passes r name value.kind (value.bytes ++ rest.fieldBytes) label (by
      rw [← List.append_assoc]
      exact holds)
    -- After an open value comes the next header, or whatever follows the last field.
    have next : value.Open → NotStub ((r.advance 4).advance value.bytes.length) := by
      intro opened
      match rest, restFormed with
      | .nil, _ =>
        have follows := ahead opened
        rw [bytes, Members.fieldBytes, List.append_nil, List.length_append, headerBytes_length,
          ← Reader.advance_advance] at follows
        exact follows
      | .cons second other others, ⟨secondLabel, _⟩ =>
        obtain ⟨first, more, head, high⟩ := headerBytes_head secondLabel other.kind
        have follows := holds.right _
        rw [Members.fieldBytes, head, List.length_append, headerBytes_length,
          ← Reader.advance_advance] at follows
        exact NotStub.of_holds follows (by omega)
    obtain ⟨typed, reader, reads⟩ := readTyped_value source roomy fuel value valueFormed (by omega)
      (r.advance 4) (holds.left.right _) next
    have field := readValue_field parent label reader (value.bytes_ne_nil valueFormed) holds.left reads
    match rest with
    | .nil =>
      rw [bytes, Members.fieldBytes, List.append_nil, addFields, addFields]
      exact LoopReads.last source (by omega) passed field
    | .cons second other others =>
      have some_bytes : (Members.cons second other others).fieldBytes ≠ [] := by
        simp [Members.fieldBytes, headerBytes]
      have others_read := loop_members source roomy test passes (fuel + 1)
        (.cons second other others) restFormed (by omega) limit (by omega)
        (r.advance (headerBytes name value.kind ++ value.bytes).length) (holds.right _)
        (addObject ⟨name, value.kind⟩ value.parsed parent) (by
          intro opened
          have follows := ahead opened
          rwa [bytes, List.length_append, ← Reader.advance_advance] at follows)
      exact LoopReads.round source passed (field.done holds some_bytes) others_read

/-- The items of a list are read one after another. -/
theorem repeated_items (source : env.strict = false) (roomy : 2 ^ 32 ≤ env.maxSize) (fuel : Nat)
    (items : Kind) (listed : Listed items) (item : Parse Json)
    (reader : readItem env (readValue env fuel) fuel items = some item) (elements : Members)
    (all : elements.AllOf items) (each : elements.AllWellFormed)
    (enough : elements.itemBytes.length ≤ fuel) (r : Reader) (holds : Holds r elements.itemBytes)
    (held : List Json) :
    Reads (Program.repeated (fun content => do return Json.pushBack content (← item)) elements.length
      (.array held)) r elements.itemBytes (.array (held ++ elements.parsed.map Prod.snd)) := by
  -- No kind that a list can hold stays open, so that what comes behind an item does not matter.
  match elements with
  | .nil =>
    rw [Members.parsed, List.map_nil, List.append_nil]
    exact Reads.of_done rfl
  | .cons name value rest =>
    obtain ⟨kind, restKinds⟩ := all
    obtain ⟨valueFormed, restFormed⟩ := each
    have bytes : (Members.cons name value rest).itemBytes = value.bytes ++ rest.itemBytes := rfl
    have lengths := congrArg List.length bytes
    simp only [List.length_append] at lengths
    rw [bytes] at holds
    obtain ⟨typed, found, reads⟩ := readTyped_value source roomy fuel value valueFormed (by omega) r
      holds.left (fun opened => absurd opened (not_open (kind ▸ listed)))
    rw [kind, ← readItem_typed _ _ listed, reader, Option.some.injEq] at found
    subst found
    have first := reads.map fun json => Json.pushBack (.array held) json
    match rest with
    | .nil =>
      rw [bytes, Members.itemBytes, List.append_nil]
      exact first.repeated_last
    | .cons second other others =>
      have some_bytes : (Members.cons second other others).itemBytes ≠ [] :=
        List.append_ne_nil_of_left_ne_nil (other.bytes_ne_nil restFormed.1) _
      have others_read := repeated_items source roomy fuel items listed item reader
        (.cons second other others) restKinds restFormed (by omega)
        (r.advance value.bytes.length) (holds.right _) (held ++ [value.parsed])
      rw [List.append_assoc] at others_read
      exact first.repeated_more holds some_bytes others_read

/-- The entries of a map are read one after another, each a key and then a value. -/
theorem repeated_entries (source : env.strict = false) (roomy : 2 ^ 32 ≤ env.maxSize) (fuel : Nat)
    (keys values : Kind) (listed : Listed values) (entries : Members)
    (named : ∀ name ∈ entries.names, Key keys name) (all : entries.AllOf values)
    (each : entries.AllWellFormed) (enough : (entries.entryBytes keys).length ≤ fuel) (r : Reader)
    (holds : Holds r (entries.entryBytes keys)) (held : List (Bytes × Json)) :
    Reads (Program.repeated (readEntry env (readValue env fuel) fuel keys values) entries.length
      (.object held)) r (entries.entryBytes keys) (.object (held ++ entries.parsed)) := by
  -- As for the items of a list, what comes behind a value does not matter.
  match entries with
  | .nil =>
    rw [Members.parsed, List.append_nil]
    exact Reads.of_done rfl
  | .cons name value rest =>
    obtain ⟨kind, restKinds⟩ := all
    obtain ⟨valueFormed, restFormed⟩ := each
    have bytes : (Members.cons name value rest).entryBytes keys =
        (keyBytes keys name ++ value.bytes) ++ rest.entryBytes keys := rfl
    have lengths := congrArg List.length bytes
    simp only [List.length_append] at lengths
    rw [bytes] at holds
    obtain ⟨typed, found, reads⟩ := readTyped_value source roomy fuel value valueFormed (by omega)
      (r.advance (keyBytes keys name).length) (holds.left.right _)
      (fun opened => absurd opened (not_open (kind ▸ listed)))
    rw [kind, ← readItem_typed _ _ listed] at found
    have first := readEntry_eq (named name List.mem_cons_self) roomy holds.left found reads held
    match rest with
    | .nil =>
      rw [bytes, Members.entryBytes, List.append_nil]
      exact first.repeated_last
    | .cons second other others =>
      have some_bytes : (Members.cons second other others).entryBytes keys ≠ [] :=
        List.append_ne_nil_of_left_ne_nil
          (List.append_ne_nil_of_right_ne_nil _ (other.bytes_ne_nil restFormed.1)) _
      have others_read := repeated_entries source roomy fuel keys values listed
        (.cons second other others) (fun third member => named third (List.mem_cons_of_mem _ member))
        restKinds restFormed (by omega)
        (r.advance (keyBytes keys name ++ value.bytes).length) (holds.right _)
        (held ++ [(name, value.parsed)])
      rw [List.append_assoc] at others_read
      exact first.repeated_more holds some_bytes others_read

end

/-- A loop over fields whose names are new puts them behind the members of an object. -/
theorem loop_fields (source : env.strict = false) (roomy : 2 ^ 32 ≤ env.maxSize)
    (test : Parse Bool) (passes : PassesHeaders test) (fuel : Nat) (fields : Members)
    (wellFormed : fields.Fields) (enough : fields.fieldBytes.length ≤ fuel) (limit : Nat)
    (within : fields.fieldBytes.length < limit) (r : Reader) (holds : Holds r fields.fieldBytes)
    (held : List (Bytes × Json)) (fresh : ∀ name ∈ fields.names, name ∉ held.map Prod.fst)
    (ahead : fields.Open → NotStub (r.advance fields.fieldBytes.length)) :
    LoopReads env test (readValue env fuel) limit r fields.fieldBytes (.object held)
      (.object (held ++ fields.parsed)) := by
  rw [← addFields_object wellFormed fresh]
  exact loop_members source roomy test passes fuel fields wellFormed enough limit within r holds _ ahead

/-- Parsing content that is the bytes of some fields makes an object of them, and uses it all up. -/
theorem read_fields (source : env.strict = false) (roomy : 2 ^ 32 ≤ env.maxSize) (fields : Members)
    (wellFormed : fields.Fields) (fuel : Nat) (enough : fields.fieldBytes.length < fuel) (r : Reader)
    (holds : Holds r fields.fieldBytes)
    (whole : r.buffer.position + fields.fieldBytes.length = r.buffer.size)
    (ahead : fields.Open → NotStub (r.advance fields.fieldBytes.length)) :
    ∃ last, read env fuel r = .done (.object fields.parsed, last) ∧
      last.buffer = (r.advance fields.fieldBytes.length).buffer := by
  obtain ⟨left, last, same, -, looped⟩ := loop_fields source roomy moreContent moreContent_passes
    fuel fields wellFormed (Nat.le_of_lt enough) fuel enough r holds [] (by simp) ahead
  -- The loop ends where the content does.
  have finished : last.buffer.eof = true := by
    rw [same]
    exact decide_eq_true (Nat.le_of_eq whole.symm)
  have ended : moreContent last = .done (false, last) := by
    rw [moreContent_eq, finished]
    rfl
  exact ⟨last, looped.trans (Program.loop_exit left _ ended), same⟩

end Parser

/-- Writing a packet into an empty buffer makes the bytes of its tree the content. -/
theorem Packet.writeAll_content (fields : Members) (wellFormed : fields.Fields)
    (small : fields.fieldBytes.length < maxCapacity) :
    ∃ written, (Packet.empty.calls fields.calls).writeAll .empty = .ok written ∧
      written.content = fields.fieldBytes := by
  have bounded : maxCapacity < wordBound := by decide
  obtain ⟨written, wrote, laid⟩ := writeMembers_fields .empty fields wellFormed (by
    change 0 + _ < _
    omega)
  refine ⟨written, ?_, ?_⟩
  · rw [Packet.calls_empty]
    exact wrote
  · -- Everything that was laid out is content, since writing started at nothing.
    have position := laid.position
    have start : DataBuffer.empty.position = 0 := rfl
    rw [start, Nat.zero_add] at position
    rcases laid.inside with inside | unchanged
    · have bytes := laid.laid
      rw [DataBuffer.laid_inside inside] at bytes
      have most := laid.size_le
      have size : written.size = written.position := by
        by_cases none_written : fields.fieldBytes = []
        · rw [none_written, List.length_nil] at position
          have zero : DataBuffer.empty.size = 0 := rfl
          omega
        · have least := laid.written none_written
          have zero : DataBuffer.empty.size = 0 := rfl
          omega
      rw [DataBuffer.content, size, bytes]
      rfl
    · rw [unchanged] at position ⊢
      exact (List.length_eq_zero_iff.mp position.symm).symm

/-- A reader at the end of its content. -/
def Reader.atEnd (r : Reader) : Reader := { r with buffer := { r.buffer with position := r.buffer.size } }

/-- The bytes of a content are all that the front of the buffer holds. -/
theorem Holds.of_content {r : Reader} {bytes : Bytes} (sound : r.buffer.Sound)
    (same : r.buffer.content = bytes) (start : r.buffer.position = 0)
    (small : bytes.length < maxCapacity) : bytes.length = r.buffer.size ∧ Holds r bytes := by
  have bounded : maxCapacity < wordBound := by decide
  -- The content is all of the packet, and it stands at the front of the buffer.
  have size : bytes.length = r.buffer.size := by
    have held := sound.size_le
    rw [← same, DataBuffer.content, List.length_take]
    omega
  refine ⟨size, ⟨⟨r.buffer.buffer.drop r.buffer.size, ?_⟩, by omega, by omega⟩⟩
  rw [← same, DataBuffer.content, Reader.rest, start, List.drop_zero, List.take_append_drop]

/--
Parsing the bytes of fields gives back the fields.

The parser starts at the front of a buffer whose content is those bytes, and ends where it ends.
Only behind an empty list of structs does it look at what comes after the content.
-/
theorem Parser.read_content {env : Env} (source : env.strict = false) (roomy : 2 ^ 32 ≤ env.maxSize)
    {fields : Members} (wellFormed : fields.Fields) (small : fields.fieldBytes.length < maxCapacity)
    {r : Reader} {fuel : Nat} (sound : r.buffer.Sound) (same : r.buffer.content = fields.fieldBytes)
    (start : r.buffer.position = 0) (enough : r.buffer.size < fuel)
    (ahead : fields.Open → Parser.NotStub (Reader.atEnd r)) :
    ∃ last, Parser.read env fuel r = .done (.object fields.parsed, last) ∧
      last.buffer.position = r.buffer.size := by
  obtain ⟨size, holds⟩ := Holds.of_content sound same start small
  have last_peek : r.advance fields.fieldBytes.length = Reader.atEnd r := by
    simp only [Reader.advance, Reader.atEnd, start, size, Nat.zero_add]
  obtain ⟨last, returned, ended⟩ := Parser.read_fields source roomy fields wellFormed fuel
    (by omega) r holds (by omega) (fun ends => by
      rw [last_peek]
      exact ahead ends)
  refine ⟨last, returned, ?_⟩
  rw [ended, Reader.advance_position]
  omega

end Recap.Blaze
