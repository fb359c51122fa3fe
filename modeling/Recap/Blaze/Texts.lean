import Recap.Blaze.ParserTree

/-! Strings and blobs of any bytes, which are read back up to their first NUL. -/

namespace Recap.Blaze

/-- What the writer finds of a text: of what a document keeps, the characters before the first NUL. -/
def cutText (text : Bytes) : Bytes := Json.cString (text.take (text.length % sizeBound))

/-- A text is found whole exactly when it is plain. -/
theorem cutText_eq_iff (text : Bytes) : cutText text = text ↔ Plain text := by
  have few : text.length % sizeBound < sizeBound := Nat.mod_lt _ (by decide)
  constructor
  · intro same
    have most : (cutText text).length ≤ text.length % sizeBound := by
      refine Nat.le_trans (List.takeWhile_prefix _).length_le ?_
      rw [List.length_take]
      exact Nat.min_le_left _ _
    rw [same] at most
    -- A NUL would have been cut off, so none of the characters is one.
    refine ⟨fun nul => ?_, Nat.lt_of_le_of_lt most few⟩
    rw [← same] at nul
    exact absurd (List.mem_takeWhile_imp nul) (by decide)
  · intro ⟨plain, short⟩
    rw [cutText, Nat.mod_eq_of_lt short, List.take_length, Json.cString_eq plain]

/-- What is found of a text is plain, whatever the text is. -/
theorem cutText_plain (text : Bytes) : Plain (cutText text) := by
  have few : text.length % sizeBound < sizeBound := Nat.mod_lt _ (by decide)
  refine ⟨fun nul => absurd (List.mem_takeWhile_imp nul) (by decide), ?_⟩
  refine Nat.lt_of_le_of_lt (List.takeWhile_prefix _).length_le ?_
  rw [List.length_take]
  exact Nat.lt_of_le_of_lt (Nat.min_le_left _ _) few

/-! ## Trees with their texts cut -/

mutual

/-- A value with every text in it cut. -/
def Value.cut : Value → Value
  | .integer value => .integer value
  | .string text => .string (cutText text)
  | .blob data => .blob (cutText data)
  | .struct fields => .struct fields.cut
  | .list items elements => .list items elements.cut
  | .integerList elements => .integerList elements.cut
  | .map keys values entries => .map keys values entries.cut
  | .union addressMember content => .union addressMember content.cut
  | .objectType x y => .objectType x y
  | .objectId x y z => .objectId x y z

/-- Values with every text in them cut, under the names that they had. -/
def Members.cut : Members → Members
  | .nil => .nil
  | .cons name value rest => .cons name value.cut rest.cut

end

mutual

/-- The texts given for strings and blobs of a value, in order. -/
def Value.texts : Value → List Bytes
  | .string text => [text]
  | .blob data => [data]
  | .struct fields => fields.texts
  | .list _ elements => elements.texts
  | .integerList elements => elements.texts
  | .map _ _ entries => entries.texts
  | .union _ content => content.texts
  | .integer _ | .objectType _ _ | .objectId _ _ _ => []

/-- The texts given for strings and blobs of values, in order. -/
def Members.texts : Members → List Bytes
  | .nil => []
  | .cons _ value rest => value.texts ++ rest.texts

end

mutual

/-- The strings of a document, in order. -/
def Json.texts : Json → List Bytes
  | .string text => [text]
  | .array items => Json.itemTexts items
  | .object members => Json.memberTexts members
  | .null | .bool _ | .number _ => []

/-- The strings of the items of an array, in order. -/
def Json.itemTexts : List Json → List Bytes
  | [] => []
  | item :: rest => item.texts ++ Json.itemTexts rest

/-- The strings of the values of an object, in order. -/
def Json.memberTexts : List (Bytes × Json) → List Bytes
  | [] => []
  | (_, value) :: rest => value.texts ++ Json.memberTexts rest

end

/-! ## Cutting changes nothing but the texts -/

@[simp] theorem Value.cut_kind (value : Value) : value.cut.kind = value.kind := by
  cases value <;> rfl

@[simp] theorem Members.cut_length (members : Members) : members.cut.length = members.length := by
  cases members with
  | nil => rfl
  | cons name value rest => rw [Members.cut, Members.length, Members.length, rest.cut_length]

/-- Cut values are of one type exactly when the values are. -/
theorem Members.allOf_cut (kind : Kind) (members : Members) :
    members.cut.AllOf kind ↔ members.AllOf kind := by
  cases members with
  | nil => exact Iff.rfl
  | cons name value rest =>
    rw [Members.cut, Members.AllOf, Members.AllOf, Value.cut_kind, rest.allOf_cut]

/-- Integers have no texts to cut. -/
theorem Members.cut_integers {members : Members} (all : members.AllOf .integer) :
    members.cut = members := by
  match members with
  | .nil => rfl
  | .cons name value rest =>
    obtain ⟨integer, restIntegers⟩ := all
    rw [Members.cut, rest.cut_integers restIntegers]
    cases value with
    | integer value => rfl
    | _ => cases integer

mutual

/-- The texts of a cut value are the texts of the value, cut. -/
theorem Value.texts_cut (value : Value) : value.cut.texts = value.texts.map cutText := by
  match value with
  | .string text | .blob data => rfl
  | .struct fields => exact fields.texts_cut
  | .list items elements => exact elements.texts_cut
  | .integerList elements => exact elements.texts_cut
  | .map keys values entries => exact entries.texts_cut
  | .union addressMember content => exact content.texts_cut
  | .integer _ | .objectType _ _ | .objectId _ _ _ => rfl

/-- The texts of cut values are the texts of the values, cut. -/
theorem Members.texts_cut (members : Members) : members.cut.texts = members.texts.map cutText := by
  match members with
  | .nil => rfl
  | .cons name value rest =>
    rw [Members.cut, Members.texts, Members.texts, value.texts_cut, rest.texts_cut, List.map_append]

end

/-- The strings of items are those of the members that the items are the values of. -/
theorem Json.itemTexts_map (members : List (Bytes × Json)) :
    itemTexts (members.map Prod.snd) = memberTexts members := by
  induction members with
  | nil => rfl
  | cons member rest ih =>
    obtain ⟨name, value⟩ := member
    rw [List.map_cons, itemTexts, memberTexts, ih]

mutual

/-- The strings of what the parser makes of a value are the texts of the value. -/
theorem Value.texts_parsed (value : Value) : value.parsed.texts = value.texts := by
  -- Types, sizes and marks are no strings, so that only the contents count.
  match value with
  | .string text | .blob data => rfl
  | .struct fields =>
    rw [Value.parsed, Json.texts, Json.memberTexts, fields.texts_parsed]
    rfl
  | .list items elements =>
    simp only [Value.parsed, Json.texts, Json.memberTexts, Json.itemTexts_map,
      elements.texts_parsed, Value.texts, List.nil_append, List.append_nil]
  | .integerList elements =>
    simp only [Value.parsed, Json.texts, Json.memberTexts, Json.itemTexts_map,
      elements.texts_parsed, Value.texts, List.nil_append, List.append_nil]
  | .map keys values entries =>
    simp only [Value.parsed, Json.texts, Json.memberTexts, entries.texts_parsed, Value.texts,
      List.nil_append, List.append_nil]
  | .union addressMember content =>
    simp only [Value.parsed, Json.texts, Json.memberTexts, content.texts_parsed, Value.texts,
      List.nil_append]
  | .integer _ | .objectType _ _ | .objectId _ _ _ => rfl

/-- The strings of what the parser makes of values are the texts of the values. -/
theorem Members.texts_parsed (members : Members) :
    Json.memberTexts members.parsed = members.texts := by
  match members with
  | .nil => rfl
  | .cons name value rest =>
    rw [Members.parsed, Json.memberTexts, Members.texts, value.texts_parsed, rest.texts_parsed]

end

/-! ## The writer does not see what is cut off -/

/-- The writer finds the same of a text and of the cut text. -/
theorem getString_cut (text : Bytes) :
    (Json.ofText text).getString = (Json.ofText (cutText text)).getString := by
  have plain := cutText_plain text
  rw [Json.ofText_eq plain.2, Json.getString, Json.cString_eq plain.1]
  rfl

namespace Packet

mutual

/-- A value is written as the value with its texts cut. -/
theorem writeType_cut (b : DataBuffer) (value : Value) (sound : value.cut.WellFormed) :
    writeType b value.kind none value.document =
      writeType b value.kind none value.cut.document := by
  -- What the writer looks up besides the content is the same for the cut value.
  match value with
  | .integer _ | .objectType _ _ | .objectId _ _ _ => rfl
  | .string text =>
    simp only [Value.kind, Value.cut, Value.document, writeType, getString_cut text]
  | .blob data =>
    have content : ∀ data, (Value.blob data).document.member (ascii "_Content") =
      .ok (.ofText data) := fun data => rfl
    simp only [Value.kind, Value.cut, writeType, content, Json.ok_bind, getString_cut data]
  | .struct fields =>
    obtain ⟨smaller, content⟩ : ∃ smaller, (Value.struct fields).document.contentObject =
        .ok ⟨fields.document, smaller⟩ := Json.contentObject_eq rfl
    obtain ⟨smallerCut, contentCut⟩ : ∃ smaller, (Value.struct fields.cut).document.contentObject =
        .ok ⟨fields.cut.document, smaller⟩ := Json.contentObject_eq rfl
    simp only [Value.kind, Value.cut, writeType, writeName, content, contentCut, Json.ok_bind]
    rw [writeMembers_cut b fields sound]
  | .list items elements =>
    obtain ⟨listed, few, all, each⟩ := sound
    obtain ⟨small, same⟩ := listed.toNat
    obtain ⟨smaller, content⟩ : ∃ smaller, (Value.list items elements).document.contentArray =
        .ok ⟨elements.document.map Prod.snd, smaller⟩ := Json.contentArray_eq rfl
    obtain ⟨smallerCut, contentCut⟩ : ∃ smaller,
        (Value.list items elements.cut).document.contentArray =
          .ok ⟨elements.cut.document.map Prod.snd, smaller⟩ := Json.contentArray_eq rfl
    have listType : ∀ elements, (Value.list items elements).document.member (ascii "_ListType") =
      .ok (.number items.toNat) := fun elements => rfl
    have stub : ∀ elements, (Value.list items elements).document.member (ascii "_Stub") =
      .ok (.bool false) := fun elements => rfl
    simp only [Value.kind, Value.cut, writeType, writeName, content, contentCut, listType, stub,
      Json.ok_bind, getUint_eq (show items.toNat < 2 ^ 32 by omega), Json.getBool,
      Bool.false_eq_true, if_false, List.length_map, Members.document_length, Members.cut_length,
      same]
    exact writeItems_cut _ items elements _ ((elements.allOf_cut items).mp all) each
  | .integerList elements =>
    obtain ⟨few, all, each⟩ := sound
    rw [Value.cut, Members.cut_integers ((elements.allOf_cut .integer).mp all)]
  | .map keys values entries =>
    obtain ⟨named, keyed, listed, few, all, each⟩ := sound
    obtain ⟨small, same⟩ := listed.toNat
    have keySmall : keys.toNat < 2 ^ 32 := by
      rcases keyed with rfl | rfl <;> decide
    obtain ⟨smaller, content⟩ : ∃ smaller,
        (Value.map keys values entries).document.contentObject = .ok ⟨entries.document, smaller⟩ :=
      Json.contentObject_eq rfl
    obtain ⟨smallerCut, contentCut⟩ : ∃ smaller,
        (Value.map keys values entries.cut).document.contentObject =
          .ok ⟨entries.cut.document, smaller⟩ := Json.contentObject_eq rfl
    have keyType : ∀ entries, (Value.map keys values entries).document.member (ascii "_KeyType") =
      .ok (.number keys.toNat) := fun entries => rfl
    have valueType : ∀ entries, (Value.map keys values entries).document.member
      (ascii "_ValueType") = .ok (.number values.toNat) := fun entries => rfl
    simp only [Value.kind, Value.cut, writeType, writeName, content, contentCut, keyType, valueType,
      Json.ok_bind, getUint_eq keySmall, getUint_eq (show values.toNat < 2 ^ 32 by omega),
      Members.document_length, Members.cut_length, same]
    exact writeEntries_cut _ _ values entries ((entries.allOf_cut values).mp all) each
  | .union addressMember content =>
    obtain ⟨byte, single, fields⟩ := sound
    obtain ⟨smaller, held⟩ : ∃ smaller, (Value.union addressMember content).document.contentObject =
        .ok ⟨content.document, smaller⟩ := Json.contentObject_eq rfl
    obtain ⟨smallerCut, heldCut⟩ : ∃ smaller,
        (Value.union addressMember content.cut).document.contentObject =
          .ok ⟨content.cut.document, smaller⟩ := Json.contentObject_eq rfl
    have tag : ∀ content, (Value.union addressMember content).document.member
      (ascii "_AddressMember") = .ok (.number addressMember) := fun content => rfl
    simp only [Value.kind, Value.cut, writeType, writeName, tag, held, heldCut, Json.ok_bind,
      getUint_eq (show addressMember < 2 ^ 32 by omega)]
    rw [writeMembers_cut _ content fields]

/-- Values under names are written as the values with their texts cut. -/
theorem writeMembers_cut (b : DataBuffer) (fields : Members) (sound : fields.cut.Fields) :
    writeMembers b fields.document = writeMembers b fields.cut.document := by
  match fields with
  | .nil => rfl
  | .cons name value rest =>
    obtain ⟨label, -, valueSound, restSound⟩ := sound
    rw [Members.cut, Members.document, Members.document, writeMembers, writeMembers, write_value,
      write_value, Value.cut_kind, writeType_name, writeType_name, writeType_cut _ value valueSound]
    -- What is written behind the first value starts from the same buffer.
    exact bind_congr fun after => writeMembers_cut after rest restSound

/-- The items of a list are written as the items with their texts cut. -/
theorem writeItems_cut (b : DataBuffer) (items : Kind) (elements : Members) (count : Nat)
    (all : elements.AllOf items) (each : elements.cut.AllWellFormed) :
    writeItems b items count (elements.document.map Prod.snd) =
      writeItems b items count (elements.cut.document.map Prod.snd) := by
  match elements with
  | .nil => rfl
  | .cons name value rest =>
    obtain ⟨kind, restKinds⟩ := all
    obtain ⟨valueSound, restSound⟩ := each
    rw [Members.cut, Members.document, Members.document, List.map_cons, List.map_cons]
    cases count with
    | zero => rw [writeItems, writeItems]
    | succ count =>
      rw [writeItems, writeItems, ← kind, writeType_cut b value valueSound, kind]
      exact bind_congr fun after => writeItems_cut after items rest count restKinds restSound

/-- The entries of a map are written as the entries with their values' texts cut. -/
theorem writeEntries_cut (b : DataBuffer) (keys values : Kind) (entries : Members)
    (all : entries.AllOf values) (each : entries.cut.AllWellFormed) :
    writeEntries b keys values entries.document = writeEntries b keys values entries.cut.document := by
  match entries with
  | .nil => rfl
  | .cons name value rest =>
    obtain ⟨kind, restKinds⟩ := all
    obtain ⟨valueSound, restSound⟩ := each
    rw [Members.cut, Members.document, Members.document, writeEntries, writeEntries]
    -- The key is the same, and the value is the one behind it.
    refine bind_congr fun keyed => ?_
    rw [← kind, writeType_cut keyed value valueSound, kind]
    exact bind_congr fun after => writeEntries_cut after keys values rest restKinds restSound

end

/-- A packet is written as the packet with its texts cut. -/
theorem writeAll_cut (members : Members) (sound : members.cut.Fields) :
    (Packet.empty.calls members.calls).writeAll .empty =
      (Packet.empty.calls members.cut.calls).writeAll .empty := by
  rw [calls_empty, calls_empty]
  exact writeMembers_cut .empty members sound

end Packet

/-- Whether the parser gives back every text of a packet, from any buffer that holds what was written. -/
def BinarySafe (env : Env) (members : Members) : Prop :=
  ∃ written, (Packet.empty.calls members.calls).writeAll .empty = .ok written ∧
    ∀ (r : Reader) (fuel : Nat), r.buffer.Sound → r.buffer.content = written.content →
      r.buffer.position = 0 → (members.cut.Open → Parser.NotStub (Reader.atEnd r)) →
      r.buffer.size < fuel →
        ∃ document last, Parser.read env fuel r = .done (document, last) ∧
          document.texts = members.texts

/-- The parser reads back the texts of a packet cut. -/
theorem Parser.read_cut {env : Env} (source : env.strict = false) (roomy : 2 ^ 32 ≤ env.maxSize)
    {members : Members} (sound : members.cut.Fields)
    (small : members.cut.fieldBytes.length < maxCapacity) :
    ∃ written, (Packet.empty.calls members.calls).writeAll .empty = .ok written ∧
      written.content = members.cut.fieldBytes ∧
      ∀ (r : Reader) (fuel : Nat), r.buffer.Sound → r.buffer.content = written.content →
        r.buffer.position = 0 → (members.cut.Open → Parser.NotStub (Reader.atEnd r)) →
        r.buffer.size < fuel →
          ∃ document last, Parser.read env fuel r = .done (document, last) ∧
            document.texts = members.texts.map cutText := by
  obtain ⟨written, wrote, laid⟩ := Packet.writeAll_content members.cut sound small
  rw [← Packet.writeAll_cut members sound] at wrote
  refine ⟨written, wrote, laid, fun r fuel whole same start ahead enough => ?_⟩
  rw [laid] at same
  obtain ⟨last, returned, -⟩ :=
    Parser.read_content source roomy sound small whole same start enough ahead
  refine ⟨_, last, returned, ?_⟩
  -- The document is the one that the cut tree is parsed as.
  rw [Json.texts, Members.texts_parsed, Members.texts_cut]

/--
A string or blob is read back with the same bytes exactly when it has no NUL and its size fits.

The texts may be any bytes of any length, at any place of any packet whose other parts are well formed.
-/
theorem Parser.text_read_iff_plain {env : Env} (source : env.strict = false)
    (roomy : 2 ^ 32 ≤ env.maxSize) (members : Members) (sound : members.cut.Fields)
    (small : members.cut.fieldBytes.length < maxCapacity) :
    ∃ written, (Packet.empty.calls members.calls).writeAll .empty = .ok written ∧
      ∀ (r : Reader) (fuel : Nat), r.buffer.Sound → r.buffer.content = written.content →
        r.buffer.position = 0 → (members.cut.Open → Parser.NotStub (Reader.atEnd r)) →
        r.buffer.size < fuel →
          ∃ document last, Parser.read env fuel r = .done (document, last) ∧
            document.texts.length = members.texts.length ∧
            ∀ (i : Nat) (text : Bytes), members.texts[i]? = some text →
              (document.texts[i]? = some text ↔ Plain text) := by
  obtain ⟨written, wrote, -, reads⟩ := Parser.read_cut source roomy sound small
  refine ⟨written, wrote, fun r fuel whole same start ahead enough => ?_⟩
  obtain ⟨document, last, returned, texts⟩ := reads r fuel whole same start ahead enough
  refine ⟨document, last, returned, by rw [texts, List.length_map], fun i text given => ?_⟩
  rw [texts, List.getElem?_map, given, Option.map_some, Option.some_inj]
  exact cutText_eq_iff text

/-- A packet with a string and a blob under labels that differ. -/
def textPacket (text data : Bytes) : Members :=
  .cons (ascii "NAME") (.string text) (.cons (ascii "BLOB") (.blob data) .nil)

set_option maxRecDepth 8192 in
/-- Whatever its two texts are, such a packet is well formed. -/
theorem textPacket_fields (text data : Bytes) : (textPacket text data).cut.Fields :=
  ⟨by decide, fun same => absurd (List.mem_singleton.mp same) (by decide),
    cutText_plain text, by decide, fun same => absurd same List.not_mem_nil,
    cutText_plain data, trivial⟩

/-- A name without a NUL is read back, and a blob with one is not. -/
theorem Parser.text_read_iff_plain_name :
    ∃ written, (Packet.empty.calls (textPacket (ascii "abc") [1, 0, 2]).calls).writeAll .empty =
        .ok written ∧
      ∀ (r : Reader) (fuel : Nat), r.buffer.Sound → r.buffer.content = written.content →
        r.buffer.position = 0 →
        ((textPacket (ascii "abc") [1, 0, 2]).cut.Open → Parser.NotStub (Reader.atEnd r)) →
        r.buffer.size < fuel →
          ∃ document last, Parser.read ⟨2 ^ 32, false⟩ fuel r = .done (document, last) ∧
            document.texts.length = (textPacket (ascii "abc") [1, 0, 2]).texts.length ∧
            ∀ (i : Nat) (text : Bytes), (textPacket (ascii "abc") [1, 0, 2]).texts[i]? = some text →
              (document.texts[i]? = some text ↔ Plain text) :=
  Parser.text_read_iff_plain rfl (Nat.le_refl _) (textPacket (ascii "abc") [1, 0, 2])
    (textPacket_fields _ _) (by decide)

/-- A blob of three bytes with a NUL in the middle is read back as its first byte. -/
theorem not_binarySafe :
    ¬ ∀ members : Members, members.cut.Fields → members.cut.fieldBytes.length < maxCapacity →
      BinarySafe ⟨2 ^ 32, false⟩ members := by
  intro safe
  have fields := textPacket_fields (ascii "abc") [1, 0, 2]
  have small : (textPacket (ascii "abc") [1, 0, 2]).cut.fieldBytes.length < maxCapacity := by
    decide
  obtain ⟨written, wrote, back⟩ := safe _ fields small
  obtain ⟨laid, wroteCut, content, reads⟩ :=
    @Parser.read_cut ⟨2 ^ 32, false⟩ rfl (Nat.le_refl _) _ fields small
  rw [wrote] at wroteCut
  cases wroteCut
  -- The parser is run over a buffer that holds nothing but the content.
  let r : Reader := ⟨⟨written.content, written.content.length, 0⟩, fun _ => 0⟩
  have held : r.buffer.content = written.content := List.take_length
  have whole : r.buffer.Sound :=
    ⟨Nat.le_refl _, by rw [← content] at small; exact small, Nat.zero_lt_of_lt (show 1 < wordBound by decide)⟩
  have closed : (textPacket (ascii "abc") [1, 0, 2]).cut.Open → Parser.NotStub (Reader.atEnd r) :=
    fun ends => absurd ends (fun ends => ends)
  obtain ⟨document, last, returned, same⟩ :=
    back r (r.buffer.size + 1) whole held rfl closed (Nat.lt_succ_self _)
  obtain ⟨_, _, again, texts⟩ :=
    reads r (r.buffer.size + 1) whole held rfl closed (Nat.lt_succ_self _)
  rw [returned] at again
  cases again
  rw [same] at texts
  exact absurd texts (by decide)

end Recap.Blaze
