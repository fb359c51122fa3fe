import Recap.Blaze.ParserTree

/-! Stub lists of structs, which are not read the way they are written. -/

namespace Recap.Blaze

open DataBuffer (Wrote)

/-- What the builder holds for a stub list of structs. -/
def stubList (structs : Members) : Json := .object
  [(ascii "_Type", .number Kind.list.toNat), (ascii "_ListType", .number Kind.struct.toNat),
    (ascii "_Content", .array (structs.document.map Prod.snd)), (ascii "_Stub", .bool true)]

/-- The bytes of a stub list: type, count and mark, and then the structs with their zero bytes. -/
def stubBytes (structs : Members) : Bytes :=
  [UInt8.ofNat Kind.struct.toNat, UInt8.ofNat (structs.length % 256), 0x02] ++ structs.itemBytes

namespace Packet

/-- A stub list is built by pushing it, putting structs into it, and popping it. -/
theorem calls_stubList (packet : Packet) (label : Bytes) (structs : Members) :
    packet.calls (.pushList label .struct true :: (structs.calls ++ [.pop])) =
      packet.addMember label (stubList structs) := by
  refine (packet.calls_container label _ structs.calls structs.document
    fun inner => inner.calls_members structs).trans ?_
  have type : ascii "_Type" ≠ ascii "_Content" := by decide
  have listType : ascii "_ListType" ≠ ascii "_Content" := by decide
  simp only [stubList, Json.modifyContent, Json.modifyFirst, if_neg type, if_neg listType, if_true,
    Json.addAll_array, List.nil_append]

/-- Writing a stub list lays out its bytes, however many structs it has. -/
theorem writeType_stubList (b : DataBuffer) (structs : Members) (all : structs.AllOf .struct)
    (each : structs.AllWellFormed) (room : b.position + (stubBytes structs).length < wordBound) :
    ∃ after, writeType b .list none (stubList structs) = .ok after ∧
      Wrote b (stubBytes structs) after := by
  simp only [stubBytes, List.length_append, List.length_cons, List.length_nil] at room
  have type := writeU8_wrote (UInt8.ofNat Kind.struct.toNat) (show b.position + 1 < _ by omega)
  have count := byte_trans type (UInt8.ofNat (structs.length % 256))
    (by simp only [List.length_append, List.length_singleton]; omega)
  have header := byte_trans count 0x02
    (by simp only [List.length_append, List.length_singleton]; omega)
  have moved := header.position
  simp only [List.length_append, List.length_singleton] at moved
  obtain ⟨after, written, wrote⟩ := writeItems_items
    (((b.writeU8 (UInt8.ofNat Kind.struct.toNat)).writeU8
      (UInt8.ofNat (structs.length % 256))).writeU8 0x02) .struct structs all each (by omega)
  refine ⟨after, ?_, header.trans wrote⟩
  obtain ⟨smaller, content⟩ : ∃ smaller, (stubList structs).contentArray =
      .ok ⟨structs.document.map Prod.snd, smaller⟩ := Json.contentArray_eq rfl
  have listType : (stubList structs).member (ascii "_ListType") =
      .ok (.number Kind.struct.toNat) := rfl
  have stub : (stubList structs).member (ascii "_Stub") = .ok (.bool true) := rfl
  simp only [writeType, writeName, content, listType, stub, Json.ok_bind,
    getUint_eq (show Kind.struct.toNat < 2 ^ 32 by decide), Json.getBool, if_true, List.length_map,
    structs.document_length]
  exact written

end Packet

namespace Parser

variable {env : Env}

/-- An array that starts with a value. -/
def Begins (first : Json) (parent : Json) : Prop := ∃ more, parent = .array (first :: more)

theorem Begins.addObject {first parent : Json} (begins : Begins first parent) (header : Header)
    (value : Json) : Begins first (addObject header value parent) := by
  obtain ⟨more, rfl⟩ := begins
  exact ⟨more ++ [value], rfl⟩

/-- What an array starts with stays in front of whatever is read into it. -/
theorem Begins.readValue {first parent after : Json} (begins : Begins first parent) {fuel : Nat}
    {r last : Reader} (returned : readValue env fuel parent r = .done (after, last)) :
    Begins first after := by
  cases fuel with
  | zero => cases returned
  | succ fuel =>
    obtain ⟨header, between, _, later⟩ := Program.bind_eq_done returned
    obtain ⟨ended, behind, _, later⟩ := Program.bind_eq_done later
    cases ended with
    | true =>
      cases later
      exact begins
    | false =>
      simp only [Bool.false_eq_true, if_false] at later
      cases reader : readTyped env (Parser.readValue env fuel) fuel header.type with
      | none =>
        rw [reader] at later
        cases later
        exact begins
      | some typed =>
        rw [reader] at later
        obtain ⟨value, read, _, added⟩ := Program.bind_eq_done later
        cases added
        exact begins.addObject header value

theorem Begins.loop {first parent after : Json} (begins : Begins first parent) {test : Parse Bool}
    {fuel limit : Nat} {r last : Reader}
    (returned : Program.loop (starving env) test (Parser.readValue env fuel) limit parent r =
      .done (after, last)) : Begins first after := by
  -- The induction follows the rounds, each of which may add one more value.
  induction limit generalizing parent r with
  | zero => cases returned
  | succ limit ih =>
    rw [Program.loop_succ] at returned
    obtain ⟨passed, head, _, later⟩ := Program.bind_eq_done returned
    cases passed with
    | false =>
      cases later
      exact begins
    | true =>
      rw [if_pos rfl, Program.guarded] at later
      split at later
      · cases later
      · obtain ⟨between, middle, read, rest⟩ := Program.bind_eq_done later
        exact ih (begins.readValue read) rest

/-- After type, count and mark, a stub list is a loop over values up to a zero byte. -/
theorem readList_marked {structs : Members} {next : Bytes} {r : Reader} (fuel : Nat)
    (holds : Holds r (stubBytes structs ++ next)) :
    readList env (readValue env fuel) fuel r =
      (do
        let content ← Program.loop (starving env) moreFields (readValue env fuel) fuel (.array [])
        skipU8
        return Json.object [(ascii "_Type", .number Kind.list.toNat),
          (ascii "_ListType", .number Kind.struct.toNat),
          (ascii "_ListSize", .number (structs.length % 256)), (ascii "_Stub", .bool true),
          (ascii "_Content", content)]) (r.advance 3) := by
  -- The first three bytes are the type, the count, and a byte that no type and no label starts
  -- with.
  have whole : stubBytes structs ++ next = UInt8.ofNat Kind.struct.toNat ::
      (UInt8.ofNat (structs.length % 256) :: (0x02 :: (structs.itemBytes ++ next))) := by
    simp [stubBytes]
  rw [whole] at holds
  have count : (UInt8.ofNat (structs.length % 256)).toNat = structs.length % 256 :=
    UInt8.toNat_ofNat_of_lt' (Nat.mod_lt _ (by decide))
  have type := readU8_eq holds
  have size : readU8 (r.advance 1) = .done (_, (r.advance 1).advance 1) :=
    readU8_eq (holds.right [UInt8.ofNat Kind.struct.toNat])
  have marked := holds.right [UInt8.ofNat Kind.struct.toNat, UInt8.ofNat (structs.length % 256)]
  have mark : peekU8 ((r.advance 1).advance 1) = .done (2, (r.advance 1).advance 1) :=
    peekU8_eq marked
  have skipped : skipU8 ((r.advance 1).advance 1) = .done ((), r.advance 3) :=
    skipU8_eq (by
      have bounded := marked.noWrap
      simp only [List.length_cons] at bounded
      change r.buffer.position + 1 + 1 + 1 < _
      have := bounded
      change r.buffer.position + 2 + _ + 1 < _ at this
      omega)
  rw [count] at size
  unfold readList
  rw [Program.bind_done type, Program.bind_done size, Program.bind_done mark]
  change ((skipU8 >>= fun _ => readFields env (readValue env fuel) fuel (.array [])) >>= _)
    ((r.advance 1).advance 1) = _
  rw [Program.bind_assoc, Program.bind_done skipped, readFields, Program.bind_assoc]
  simp only [Program.bind_assoc]
  rfl

/-- A stub list of one struct is read as the list of what the fields of that struct have. -/
theorem readList_single (source : env.strict = false) (roomy : 2 ^ 32 ≤ env.maxSize) {fuel : Nat}
    {label : Bytes} {fields : Members} {r : Reader} (wellFormed : fields.Fields)
    (holds : Holds r (stubBytes (.cons label (.struct fields) .nil)))
    (enough : fields.fieldBytes.length < fuel) :
    Reads (readList env (readValue env fuel) fuel) r (stubBytes (.cons label (.struct fields) .nil))
      (.object [(ascii "_Type", .number Kind.list.toNat), (ascii "_ListType", .number Kind.struct.toNat),
        (ascii "_ListSize", .number 1), (ascii "_Stub", .bool true),
        (ascii "_Content", .array (fields.parsed.map Prod.snd))]) := by
  have bytes : stubBytes (.cons label (.struct fields) .nil) =
      [UInt8.ofNat Kind.struct.toNat, UInt8.ofNat 1, 0x02] ++ (fields.fieldBytes ++ [0]) := by
    simp [stubBytes, Members.itemBytes, Value.bytes, Members.length]
  have marked := @readList_marked env (.cons label (.struct fields) .nil) [] r fuel
    (by rwa [List.append_nil])
  rw [bytes] at holds
  have inner : Holds (r.advance 3) (fields.fieldBytes ++ [0]) :=
    holds.right [UInt8.ofNat Kind.struct.toNat, UInt8.ofNat 1, 0x02]
  have terminator := inner.right fields.fieldBytes
  have bounded := terminator.noWrap
  -- The zero byte that ends the struct is taken for the end of the list.
  obtain ⟨left, last, same, exact_end, looped⟩ := loop_members source roomy moreFields
    moreFields_passes fuel fields wellFormed (Nat.le_of_lt enough) fuel enough (r.advance 3) inner.left
    (.array []) (fun _ => NotStub.of_holds terminator (by decide))
  rw [exact_end (terminator.rest_ne_nil (by simp)), addFields_array, List.nil_append] at looped
  have ended : moreFields ((r.advance 3).advance fields.fieldBytes.length) =
      .done (false, (r.advance 3).advance fields.fieldBytes.length) :=
    Program.bind_done (peekU8_eq terminator)
  have skipped := skipU8_eq (show ((r.advance 3).advance fields.fieldBytes.length).buffer.position + 1 <
    wordBound by omega)
  have whole : ((r.advance 3).advance fields.fieldBytes.length).advance 1 = r.advance
      (stubBytes (.cons label (.struct fields) .nil)).length := by
    rw [Reader.advance_advance, Reader.advance_advance, bytes]
    simp only [List.length_append, List.length_cons, List.length_nil, Nat.reduceAdd]
  rw [whole] at skipped
  refine Reads.of_done ?_
  rw [marked, Program.bind_done (looped.trans (Program.loop_exit left _ ended)), Program.bind_done skipped]
  rfl

/-- A loop that returns has run its first round, if its test passes. -/
theorem loop_started {test : Parse Bool} {body : Json → Parse Json} {limit : Nat}
    {parent content : Json} {r last : Reader} (passed : test r = .done (true, r))
    (returned : Program.loop (starving env) test body limit parent r = .done (content, last)) :
    ∃ between middle left, body parent r = .done (between, middle) ∧
      Program.loop (starving env) test body left between middle = .done (content, last) := by
  -- A loop without rounds left does not return, and the others test and run their body.
  cases limit with
  | zero => cases returned
  | succ limit =>
    rw [Program.loop_succ, Program.bind_done passed, if_pos rfl, Program.guarded] at returned
    split at returned
    · cases returned
    · obtain ⟨between, middle, ran, rest⟩ := Program.bind_eq_done returned
      exact ⟨between, middle, limit, ran, rest⟩

/-- Whatever a field is read as, it is put into the array that the list's content is. -/
theorem readValue_pushes {name : Bytes} {value : Value} {more : Bytes} {fuel : Nat} {between : Json}
    {r last : Reader} (label : Label name) (wellFormed : value.WellFormed)
    (holds : Holds r (headerBytes name value.kind ++ (value.bytes ++ more)))
    (returned : readValue env fuel (.array []) r = .done (between, last)) :
    ∃ first, Begins first between := by
  -- The header decides the reader of the value, and what comes out of it goes into the array.
  cases fuel with
  | zero => cases returned
  | succ fuel =>
    have header := readHeader_eq label value holds.left
    -- A value takes at least one byte, so the header never ends at the end of the content.
    have more_left : (r.advance 4).buffer.eof = false := by
      have inside := holds.inside
      have positive := List.length_pos_iff.mpr (value.bytes_ne_nil wellFormed)
      simp only [List.length_append, headerBytes_length] at inside
      have before : ¬ r.buffer.size ≤ r.buffer.position + 4 := by omega
      exact decide_eq_false before
    rw [readValue, Program.bind_done header, eof, Program.act_bind] at returned
    simp only [more_left, Bool.false_eq_true, if_false] at returned
    cases reader : readTyped env (readValue env fuel) fuel value.kind with
    | none => cases value <;> cases reader
    | some typed =>
      rw [reader] at returned
      obtain ⟨read, _, _, added⟩ := Program.bind_eq_done returned
      cases added
      exact ⟨read, [], rfl⟩

/-- What may follow a list: nothing at all, the zero byte of the struct around it, or a field. -/
def Follows (next : Bytes) : Prop :=
  next = [] ∨ (∃ more, next = 0 :: more) ∨
    ∃ (name : Bytes) (value : Value) (more : Bytes), Label name ∧ value.WellFormed ∧ next =
      headerBytes name value.kind ++ (value.bytes ++ more)

/-- The content of the list is what was written, and the parser stands where the next field starts. -/
def ReadsBack (env : Env) (fuel : Nat) (structs : Members) (next : Bytes) (r : Reader) : Prop :=
  ∃ members last, readList env (readValue env fuel) fuel r = .done (.object members, last) ∧
    Json.find (ascii "_Content") members = some (.array (structs.parsed.map Prod.snd)) ∧
    (next ≠ [] → last.buffer.position = r.buffer.position + (stubBytes structs).length)

/-- A list that is read back comes from its loop, and ends one byte further on. -/
theorem ReadsBack.looped {fuel : Nat} {structs : Members} {next : Bytes} {r : Reader}
    (holds : Holds r (stubBytes structs ++ next)) (back : ReadsBack env fuel structs next r) :
    ∃ middle : Reader, Program.loop (starving env) moreFields (readValue env fuel) fuel (.array [])
        (r.advance 3) = .done (.array (structs.parsed.map Prod.snd), middle) ∧
      (next ≠ [] → (middle.buffer.skip 1 1).position =
        r.buffer.position + (stubBytes structs).length) := by
  -- The object that is read has the content of the loop under its name.
  obtain ⟨members, last, returned, found, position⟩ := back
  rw [readList_marked fuel holds] at returned
  obtain ⟨content, middle, looped, later⟩ := Program.bind_eq_done returned
  cases later
  have same : Json.array (structs.parsed.map Prod.snd) = content :=
    (Option.some_inj.mp found).symm
  exact ⟨middle, same ▸ looped, position⟩

/-- The zero byte ends the loop right away. -/
theorem loop_zero {fuel : Nat} {more : Bytes} {r middle : Reader} {content : Json}
    (holds : Holds r (0 :: more))
    (looped : Program.loop (starving env) moreFields (readValue env fuel) fuel (.array []) r =
      .done (content, middle)) : content = .array [] ∧ middle = r := by
  -- The first test sees the zero byte and takes it for the end.
  have failed : moreFields r = .done (false, r) := Program.bind_done (peekU8_eq holds)
  cases fuel with
  | zero => cases looped
  | succ fuel =>
    rw [Program.loop_exit fuel _ failed] at looped
    cases looped
    exact ⟨rfl, rfl⟩

/-- An empty list is not read back if anything follows it. -/
theorem not_readsBack_nil {fuel : Nat} {next : Bytes} {r : Reader} (follows : Follows next)
    (something : next ≠ []) (holds : Holds r (stubBytes .nil ++ next)) :
    ¬ ReadsBack env fuel .nil next r := by
  -- The list has no end of its own, so what follows it is read as its content.
  intro back
  obtain ⟨middle, looped, position⟩ := back.looped holds
  have rest : Holds (r.advance 3) next := holds.right (stubBytes .nil)
  rcases follows with nothing | ⟨more, rfl⟩ | ⟨name, value, more, label, wellFormed, rfl⟩
  · exact something nothing
  · -- The parser takes the zero byte of the struct around the list for its own.
    obtain ⟨_, same⟩ := loop_zero rest looped
    have moved := position something
    rw [same] at moved
    have bounded := rest.noWrap
    have start : (r.advance 3).buffer.position = r.buffer.position + 3 := rfl
    rw [start, List.length_cons] at bounded
    have skipped : ((r.advance 3).buffer.skip 1 1).position = r.buffer.position + 3 + 1 :=
      Nat.mod_eq_of_lt (show r.buffer.position + 3 + 1 < wordBound by omega)
    have length : (stubBytes .nil).length = 3 := rfl
    omega
  · -- The parser takes the next field for an item of the list.
    have passed : moreFields (r.advance 3) = .done (true, r.advance 3) :=
      moreFields_passes _ name value.kind _ label rest
    obtain ⟨between, head, left, ran, onward⟩ := loop_started passed looped
    obtain ⟨first, begins⟩ := readValue_pushes label wellFormed rest ran
    obtain ⟨others, same⟩ := begins.loop onward
    cases same

/-- What is parsed from the fields of a struct is smaller than what is parsed from the struct. -/
theorem field_ne_struct (name : Bytes) (value : Value) (rest : Members) :
    value.parsed ≠ (Value.struct (.cons name value rest)).parsed := by
  intro same
  have size := congrArg sizeOf same
  simp only [Value.parsed, Members.parsed, Json.object.sizeOf_spec, List.cons.sizeOf_spec,
    Prod.mk.sizeOf_spec] at size
  omega

/-- Behind a field of a struct comes another one, or the zero byte, and neither marks a stub list. -/
theorem notStub_fields {fields : Members} {more : Bytes} {r : Reader} (wellFormed : fields.Fields)
    (holds : Holds r (fields.fieldBytes ++ ([0] ++ more))) : NotStub r := by
  -- A header starts with the high bits of its label, which are never the mark of a stub.
  cases fields with
  | nil => exact NotStub.of_holds holds (by decide)
  | cons name value rest =>
    obtain ⟨first, others, head, high⟩ := headerBytes_head wellFormed.1 value.kind
    rw [Members.fieldBytes, head] at holds
    exact NotStub.of_holds holds (by omega)

/-- A list of at least one struct is not read back: its content starts with a field of a struct. -/
theorem not_readsBack_cons (source : env.strict = false) (roomy : 2 ^ 32 ≤ env.maxSize) {fuel : Nat}
    {label : Bytes} {value : Value} {others : Members} {next : Bytes} {r : Reader}
    (struct : value.kind = .struct) (wellFormed : value.WellFormed)
    (holds : Holds r (stubBytes (.cons label value others) ++ next))
    (enough : r.buffer.size < fuel) : ¬ ReadsBack env fuel (.cons label value others) next r := by
  -- The loop reads fields with headers, where the list has structs without.
  intro back
  obtain ⟨middle, looped, -⟩ := back.looped holds
  cases value with
  | struct fields =>
    have rest : Holds (r.advance 3) (fields.fieldBytes ++ ([0] ++ (others.itemBytes ++ next))) := by
      have behind := (show Holds r ([UInt8.ofNat Kind.struct.toNat,
          UInt8.ofNat ((Members.cons label (.struct fields) others).length % 256), 0x02] ++
            (fields.fieldBytes ++ ([0] ++ (others.itemBytes ++ next)))) by
        simpa [stubBytes, Members.itemBytes, Value.bytes] using holds)
      exact behind.right _
    cases fields with
    | nil =>
      obtain ⟨same, -⟩ := loop_zero rest looped
      cases same
    | cons name value fields =>
      obtain ⟨named, _, valueFormed, fieldsFormed⟩ := wellFormed
      have first_field : Holds (r.advance 3) ((headerBytes name value.kind ++ value.bytes) ++
          (fields.fieldBytes ++ ([0] ++ (others.itemBytes ++ next)))) := by
        simpa [Members.fieldBytes] using rest
      have lengths := first_field.inside
      simp only [List.length_append, headerBytes_length, List.length_singleton] at lengths
      have size : (r.advance 3).buffer.size = r.buffer.size := rfl
      obtain ⟨fuel, rfl⟩ : ∃ less, fuel = less + 1 := ⟨fuel - 1, by omega⟩
      have behind := first_field.right _
      rw [List.length_append, headerBytes_length, ← Reader.advance_advance] at behind
      obtain ⟨typed, reader, reads⟩ := readTyped_value source roomy fuel value valueFormed (by omega)
        ((r.advance 3).advance 4) (first_field.left.right _)
        (fun _ => notStub_fields fieldsFormed behind)
      have read := (readValue_field (.array []) named reader (value.bytes_ne_nil valueFormed)
        first_field.left reads).done first_field (by simp)
      -- The field itself becomes the first item of the list.
      have passed : moreFields (r.advance 3) = .done (true, r.advance 3) := by
        refine moreFields_passes _ name value.kind (value.bytes ++ (fields.fieldBytes ++
          ([0] ++ (others.itemBytes ++ next)))) named ?_
        rw [← List.append_assoc]
        exact first_field
      obtain ⟨between, head, left, ran, onward⟩ := loop_started passed looped
      rw [read] at ran
      cases ran
      have begins : Begins value.parsed (.array [value.parsed]) := ⟨[], rfl⟩
      obtain ⟨more, same⟩ := begins.loop onward
      have first_item := (List.cons.inj (Json.array.inj same)).1
      exact field_ne_struct name value fields first_item.symm
  | _ => cases struct

/--
A stub list of structs is read back exactly if it is empty and nothing follows it.

Wherever it is written, its bytes are laid out as they should be. The byte behind the content has
to read as zero for the list that ends it.
-/
theorem readsBack_iff (source : env.strict = false) (roomy : 2 ^ 32 ≤ env.maxSize)
    (structs : Members) (all : structs.AllOf .struct) (each : structs.AllWellFormed) :
    (∀ b : DataBuffer, b.position + (stubBytes structs).length < wordBound →
      ∃ after, Packet.writeType b .list none (stubList structs) = .ok after ∧
        Wrote b (stubBytes structs) after) ∧
    ∀ (next : Bytes) (r : Reader) (fuel : Nat), Follows next → Holds r (stubBytes structs ++ next) →
      r.buffer.size < fuel →
      (next = [] → ((r.advance (stubBytes structs).length).peek 1).1 = 0) →
        (ReadsBack env fuel structs next r ↔ structs.length = 0 ∧ next = []) := by
  -- A list of structs loses them, and one without any ends where the bytes do.
  refine ⟨fun b room => Packet.writeType_stubList b structs all each room, ?_⟩
  intro next r fuel follows holds enough ended
  cases structs with
  | cons label value others =>
    have never := not_readsBack_cons source roomy all.1 each.1 holds enough
    exact iff_of_false never fun empty => Nat.succ_ne_zero _ empty.1
  | nil =>
    by_cases last : next = []
    · subst last
      refine iff_of_true ?_ ⟨rfl, rfl⟩
      have bounded := holds.bounded
      simp only [stubBytes, Members.itemBytes, List.append_nil, List.length_cons,
        List.length_nil] at bounded
      obtain ⟨after, peeked, same, -⟩ := peekU8_ahead (r.advance 3) (show _ + 3 < _ by omega)
      have zero : ((r.advance 3).peek 1).1 = 0 := ended rfl
      have failed : moreFields (r.advance 3) = .done (false, after) := by
        rw [moreFields, Program.bind_done peeked, zero]
        rfl
      obtain ⟨fuel, rfl⟩ : ∃ less, fuel = less + 1 := ⟨fuel - 1, by omega⟩
      unfold ReadsBack
      rw [readList_marked _ holds, Program.bind_done (Program.loop_exit fuel _ failed)]
      exact ⟨_, _, rfl, rfl, fun more => absurd rfl more⟩
    · exact iff_of_false (not_readsBack_nil follows last holds) fun empty => last empty.2

/-- A list of one struct with one field. -/
def single : Members :=
  .cons [] (.struct (.cons (ascii "BUID") (.integer 42) .nil)) .nil

set_option maxRecDepth 8192 in
theorem single_wellFormed : single.AllWellFormed :=
  ⟨⟨by decide, by simp [Members.names], (by decide : 42 < 2 ^ 55), trivial⟩, trivial⟩

theorem readsBack_iff_single :
    (∀ b : DataBuffer, b.position + (stubBytes single).length < wordBound →
      ∃ after, Packet.writeType b .list none (stubList single) = .ok after ∧
        Wrote b (stubBytes single) after) ∧
    ∀ (next : Bytes) (r : Reader) (fuel : Nat), Follows next → Holds r (stubBytes single ++ next) →
      r.buffer.size < fuel →
      (next = [] → ((r.advance (stubBytes single).length).peek 1).1 = 0) →
        (ReadsBack ⟨2 ^ 32, false⟩ fuel single next r ↔ single.length = 0 ∧ next = []) :=
  readsBack_iff rfl (Nat.le_refl _) single ⟨rfl, trivial⟩ single_wellFormed

/-- The list of one struct comes back as the list of the number that is in it. -/
theorem not_readsBack :
    ¬ ∀ (structs : Members) (next : Bytes) (r : Reader) (fuel : Nat), structs.AllOf .struct →
      structs.AllWellFormed → Follows next → Holds r (stubBytes structs ++ next) →
        r.buffer.size < fuel → ReadsBack ⟨2 ^ 32, false⟩ fuel structs next r := by
  intro always
  have held : Holds ⟨⟨stubBytes single, (stubBytes single).length, 0⟩, fun _ => 0⟩
      (stubBytes single ++ []) := ⟨⟨[], rfl⟩, by simp, by decide⟩
  have back := always single [] _ _ ⟨rfl, trivial⟩ single_wellFormed (.inl rfl) held (Nat.lt_succ_self _)
  exact not_readsBack_cons rfl (Nat.le_refl _) rfl single_wellFormed.1 held (Nat.lt_succ_self _) back

end Parser

end Recap.Blaze
