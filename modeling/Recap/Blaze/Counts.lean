import Recap.Blaze.PacketBytes

/-! The count byte of a container, next to the elements that its loop writes behind it. -/

namespace Recap.Blaze

namespace Packet

/-- One thing that a container writes behind its count. -/
inductive Element where
  | integer (value : Json)
  | item (type : Kind) (value : Json)
  | entry (keyType valueType : Kind) (name : Bytes) (value : Json)

/-- Write one element, as the loop of its container does in one round. -/
def writeElement (b : DataBuffer) : Element → Except Fault DataBuffer
  | .integer value => do return b.encodeTdfInteger (← value.getUint64)
  | .item type value => writeType b type none value
  | .entry keyType valueType name value => do
    writeType (← writeType b keyType none (.string name)) valueType none value

/-- Write elements one after another. -/
def writeElements (b : DataBuffer) : List Element → Except Fault DataBuffer
  | [] => .ok b
  | element :: rest => do writeElements (← writeElement b element) rest

/-- What the writer makes of a container: single bytes, the count, a mark for stub lists, and the elements. -/
structure Layout where
  types : List UInt8
  count : UInt8
  mark : List UInt8
  elements : List Element

/-- The bytes of a container that stand in front of its elements. -/
def Layout.head (layout : Layout) : List UInt8 := layout.types ++ layout.count :: layout.mark

/-- The types that have a count. -/
def Counted (type : Kind) : Prop := type = .integerList ∨ type = .list ∨ type = .map

/-- The layout of a container, with as many elements as its loop has rounds. -/
def layout (type : Kind) (value : Json) : Except Fault Layout :=
  match type with
  | .integerList => do
    let content ← (← value.member (ascii "_Content")).getArray
    let contentLength := content.length % 256
    return ⟨[], UInt8.ofNat contentLength, [], (content.take contentLength).map .integer⟩
  | .list => do
    let ⟨content, _⟩ ← value.contentArray
    let listType ← (← value.member (ascii "_ListType")).getUint
    let contentLength := content.length % 256
    if ← (← value.member (ascii "_Stub")).getBool then
      return ⟨[UInt8.ofNat listType], UInt8.ofNat contentLength, [0x02],
        content.map (.item (.ofNat listType))⟩
    else
      return ⟨[UInt8.ofNat listType], UInt8.ofNat contentLength, [],
        (content.take contentLength).map (.item (.ofNat listType))⟩
  | .map => do
    let ⟨content, _⟩ ← value.contentObject
    let keyType ← (← value.member (ascii "_KeyType")).getUint
    let valueType ← (← value.member (ascii "_ValueType")).getUint
    return ⟨[UInt8.ofNat keyType, UInt8.ofNat valueType], UInt8.ofNat (content.length % 256), [],
      content.map fun (name, held) => .entry (.ofNat keyType) (.ofNat valueType) name held⟩
  | _ => .error .assertion

/-! ## The loops write the elements -/

/-- The loop over an integer list writes as many integers as it is told. -/
theorem writeIntegers_eq (b : DataBuffer) (content : List Json) (count : Nat)
    (enough : count ≤ content.length) :
    writeIntegers b count content = writeElements b ((content.take count).map .integer) := by
  -- The induction follows the rounds; the content never runs out before the count does.
  induction count generalizing b content with
  | zero => rw [writeIntegers, List.take_zero, List.map_nil, writeElements]
  | succ count ih =>
    cases content with
    | nil => exact absurd enough (Nat.not_succ_le_zero _)
    | cons item rest =>
      have fewer : count ≤ rest.length := Nat.le_of_succ_le_succ enough
      rw [writeIntegers, List.take_succ_cons, List.map_cons, writeElements, writeElement]
      cases item.getUint64 with
      | error fault => rfl
      | ok value => exact ih (b.encodeTdfInteger value) rest fewer

/-- The loop over a list writes as many items as it is told. -/
theorem writeItems_eq (b : DataBuffer) (type : Kind) (content : List Json) (count : Nat)
    (enough : count ≤ content.length) :
    writeItems b type count content = writeElements b ((content.take count).map (.item type)) := by
  -- As for integers, with the writer of the list's own type.
  induction count generalizing b content with
  | zero => rw [writeItems, List.take_zero, List.map_nil, writeElements]
  | succ count ih =>
    cases content with
    | nil => exact absurd enough (Nat.not_succ_le_zero _)
    | cons item rest =>
      have fewer : count ≤ rest.length := Nat.le_of_succ_le_succ enough
      rw [writeItems, List.take_succ_cons, List.map_cons, writeElements, writeElement]
      cases writeType b type none item with
      | error fault => rfl
      | ok after => exact ih after rest fewer

/-- The loop over a map writes every entry. -/
theorem writeEntries_eq (b : DataBuffer) (keyType valueType : Kind) (content : List (Bytes × Json)) :
    writeEntries b keyType valueType content =
      writeElements b (content.map fun (name, held) => .entry keyType valueType name held) := by
  induction content generalizing b with
  | nil => rw [writeEntries, List.map_nil, writeElements]
  | cons member rest ih =>
    obtain ⟨name, held⟩ := member
    rw [writeEntries, List.map_cons, writeElements, writeElement]
    -- A round writes the key and then the value, and either may fail.
    cases writeType b keyType none (.string name) with
    | error fault => rfl
    | ok keyed =>
      simp only [Json.ok_bind]
      cases writeType keyed valueType none held with
      | error fault => rfl
      | ok after => exact ih after

/-- Writing bytes one at a time. -/
def writeEach (b : DataBuffer) (bytes : List UInt8) : DataBuffer := bytes.foldl DataBuffer.writeU8 b

/-- A container is written as its layout says: the name, the head, and the elements. -/
theorem writeType_layout {type : Kind} (counted : Counted type) (b : DataBuffer)
    (name : Option Bytes) (value : Json) :
    writeType b type name value = (do
      let laid ← layout type value
      writeElements (writeEach (writeName b name type) laid.head) laid.elements) := by
  rcases counted with rfl | rfl | rfl
  · -- An integer list is cut to its count.
    rw [writeType, layout]
    simp only [bind_assoc, pure_bind]
    refine bind_congr fun member => bind_congr fun content => ?_
    exact writeIntegers_eq _ content _ (Nat.mod_le _ _)
  · -- A list is cut to its count, unless it is a stub list.
    rw [writeType, layout]
    simp only [bind_assoc]
    refine bind_congr fun ⟨content, smaller⟩ => ?_
    simp only
    refine bind_congr fun member => bind_congr fun listType => bind_congr fun mark =>
      bind_congr fun stub => ?_
    cases stub with
    | true =>
      refine (writeItems_eq _ _ content content.length (Nat.le_refl _)).trans ?_
      rw [List.take_length]
      rfl
    | false => exact writeItems_eq _ _ content _ (Nat.mod_le _ _)
  · -- A map is never cut.
    rw [writeType, layout]
    simp only [bind_assoc]
    refine bind_congr fun ⟨content, smaller⟩ => ?_
    simp only [pure_bind]
    refine bind_congr fun member => bind_congr fun keyType => bind_congr fun member =>
      bind_congr fun valueType => ?_
    exact writeEntries_eq _ _ _ content

/-! ## When the count is right -/

/-- How many elements a container holds. -/
def size (value : Json) : Nat :=
  match value.member (ascii "_Content") with
  | .ok (.array items) => items.length
  | .ok (.object members) => members.length
  | _ => 0

/-- Whether the loop of a container stops at its count: integer lists do, and lists that are not stubs. -/
def Cut (type : Kind) (value : Json) : Prop :=
  type = .integerList ∨ type = .list ∧ value.member (ascii "_Stub") = .ok (.bool false)

/-- A byte made of a count holds the count, cut to a byte. -/
theorem count_toNat (count : Nat) : (UInt8.ofNat (count % 256)).toNat = count % 256 :=
  UInt8.toNat_ofNat_of_lt' (Nat.mod_lt _ (by decide))

/-- The content of a container that is an array counts as many elements as it has. -/
theorem size_array {value content : Json} {items : List Json}
    (found : value.member (ascii "_Content") = .ok content) (got : content.getArray = .ok items) :
    size value = items.length := by
  cases content with
  | array held =>
    cases got
    rw [size, found]
  | _ => cases got

/-- A content that is found by its name is the member of that name. -/
theorem member_of_content {value : Json} {content : { content : Json // sizeOf content < sizeOf value }}
    (got : value.content = .ok content) : value.member (ascii "_Content") = .ok content.1 := by
  cases value with
  | object members =>
    -- The same search is made either way, only that one keeps a bound with what it finds.
    rw [Json.content] at got
    rw [Json.member]
    split at got
    · rename_i held found
      cases got
      simp only [found, Option.elim_some]
    · cases got
  | _ => cases got

/-- The array that a list is written from is the one that is counted. -/
theorem size_contentArray {value : Json}
    {content : { items : List Json // sizeOf items < sizeOf value }}
    (got : value.contentArray = .ok content) : size value = content.1.length := by
  obtain ⟨⟨held, smaller⟩, found, taken⟩ := Json.bind_eq_ok got
  cases held with
  | array items =>
    cases taken
    rw [size, member_of_content found]
  | _ => cases taken

/-- The object that a map is written from is the one that is counted. -/
theorem size_contentObject {value : Json}
    {content : { members : List (Bytes × Json) // sizeOf members < sizeOf value }}
    (got : value.contentObject = .ok content) : size value = content.1.length := by
  obtain ⟨⟨held, smaller⟩, found, taken⟩ := Json.bind_eq_ok got
  cases held with
  | object members =>
    cases taken
    rw [size, member_of_content found]
  | _ => cases taken

/-- The count of a layout is the size cut to a byte, and there are as many elements unless nothing cuts them. -/
theorem layout_count {type : Kind} {value : Json} {laid : Layout} (counted : Counted type)
    (given : layout type value = .ok laid) :
    laid.count.toNat = size value % 256 ∧
      (Cut type value → laid.elements.length = size value % 256) ∧
      (¬ Cut type value → laid.elements.length = size value) := by
  rcases counted with rfl | rfl | rfl
  · -- An integer list is always cut.
    obtain ⟨member, found, given⟩ := Json.bind_eq_ok given
    obtain ⟨content, got, given⟩ := Json.bind_eq_ok given
    cases given
    have counts := size_array found got
    have cut : Cut .integerList value := .inl rfl
    refine ⟨?_, fun _ => ?_, fun uncut => absurd cut uncut⟩
    · rw [counts]
      exact count_toNat content.length
    · rw [counts, List.length_map, List.length_take]
      exact Nat.min_eq_left (Nat.mod_le _ _)
  · -- A list says itself whether it is a stub list.
    obtain ⟨⟨content, smaller⟩, got, given⟩ := Json.bind_eq_ok given
    obtain ⟨member, found, given⟩ := Json.bind_eq_ok given
    obtain ⟨listType, typed, given⟩ := Json.bind_eq_ok given
    obtain ⟨mark, marked, given⟩ := Json.bind_eq_ok given
    obtain ⟨stub, isStub, given⟩ := Json.bind_eq_ok given
    have counts := size_contentArray got
    have same : mark = .bool stub := by
      cases mark with
      | bool held =>
        cases isStub
        rfl
      | _ => cases isStub
    rw [same] at marked
    cases stub with
    | true =>
      cases given
      have uncut : ¬ Cut .list value := by
        rintro (other | ⟨-, plain⟩)
        · cases other
        · rw [marked] at plain
          cases plain
      refine ⟨?_, fun cut => absurd cut uncut, fun _ => ?_⟩
      · rw [counts]
        exact count_toNat content.length
      · rw [counts, List.length_map]
    | false =>
      cases given
      have cut : Cut .list value := .inr ⟨rfl, marked⟩
      refine ⟨?_, fun _ => ?_, fun uncut => absurd cut uncut⟩
      · rw [counts]
        exact count_toNat content.length
      · rw [counts, List.length_map, List.length_take]
        exact Nat.min_eq_left (Nat.mod_le _ _)
  · -- A map is never cut.
    obtain ⟨⟨content, smaller⟩, got, given⟩ := Json.bind_eq_ok given
    obtain ⟨member, found, given⟩ := Json.bind_eq_ok given
    obtain ⟨keyType, keyed, given⟩ := Json.bind_eq_ok given
    obtain ⟨member, found, given⟩ := Json.bind_eq_ok given
    obtain ⟨valueType, valued, given⟩ := Json.bind_eq_ok given
    cases given
    have counts := size_contentObject got
    have uncut : ¬ Cut .map value := by
      rintro (other | ⟨other, -⟩) <;> cases other
    refine ⟨?_, fun cut => absurd cut uncut, fun _ => ?_⟩
    · rw [counts]
      exact count_toNat content.length
    · rw [counts, List.length_map]

/--
The count byte is right exactly where the loop stops at it or there are fewer than 256 elements.

Whatever a container holds and wherever it is written, the writer lays out a head with one count in it.
Behind that it writes the elements of the layout, one by one.
-/
theorem counted_iff_cut_or_few {type : Kind} (counted : Counted type) (b after : DataBuffer)
    (name : Option Bytes) (value : Json) (serialised : writeType b type name value = .ok after) :
    ∃ laid, layout type value = .ok laid ∧
      writeElements (writeEach (writeName b name type) laid.head) laid.elements = .ok after ∧
      (laid.count.toNat = laid.elements.length ↔ Cut type value ∨ size value < 256) := by
  rw [writeType_layout counted] at serialised
  obtain ⟨laid, given, written⟩ := Json.bind_eq_ok serialised
  obtain ⟨count, cut, uncut⟩ := layout_count counted given
  refine ⟨laid, given, written, ?_⟩
  rw [count]
  by_cases stops : Cut type value
  · exact iff_of_true (cut stops).symm (.inl stops)
  · rw [uncut stops]
    constructor
    · intro right
      exact .inr (by omega)
    · intro few
      exact Nat.mod_eq_of_lt (few.resolve_left stops)

/-- Two integers in an integer list are counted. -/
theorem counted_iff_cut_or_few_two :
    ∃ laid, layout .integerList (.object
        [(ascii "_Content", .array [.number 5, .number 6])]) = .ok laid ∧
      writeElements (writeEach (writeName .empty none .integerList) laid.head) laid.elements =
        .ok ((((DataBuffer.empty.writeU8 2).encodeTdfInteger 5)).encodeTdfInteger 6) ∧
      (laid.count.toNat = laid.elements.length ↔ Cut .integerList (.object
        [(ascii "_Content", .array [.number 5, .number 6])]) ∨ size (.object
        [(ascii "_Content", .array [.number 5, .number 6])]) < 256) :=
  counted_iff_cut_or_few (.inl rfl) .empty _ none _ (by rw [writeType]; rfl)

/-! ## A map of 256 entries -/

/-- The entries that give each number below a bound the number zero. -/
def zeros (bound : Nat) : List (Bytes × Json) :=
  (List.range bound).map fun number => (toDecimal number, .number 0)

/-- What the builder holds for a map from integers to integers. -/
def integerMap (entries : List (Bytes × Json)) : Json := .object
  [(ascii "_Type", .number Kind.map.toNat), (ascii "_KeyType", .number Kind.integer.toNat),
    (ascii "_ValueType", .number Kind.integer.toNat), (ascii "_Content", .object entries)]

/-- How such a map is laid out. -/
theorem layout_integerMap (entries : List (Bytes × Json)) :
    layout .map (integerMap entries) = .ok ⟨[0, 0], UInt8.ofNat (entries.length % 256), [],
      entries.map fun (name, held) => .entry .integer .integer name held⟩ := by
  obtain ⟨smaller, content⟩ : ∃ smaller, (integerMap entries).contentObject =
      .ok ⟨entries, smaller⟩ := Json.contentObject_eq rfl
  rw [layout, content]
  rfl

/-- Entries with decimal keys and integer values are always written. -/
theorem writeEntries_decimal (b : DataBuffer) (numbers : List Nat)
    (words : ∀ number ∈ numbers, number < wordBound) :
    ∃ after, writeEntries b .integer .integer
      (numbers.map fun number => (toDecimal number, .number 0)) = .ok after := by
  induction numbers generalizing b with
  | nil => exact ⟨b, by rw [List.map_nil, writeEntries]⟩
  | cons number rest ih =>
    have key : writeType b .integer none (.string (toDecimal number)) =
        .ok (b.encodeTdfInteger number) := by
      simp only [writeType, writeName, Json.cString_eq (toDecimal_plain number),
        stoull_toDecimal (words number List.mem_cons_self)]
      rfl
    have held : writeType (b.encodeTdfInteger number) .integer none (.number 0) =
        .ok ((b.encodeTdfInteger number).encodeTdfInteger 0) := by
      simp only [writeType, writeName]
      rfl
    obtain ⟨after, later⟩ := ih ((b.encodeTdfInteger number).encodeTdfInteger 0)
      fun other member => words other (List.mem_cons_of_mem _ member)
    refine ⟨after, ?_⟩
    rw [List.map_cons, writeEntries, key, Json.ok_bind, held, Json.ok_bind]
    exact later

/-- A map of 256 entries is written with a count of zero in front of all of them. -/
theorem not_counted :
    ¬ ∀ (type : Kind) (b after : DataBuffer) (name : Option Bytes) (value : Json), Counted type →
      writeType b type name value = .ok after →
        ∃ laid, layout type value = .ok laid ∧
          writeElements (writeEach (writeName b name type) laid.head) laid.elements = .ok after ∧
          laid.count.toNat = laid.elements.length := by
  intro right
  have looked := layout_integerMap (zeros 256)
  obtain ⟨after, entries⟩ := writeEntries_decimal
    (writeEach (writeName .empty none .map) ([0, 0] ++ [UInt8.ofNat ((zeros 256).length % 256)]))
    (List.range 256) fun number member => by
      have small := List.mem_range.mp member
      have large : 256 < wordBound := by decide
      omega
  have written : writeType .empty .map none (integerMap (zeros 256)) = .ok after := by
    rw [writeType_layout (.inr (.inr rfl)), looked, Json.ok_bind, ← writeEntries_eq]
    exact entries
  obtain ⟨laid, given, -, count⟩ := right .map .empty after none _ (.inr (.inr rfl)) written
  rw [looked] at given
  cases given
  simp [zeros] at count

end Packet
end Recap.Blaze
