import Recap.Blaze.Counts
import Recap.Blaze.Functions
import Recap.Blaze.Serialisation

/-! Trees that are made of lists: fields, lists of integers that may be too long, and maps of texts. -/

namespace Recap.Blaze

open Packet (Call)

/-- The tree of some values under names. -/
def Members.of : List (Bytes × Value) → Members
  | [] => .nil
  | (name, value) :: rest => .cons name value (of rest)

namespace Members

theorem names_of (fields : List (Bytes × Value)) : (of fields).names = fields.map Prod.fst := by
  induction fields with
  | nil => rfl
  | cons field rest ih => rw [of, names, ih, List.map_cons]

theorem length_of (fields : List (Bytes × Value)) : (of fields).length = fields.length := by
  induction fields with
  | nil => rfl
  | cons field rest ih => rw [of, length, ih, List.length_cons]

theorem calls_of (fields : List (Bytes × Value)) :
    (of fields).calls = fields.flatMap fun field => field.2.calls field.1 := by
  induction fields with
  | nil => rfl
  | cons field rest ih => rw [of, calls, ih, List.flatMap_cons]

theorem document_of (fields : List (Bytes × Value)) :
    (of fields).document = fields.map fun field => (field.1, field.2.document) := by
  induction fields with
  | nil => rfl
  | cons field rest ih => rw [of, document, ih, List.map_cons]

theorem parsed_of (fields : List (Bytes × Value)) :
    (of fields).parsed = fields.map fun field => (field.1, field.2.parsed) := by
  induction fields with
  | nil => rfl
  | cons field rest ih => rw [of, parsed, ih, List.map_cons]

theorem allOf_of {kind : Kind} {fields : List (Bytes × Value)}
    (each : ∀ field ∈ fields, field.2.kind = kind) : (of fields).AllOf kind := by
  induction fields with
  | nil => exact trivial
  | cons field rest ih =>
    exact ⟨each field List.mem_cons_self, ih fun other member => each other (List.mem_cons_of_mem _ member)⟩

theorem allWellFormed_of {fields : List (Bytes × Value)}
    (each : ∀ field ∈ fields, field.2.WellFormed) : (of fields).AllWellFormed := by
  induction fields with
  | nil => exact trivial
  | cons field rest ih =>
    exact ⟨each field List.mem_cons_self, ih fun other member => each other (List.mem_cons_of_mem _ member)⟩

/-- Values under labels that differ are the fields of an object, if each of them is well formed. -/
theorem fields_of {fields : List (Bytes × Value)} (labels : ∀ field ∈ fields, Label field.1)
    (differ : (fields.map Prod.fst).Nodup) (each : ∀ field ∈ fields, field.2.WellFormed) :
    (of fields).Fields := by
  induction fields with
  | nil => exact trivial
  | cons field rest ih =>
    rw [List.map_cons, List.nodup_cons] at differ
    refine ⟨labels field List.mem_cons_self, ?_, each field List.mem_cons_self, ?_⟩
    · rw [names_of]
      exact differ.1
    · exact ih (fun other member => labels other (List.mem_cons_of_mem _ member)) differ.2
        fun other member => each other (List.mem_cons_of_mem _ member)

/-- The size of some fields, each with its header. -/
theorem fieldBytes_length_le (fields : List (Bytes × Value)) (most : Nat)
    (each : ∀ field ∈ fields, field.2.bytes.length ≤ most) :
    (of fields).fieldBytes.length ≤ fields.length * (most + 4) := by
  induction fields with
  | nil => exact Nat.zero_le _
  | cons field rest ih =>
    have first := each field List.mem_cons_self
    have others := ih fun other member => each other (List.mem_cons_of_mem _ member)
    simp only [of, fieldBytes, List.length_append, headerBytes_length, List.length_cons, Nat.add_mul,
      Nat.one_mul]
    omega

theorem itemBytes_length_le (fields : List (Bytes × Value)) (most : Nat)
    (each : ∀ field ∈ fields, field.2.bytes.length ≤ most) :
    (of fields).itemBytes.length ≤ fields.length * most := by
  induction fields with
  | nil => exact Nat.zero_le _
  | cons field rest ih =>
    have first := each field List.mem_cons_self
    have others := ih fun other member => each other (List.mem_cons_of_mem _ member)
    simp only [of, itemBytes, List.length_append, List.length_cons, Nat.add_mul, Nat.one_mul]
    omega

theorem entryBytes_length_le (keys : Kind) (fields : List (Bytes × Value)) (most : Nat)
    (each : ∀ field ∈ fields, (keyBytes keys field.1).length + field.2.bytes.length ≤ most) :
    ((of fields).entryBytes keys).length ≤ fields.length * most := by
  induction fields with
  | nil => exact Nat.zero_le _
  | cons field rest ih =>
    have first := each field List.mem_cons_self
    have others := ih fun other member => each other (List.mem_cons_of_mem _ member)
    simp only [of, entryBytes, List.length_append, List.length_cons, Nat.add_mul, Nat.one_mul]
    omega

end Members

/-! ## Lists of integers -/

namespace Value

/-- A list of integers. -/
def integers (values : List Nat) : Value :=
  .list .integer (.of (values.map fun value => (ascii "", .integer value)))

theorem integers_calls (label : String) (values : List Nat) :
    (integers values).calls (ascii label) = Call.integers label values := by
  rw [integers, Value.calls, Members.calls_of, List.flatMap_map]
  have single : (fun value : Nat => (Value.integer value).calls (ascii "")) =
      fun value => [Call.integer "" value] := rfl
  rw [single, ← List.map_eq_flatMap]
  rfl

/-- As many integers as the count of a list says. -/
def fewer (values : List Nat) : List Nat := values.take (values.length % 256)

theorem fewer_length (values : List Nat) : (fewer values).length = values.length % 256 := by
  rw [fewer, List.length_take]
  exact Nat.min_eq_left (Nat.mod_le _ _)

theorem integers_wellFormed {values : List Nat} (small : ∀ value ∈ values, value < 2 ^ 55) :
    (integers (fewer values)).WellFormed := by
  refine ⟨.inl rfl, ?_, Members.allOf_of fun field present => ?_,
    Members.allWellFormed_of fun field present => ?_⟩
  · rw [Members.length_of, List.length_map, fewer_length]
    omega
  · obtain ⟨value, -, rfl⟩ := List.mem_map.mp present
    rfl
  · obtain ⟨value, there, rfl⟩ := List.mem_map.mp present
    exact small value (List.mem_of_mem_take there)

theorem integers_length {values : List Nat} (small : ∀ value ∈ values, value < 2 ^ 55) :
    (integers (fewer values)).bytes.length ≤ 2600 := by
  have items := Members.itemBytes_length_le
    ((fewer values).map fun value => (ascii "", Value.integer value)) 10 fun field present => by
      obtain ⟨value, there, rfl⟩ := List.mem_map.mp present
      exact tdfBytes_length_le (Nat.lt_trans (small value (List.mem_of_mem_take there)) (by decide))
  have count := fewer_length values
  rw [List.length_map] at items
  simp only [integers, Value.bytes, List.length_append, List.length_cons, List.length_nil]
  omega

end Value

/-! ## Maps of texts -/

namespace Value

/-- A map of texts. -/
def textMap (map : TextMap) : Value :=
  .map .string .string (.of (map.toList.map fun entry => (entry.1, .string entry.2)))

theorem textMap_calls (label : String) (map : TextMap) :
    (textMap map).calls (ascii label) = Call.texts label .string map.toList := by
  rw [textMap, Value.calls, Members.calls_of, List.flatMap_map]
  have single : (fun entry : Bytes × Bytes => (Value.string entry.2).calls entry.1) =
      fun entry => [Call.putString entry.1 entry.2] := rfl
  rw [single, ← List.map_eq_flatMap]
  rfl

theorem textMap_wellFormed {map : TextMap} (few : map.toList.length ≤ 255)
    (plain : ∀ entry ∈ map.toList, Plain entry.1 ∧ Plain entry.2) : (textMap map).WellFormed := by
  refine ⟨fun name named => ?_, .inl rfl, .inr (.inl rfl), ?_, Members.allOf_of fun field present => ?_,
    Members.allWellFormed_of fun field present => ?_⟩
  · rw [Members.names_of, List.map_map] at named
    obtain ⟨entry, there, rfl⟩ := List.mem_map.mp named
    exact .inl ⟨rfl, (plain entry there).1⟩
  · rw [Members.length_of, List.length_map]
    exact few
  · obtain ⟨entry, -, rfl⟩ := List.mem_map.mp present
    rfl
  · obtain ⟨entry, there, rfl⟩ := List.mem_map.mp present
    exact (plain entry there).2

/-- A plain text takes little more than four gigabytes. -/
theorem textBytes_length_le {text : Bytes} (plain : Plain text) : (textBytes text).length ≤ 2 ^ 33 := by
  have short := plain.2
  have length : (tdfBytes (text.length + 1)).length ≤ 10 := tdfBytes_length_le (by omega)
  simp only [textBytes, List.length_append, List.length_singleton]
  omega

theorem textMap_length {map : TextMap} (few : map.toList.length ≤ 255)
    (plain : ∀ entry ∈ map.toList, Plain entry.1 ∧ Plain entry.2) :
    (textMap map).bytes.length ≤ 2 ^ 43 := by
  have entries := Members.entryBytes_length_le .string
    (map.toList.map fun entry => (entry.1, Value.string entry.2)) (2 ^ 34) fun field present => by
      obtain ⟨entry, there, rfl⟩ := List.mem_map.mp present
      have key := textBytes_length_le (plain entry there).1
      have text := textBytes_length_le (plain entry there).2
      simp only [keyBytes, Value.bytes]
      omega
  rw [List.length_map] at entries
  simp only [textMap, Value.bytes, List.length_append, List.length_cons, List.length_nil]
  omega

end Value

namespace Packet

/-- Whether two values are written in the same way. -/
def WrittenAlike (value other : Value) : Prop :=
  ∀ b name, write b name value.document = write b name other.document

theorem WrittenAlike.refl (value : Value) : WrittenAlike value value := fun _ _ => rfl

/-- A list of integers is laid out with its count and with as many of them as that says. -/
theorem layout_integers (values : List Nat) :
    layout .list (Value.integers values).document = .ok ⟨[UInt8.ofNat Kind.integer.toNat],
      UInt8.ofNat (values.length % 256), [],
      (Value.fewer values).map fun value => .item .integer (.number value)⟩ := by
  -- The document gets a name of its own, so that unfolding the layout does not go into it.
  have items : ((Members.of (values.map fun value => (ascii "", .integer value))).document.map
      Prod.snd) = values.map Json.number := by
    simp only [Members.document_of, List.map_map]
    rfl
  have document : (Value.integers values).document = .object
      [(ascii "_Type", .number Kind.list.toNat), (ascii "_ListType", .number Kind.integer.toNat),
        (ascii "_Content", .array (values.map Json.number)), (ascii "_Stub", .bool false)] := by
    rw [Value.integers, Value.document, items]
  rw [document]
  generalize made : Json.object [(ascii "_Type", .number Kind.list.toNat),
    (ascii "_ListType", .number Kind.integer.toNat),
    (ascii "_Content", .array (values.map Json.number)), (ascii "_Stub", .bool false)] = value
  obtain ⟨smaller, content⟩ : ∃ smaller, value.contentArray = .ok ⟨values.map Json.number, smaller⟩ := by
    subst made
    exact Json.contentArray_eq rfl
  have typed : value.member (ascii "_ListType") = .ok (.number Kind.integer.toNat) := by
    subst made
    rfl
  have marked : value.member (ascii "_Stub") = .ok (.bool false) := by
    subst made
    rfl
  have named : (Json.number Kind.integer.toNat).getUint = .ok Kind.integer.toNat := getUint_eq (by decide)
  simp only [layout, content, typed, marked, named, Json.ok_bind, Json.getBool, Bool.false_eq_true,
    if_false, List.length_map, ← List.map_take, List.map_map]
  rfl

/-- A list that is too long is written as the part of it that its count says. -/
theorem integers_alike (values : List Nat) :
    WrittenAlike (Value.integers values) (Value.integers (Value.fewer values)) := by
  intro b name
  have again : Value.fewer (Value.fewer values) = Value.fewer values := by
    rw [Value.fewer, Value.fewer_length, Nat.mod_mod, ← Value.fewer_length, List.take_length]
  have count : (Value.fewer values).length % 256 = values.length % 256 := by
    rw [Value.fewer_length, Nat.mod_mod]
  have list : ∀ held, (Value.integers held).kind = .list := fun _ => rfl
  rw [write_value, write_value, list, list, writeType_layout (.inr (.inl rfl)),
    writeType_layout (.inr (.inl rfl)), layout_integers, layout_integers, again, count]

/-- Fields that are written alike one by one are written alike. -/
theorem writeMembers_alike {fields others : List (Bytes × Value)}
    (alike : List.Forall₂ (fun field other => field.1 = other.1 ∧ WrittenAlike field.2 other.2) fields
      others) (b : DataBuffer) :
    writeMembers b (Members.of fields).document = writeMembers b (Members.of others).document := by
  induction alike generalizing b with
  | nil => rfl
  | @cons field other fields others first _ ih =>
    rw [Members.of, Members.of, Members.document, Members.document, writeMembers, writeMembers, first.1,
      first.2]
    exact bind_congr fun after => ih after

end Packet
end Recap.Blaze
