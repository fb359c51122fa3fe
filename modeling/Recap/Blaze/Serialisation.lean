import Recap.Blaze.Functions
import Recap.Blaze.Texts
import Recap.Lib.Succeeds

/-! Which of the structures that packets are made of can be laid out as bytes. -/

namespace Recap.Blaze

open Packet (Call)

/-! ## Texts that are converted to numbers -/

/-- What stands behind the space and the sign that a text may start with. -/
def unsigned (text : Bytes) : Bytes :=
  match text.dropWhile isSpace with
  | 45 :: rest => rest
  | 43 :: rest => rest
  | text => text

/-- Whether a text starts with a number, which fits in 64 bits. -/
def Numeral (text : Bytes) : Prop :=
  (unsignedDigits (unsigned text)).2 ≠ [] ∧
    digitsValue (unsignedDigits (unsigned text)).1 (unsignedDigits (unsigned text)).2 < wordBound

instance (text : Bytes) : Decidable (Numeral text) := inferInstanceAs (Decidable (_ ∧ _))

private theorem conversion_returns (negative : Bool) (base : Nat) (digits : List Nat) :
    (∃ value, (if digits = [] then (.error .invalidArgument : Except Fault Nat)
      else if wordBound ≤ digitsValue base digits then .error .outOfRange
      else .ok (if negative then (wordBound - digitsValue base digits) % wordBound
        else digitsValue base digits)) = .ok value) ↔
      digits ≠ [] ∧ digitsValue base digits < wordBound := by
  by_cases none : digits = []
  · -- Without digits nothing is converted.
    simp [none]
  · by_cases large : wordBound ≤ digitsValue base digits
    · rw [if_neg none, if_pos large]
      simp [Nat.not_lt.mpr large]
    · rw [if_neg none, if_neg large]
      exact iff_of_true ⟨_, rfl⟩ ⟨none, Nat.not_le.mp large⟩

/-- A text is converted exactly when it starts with a number that fits. -/
theorem stoull_returns_iff (text : Bytes) : (∃ value, stoull text = .ok value) ↔ Numeral text := by
  -- The sign is taken off in the same way on both sides.
  unfold stoull
  dsimp only
  split
  · rename_i behind starts
    have left : unsigned text = behind := by
      rw [unsigned, starts]
      rfl
    rw [Numeral, left]
    exact conversion_returns _ _ _
  · rename_i behind starts
    have left : unsigned text = behind := by
      rw [unsigned, starts]
      rfl
    rw [Numeral, left]
    exact conversion_returns _ _ _
  · rename_i noMinus noPlus
    have left : unsigned text = text.dropWhile isSpace := by
      unfold unsigned
      split
      · rename_i behind starts
        exact absurd starts (noMinus behind)
      · rename_i behind starts
        exact absurd starts (noPlus behind)
      · rfl
    rw [Numeral, left]
    exact conversion_returns _ _ _

/-- A decimal number is converted back. -/
theorem numeral_toDecimal {value : Nat} (word : value < wordBound) :
    Numeral (Json.cString (toDecimal value)) := by
  rw [Json.cString_eq (toDecimal_plain value), ← stoull_returns_iff]
  exact ⟨value, stoull_toDecimal word⟩

namespace Packet

open Json

/-! ## Writers that return -/

/-- Whether a writer returns exactly under a condition, whatever it adds to. -/
def Returns (writer : DataBuffer → Except Fault DataBuffer) (condition : Prop) : Prop :=
  ∀ b, Succeeds (writer b) condition

/-- A writer that always returns. -/
theorem Returns.always {writer : DataBuffer → Except Fault DataBuffer} (after : DataBuffer → DataBuffer)
    (written : ∀ b, writer b = .ok (after b)) : Returns writer True :=
  fun b => iff_of_true ⟨after b, written b⟩ trivial

/-- Two writers in sequence return where both of them do. -/
theorem Returns.bind {first second : DataBuffer → Except Fault DataBuffer} {one other : Prop}
    (before : Returns first one) (behind : Returns second other) :
    Returns (fun b => first b >>= second) (one ∧ other) :=
  fun b => (before b).bind behind

/-- What is done to the buffer beforehand does not matter. -/
theorem Returns.after {writer : DataBuffer → Except Fault DataBuffer} {condition : Prop}
    (returns : Returns writer condition) (change : DataBuffer → DataBuffer) :
    Returns (fun b => writer (change b)) condition :=
  fun b => returns (change b)

/-- Neither does what is done to it afterwards. -/
theorem Returns.before {writer : DataBuffer → Except Fault DataBuffer} {condition : Prop}
    (returns : Returns writer condition) (change : DataBuffer → DataBuffer) :
    Returns (fun b => do return change (← writer b)) condition :=
  fun b => (returns b).map change

/-- Writers are compared by what they do. -/
theorem Returns.congr {writer other : DataBuffer → Except Fault DataBuffer} {condition : Prop}
    (returns : Returns writer condition) (same : ∀ b, other b = writer b) : Returns other condition := by
  intro b
  rw [same]
  exact returns b

/-- Conditions may be put in other words. -/
theorem Returns.iff {writer : DataBuffer → Except Fault DataBuffer} {condition other : Prop}
    (returns : Returns writer condition) (same : condition ↔ other) : Returns writer other :=
  fun b => (returns b).trans same

/-! ## Calls that add values -/

/-- Whether some calls add some values, wherever they are made. -/
def Adds (sequence : List Call) (added : List (Bytes × Json)) : Prop :=
  ∀ packet : Packet, packet.calls sequence =
    { packet with document := modifyAt (·.addAll added) packet.depth packet.document }

theorem Adds.nil : Adds [] [] := by
  intro packet
  have same : (fun parent : Json => parent.addAll []) = fun parent => parent := rfl
  rw [same, modifyAt_same]
  rfl

theorem Adds.append {first second : List Call} {held added : List (Bytes × Json)}
    (before : Adds first held) (behind : Adds second added) :
    Adds (first ++ second) (held ++ added) := by
  intro packet
  have joined : (fun parent : Json => parent.addAll (held ++ added)) =
      fun parent => (parent.addAll held).addAll added :=
    funext fun parent => List.foldl_append
  rw [calls_append, before, behind, joined]
  simp only [modifyAt_modifyAt]

/-- Calls that put one value, which a list or map of a type writes exactly under a condition. -/
def Item (sequence : List Call) (label : Bytes) (kind : Kind) (condition : Prop) : Prop :=
  ∃ value, Adds sequence [(label, value)] ∧ Returns (fun b => writeType b kind none value) condition

/-- Calls that put one value of a type, which is written exactly under a condition. -/
def Puts (sequence : List Call) (label : Bytes) (kind : Kind) (condition : Prop) : Prop :=
  ∃ value, Adds sequence [(label, value)] ∧
    (∀ b name, write b name value = writeType b kind name value) ∧
    ∀ name, Returns (fun b => writeType b kind name value) condition

/-- Calls that add values, which are written exactly under a condition. -/
def Serialises (sequence : List Call) (condition : Prop) : Prop :=
  ∃ added, Adds sequence added ∧ Returns (fun b => writeMembers b added) condition

/-- Calls that add values which are always written. -/
abbrev Serialisable (sequence : List Call) : Prop := Serialises sequence True

theorem Puts.item {sequence : List Call} {label : Bytes} {kind : Kind} {condition : Prop}
    (puts : Puts sequence label kind condition) : Item sequence label kind condition := by
  obtain ⟨value, adds, -, returns⟩ := puts
  exact ⟨value, adds, returns none⟩

theorem Serialises.nil : Serialisable [] :=
  ⟨[], Adds.nil, Returns.always id fun b => by rw [writeMembers]; rfl⟩

/-- Members are written one after another. -/
theorem writeMembers_append (b : DataBuffer) (held added : List (Bytes × Json)) :
    writeMembers b (held ++ added) = writeMembers b held >>= fun b => writeMembers b added := by
  induction held generalizing b with
  | nil => rw [List.nil_append, writeMembers, ok_bind]
  | cons member rest ih =>
    obtain ⟨name, value⟩ := member
    rw [List.cons_append, writeMembers, writeMembers, bind_assoc]
    exact bind_congr fun after => ih after

theorem Serialises.append {first second : List Call} {one other : Prop}
    (before : Serialises first one) (behind : Serialises second other) :
    Serialises (first ++ second) (one ∧ other) := by
  obtain ⟨held, adds, returns⟩ := before
  obtain ⟨added, next, later⟩ := behind
  exact ⟨held ++ added, adds.append next,
    (returns.bind later).congr fun b => writeMembers_append b held added⟩

/-- Conditions may be put in other words. -/
theorem Serialises.iff {sequence : List Call} {condition other : Prop}
    (serialises : Serialises sequence condition) (same : condition ↔ other) :
    Serialises sequence other := by
  obtain ⟨added, adds, returns⟩ := serialises
  exact ⟨added, adds, returns.iff same⟩

/-- What is always written adds nothing to the condition. -/
theorem Serialises.then {first second : List Call} {condition : Prop}
    (before : Serialises first condition) (behind : Serialisable second) :
    Serialises (first ++ second) condition :=
  (before.append behind).iff (iff_of_eq (and_true condition))

theorem Puts.serialises {sequence : List Call} {label : Bytes} {kind : Kind} {condition : Prop}
    (puts : Puts sequence label kind condition) : Serialises sequence condition := by
  obtain ⟨value, adds, own, returns⟩ := puts
  refine ⟨[(label, value)], adds, ?_⟩
  refine (returns (some label)).congr fun b => ?_
  rw [writeMembers, own]
  cases writeType b kind (some label) value with
  | error fault => rfl
  | ok after => rw [ok_bind, writeMembers]

/-! ## Single values -/

/-- Whether a value has no content that others are put into. -/
def Single : Value → Prop
  | .integer _ | .string _ | .blob _ | .objectType _ _ | .objectId _ _ _ => True
  | _ => False

/-- A single value is always written. -/
theorem Puts.single (label : Bytes) (value : Value) (single : Single value) :
    Puts (value.calls label) label value.kind True := by
  -- Each kind looks up the members that its own document has.
  refine ⟨value.document, fun packet => packet.calls_value label value, fun b name =>
    write_value b name value, fun name b => iff_of_true ?_ trivial⟩
  cases value with
  | integer value =>
    simp only [Value.kind, Value.document, writeType, getUint64]
    exact ⟨_, rfl⟩
  | string text =>
    simp only [Value.kind, Value.document, ofText, writeType, getString]
    exact ⟨_, rfl⟩
  | blob data =>
    have content : (Value.blob data).document.member (ascii "_Content") = .ok (.ofText data) := rfl
    simp only [Value.kind, writeType, content, ok_bind, ofText, getString]
    exact ⟨_, rfl⟩
  | objectType x y =>
    have first : (Value.objectType x y).document.member (ascii "_X") = .ok (.number x) := rfl
    have second : (Value.objectType x y).document.member (ascii "_Y") = .ok (.number y) := rfl
    simp only [Value.kind, writeType, first, second, ok_bind, getUint64]
    exact ⟨_, rfl⟩
  | objectId x y z =>
    have first : (Value.objectId x y z).document.member (ascii "_X") = .ok (.number x) := rfl
    have second : (Value.objectId x y z).document.member (ascii "_Y") = .ok (.number y) := rfl
    have third : (Value.objectId x y z).document.member (ascii "_Z") = .ok (.number z) := rfl
    simp only [Value.kind, writeType, first, second, third, ok_bind, getUint64]
    exact ⟨_, rfl⟩
  | _ => exact single.elim

/-- A text that stands in a list of integers is written where it starts with a number. -/
theorem Item.text (label text : Bytes) :
    Item [.putString label text] label .integer (Numeral (cutText text)) := by
  refine ⟨.ofText text, fun _ => rfl, fun b => ?_⟩
  rw [← stoull_returns_iff]
  simp only [ofText, writeType, cutText]
  cases stoull (cString (text.take (text.length % sizeBound))) with
  | error fault =>
    constructor
    · intro returned
      obtain ⟨after, done⟩ := returned
      cases done
    · intro returned
      obtain ⟨value, done⟩ := returned
      cases done
  | ok value => exact iff_of_true ⟨_, rfl⟩ ⟨value, rfl⟩

/-- Whether a call puts a single value. -/
def Leaf : Call → Prop
  | .putInteger _ _ | .putString _ _ | .putBlob _ _ | .putObjectType _ _ _ | .putObjectId _ _ _ _ => True
  | _ => False

theorem Leaf.serialisable {call : Call} (leaf : Leaf call) : Serialisable [call] := by
  cases call with
  | putInteger label value => exact (Puts.single label (.integer value) trivial).serialises
  | putString label value => exact (Puts.single label (.string value) trivial).serialises
  | putBlob label data => exact (Puts.single label (.blob data) trivial).serialises
  | putObjectType label x y =>
    exact (Puts.single label (.objectType x y) trivial).serialises
  | putObjectId label x y z =>
    exact (Puts.single label (.objectId x y z) trivial).serialises
  | _ => exact leaf.elim

/-- Single values are always written. -/
theorem Serialises.leaves {sequence : List Call} (each : ∀ call ∈ sequence, Leaf call) :
    Serialisable sequence := by
  induction sequence with
  | nil => exact Serialises.nil
  | cons call rest ih =>
    have first := (each call List.mem_cons_self).serialisable
    exact first.then (ih fun other member => each other (List.mem_cons_of_mem _ member))

/-! ## Containers -/

/-- A container that is filled is put as a value with what it is filled with. -/
theorem Adds.container {label : Bytes} {value : Json} {push : Call} {filling : List Call}
    {added : List (Bytes × Json)} (pushes : ∀ packet : Packet, packet.call push = packet.push label value)
    (fills : Adds filling added) :
    Adds (Call.inside push filling) [(label, modifyContent (·.addAll added) value)] := by
  intro packet
  have first : packet.calls (Call.inside push filling) =
      (packet.push label value).calls (filling ++ [.pop]) := by
    rw [← pushes]
    rfl
  rw [first]
  exact packet.calls_container label value filling added fills

/-- What a list or map of a type is filled with, value by value. -/
theorem Adds.each {α : Type} {values : List α} {item : α → List Call} {label : α → Bytes} {kind : Kind}
    {condition : α → Prop}
    (each : ∀ value ∈ values, Item (item value) (label value) kind (condition value)) :
    ∃ held : List Json, Adds (values.flatMap item) ((values.map label).zip held) ∧
      List.Forall₂ (fun value json => Returns (fun b => writeType b kind none json) (condition value))
        values held := by
  induction values with
  | nil => exact ⟨[], Adds.nil, .nil⟩
  | cons value rest ih =>
    obtain ⟨json, adds, returns⟩ := each value List.mem_cons_self
    obtain ⟨held, more, others⟩ := ih fun other member => each other (List.mem_cons_of_mem _ member)
    exact ⟨json :: held, adds.append more, .cons returns others⟩

/-- A struct is written where its fields are. -/
theorem Puts.struct {filling : List Call} {condition : Prop} (label : Bytes)
    (fields : Serialises filling condition) :
    Puts (Call.inside (.pushStruct label) filling) label .struct condition := by
  obtain ⟨added, adds, returns⟩ := fields
  have type : ascii "_Type" ≠ ascii "_Content" := by decide
  refine ⟨_, adds.container fun _ => rfl, ?_⟩
  simp only [modifyContent, modifyFirst, if_neg type, if_true, addAll_object, List.nil_append]
  generalize made : Json.object [(ascii "_Type", .number Kind.struct.toNat),
    (ascii "_Content", .object added)] = value
  obtain ⟨smaller, content⟩ : ∃ smaller, value.contentObject = .ok ⟨added, smaller⟩ := by
    subst made
    exact contentObject_eq rfl
  refine ⟨fun b name => ?_, fun name => ?_⟩
  · subst made
    rw [write]
    rfl
  · refine ((returns.before fun b => b.writeU8 0).after fun b => writeName b name .struct).congr
      fun b => ?_
    simp only [writeType, content, ok_bind]

/-- A union is written where its content is, and always where it is unset. -/
theorem Puts.union {filling : List Call} (label : Bytes) (addressMember : Nat)
    (small : addressMember < 2 ^ 32) (content : Serialisable filling) :
    Puts (Call.inside (.pushUnion label addressMember) filling) label .union True := by
  -- The content is only written where the union is set.
  obtain ⟨added, adds, returns⟩ := content
  have type : ascii "_Type" ≠ ascii "_Content" := by decide
  have member : ascii "_AddressMember" ≠ ascii "_Content" := by decide
  refine ⟨_, adds.container fun _ => rfl, ?_⟩
  simp only [modifyContent, modifyFirst, if_neg type, if_neg member, if_true, addAll_object,
    List.nil_append]
  generalize made : Json.object [(ascii "_Type", .number Kind.union.toNat),
    (ascii "_AddressMember", .number addressMember), (ascii "_Content", .object added)] = value
  obtain ⟨smaller, content⟩ : ∃ smaller, value.contentObject = .ok ⟨added, smaller⟩ := by
    subst made
    exact contentObject_eq rfl
  have held : value.member (ascii "_AddressMember") = .ok (.number addressMember) := by
    subst made
    rfl
  refine ⟨fun b name => ?_, fun name b => iff_of_true ?_ trivial⟩
  · subst made
    rw [write]
    rfl
  · simp only [writeType, held, content, ok_bind, getUint_eq small]
    by_cases unset : addressMember = addressUnset
    · rw [if_neg (fun other => other unset)]
      exact ⟨_, rfl⟩
    · rw [if_pos unset]
      exact (returns _).mpr trivial

/-- An integer list that nothing is put into is written. -/
theorem Puts.noIntegers (label : Bytes) :
    Puts (Call.inside (.pushIntegerList label) []) label .integerList True := by
  refine ⟨_, Adds.nil.container fun _ => rfl, fun b name => ?_, fun name => ?_⟩
  · rw [modifyContent, write]
    rfl
  · refine Returns.always (fun b => (writeName b name .integerList).writeU8 0) fun b => ?_
    have content : (modifyContent (·.addAll []) (.object [(ascii "_Type",
        .number Kind.integerList.toNat), (ascii "_Content", .array [])])).member (ascii "_Content") =
        .ok (.array []) := rfl
    simp only [writeType, content, ok_bind, getArray, List.length_nil, Nat.zero_mod, writeIntegers]
    rfl

/-- The loop over a list returns where all of the items return that it comes to. -/
theorem writeItems_returns {α : Type} {kind : Kind} {values : List α} {condition : α → Prop}
    {held : List Json} (each : List.Forall₂
      (fun value json => Returns (fun b => writeType b kind none json) (condition value)) values held)
    {count : Nat} (enough : count ≤ values.length) :
    Returns (fun b => writeItems b kind count held) (∀ value ∈ values.take count, condition value) := by
  induction each generalizing count with
  | nil =>
    have none : count = 0 := Nat.le_zero.mp enough
    subst none
    refine (Returns.always id fun b => ?_).iff (by simp)
    rw [writeItems]
    rfl
  | cons first _ ih =>
    cases count with
    | zero =>
      refine (Returns.always id fun b => ?_).iff (by simp)
      rw [writeItems]
      rfl
    | succ count =>
      have rest := ih (Nat.le_of_succ_le_succ enough)
      refine ((first.bind rest).congr fun b => ?_).iff ?_
      · rw [writeItems]
      · rw [List.take_succ_cons, List.forall_mem_cons]

/-- Types whose numbers stand for them. -/
def Named (kind : Kind) : Prop := kind.toNat < 2 ^ 32 ∧ Kind.ofNat kind.toNat = kind

/-- How many items of a list are written. -/
def itemRounds (stub : Bool) (length : Nat) : Nat := if stub then length else length % 256

/-- A list is written where those of its items are that its loop comes to. -/
theorem Puts.list {α : Type} (label : Bytes) (kind : Kind) (stub : Bool) (named : Named kind)
    (values : List α) {item : α → List Call} {name : α → Bytes} {condition : α → Prop}
    (each : ∀ value ∈ values, Item (item value) (name value) kind (condition value)) :
    Puts (Call.inside (.pushList label kind stub) (values.flatMap item)) label .list
      (∀ value ∈ values.take (itemRounds stub values.length), condition value) := by
  -- The loop comes to all items of a stub list, and otherwise to as many as the byte for the count
  -- says.
  obtain ⟨held, adds, returns⟩ := Adds.each each
  have same : values.length = held.length := returns.length_eq
  have seconds : ((values.map name).zip held).map Prod.snd = held :=
    List.map_snd_zip (by rw [List.length_map, same])
  have type : ascii "_Type" ≠ ascii "_Content" := by decide
  have listType : ascii "_ListType" ≠ ascii "_Content" := by decide
  refine ⟨_, adds.container fun _ => rfl, ?_⟩
  simp only [modifyContent, modifyFirst, if_neg type, if_neg listType, if_true, addAll_array,
    List.nil_append, seconds]
  generalize made : Json.object [(ascii "_Type", .number Kind.list.toNat),
    (ascii "_ListType", .number kind.toNat), (ascii "_Content", .array held),
    (ascii "_Stub", .bool stub)] = value
  obtain ⟨smaller, content⟩ : ∃ smaller, value.contentArray = .ok ⟨held, smaller⟩ := by
    subst made
    exact contentArray_eq rfl
  have typed : value.member (ascii "_ListType") = .ok (.number kind.toNat) := by
    subst made
    rfl
  have marked : value.member (ascii "_Stub") = .ok (.bool stub) := by
    subst made
    rfl
  refine ⟨fun b name => ?_, fun name => ?_⟩
  · subst made
    rw [write]
    rfl
  · have most : itemRounds stub values.length ≤ values.length := by
      unfold itemRounds
      split
      · exact Nat.le_refl _
      · exact Nat.mod_le _ _
    have items := writeItems_returns returns most
    cases stub with
    | true =>
      refine (items.after fun b => (((writeName b name .list).writeU8 (UInt8.ofNat kind.toNat)).writeU8
        (UInt8.ofNat (held.length % 256))).writeU8 0x02).congr fun b => ?_
      simp only [writeType, content, typed, marked, ok_bind, getUint_eq named.1, getBool, if_true,
        named.2, itemRounds, same]
    | false =>
      refine (items.after fun b => ((writeName b name .list).writeU8 (UInt8.ofNat kind.toNat)).writeU8
        (UInt8.ofNat (held.length % 256))).congr fun b => ?_
      simp only [writeType, content, typed, marked, ok_bind, getUint_eq named.1, getBool,
        Bool.false_eq_true, if_false, named.2, itemRounds, same]

/-- Whether a name can be written as a key of a type. -/
def KeyFits (keys : Kind) (name : Bytes) : Prop := keys = .integer → Numeral (cString name)

/-- A key of a map is written where it starts with a number, if its map asks for integers. -/
theorem writeType_returns_key {keys : Kind} (key : keys = .integer ∨ keys = .string) (name : Bytes) :
    Returns (fun b => writeType b keys none (.string name)) (KeyFits keys name) := by
  intro b
  rcases key with rfl | rfl
  · rw [KeyFits, forall_prop_of_true rfl, ← stoull_returns_iff]
    simp only [writeType]
    cases stoull (cString name) with
    | error fault =>
      constructor
      · intro ⟨after, done⟩
        cases done
      · intro ⟨value, done⟩
        cases done
    | ok value => exact iff_of_true ⟨_, rfl⟩ ⟨value, rfl⟩
  · simp only [writeType, getString]
    refine iff_of_true ⟨_, rfl⟩ fun other => ?_
    cases other

/-- The loop over a map returns where all keys and all values are written. -/
theorem writeEntries_returns {α : Type} {keys kind : Kind} (key : keys = .integer ∨ keys = .string)
    {entries : List α} {label : α → Bytes} {condition : α → Prop} {held : List Json}
    (each : List.Forall₂
      (fun entry json => Returns (fun b => writeType b kind none json) (condition entry)) entries held) :
    Returns (fun b => writeEntries b keys kind ((entries.map label).zip held))
      (∀ entry ∈ entries, KeyFits keys (label entry) ∧ condition entry) := by
  induction each with
  | nil =>
    refine (Returns.always id fun b => ?_).iff (by simp)
    rw [List.map_nil, List.zip_nil_left, writeEntries]
    rfl
  | @cons entry json entries held first _ ih =>
    refine ((((writeType_returns_key key (label entry)).bind first).bind ih).congr fun b => ?_).iff ?_
    · rw [List.map_cons, List.zip_cons_cons, writeEntries, bind_assoc]
    · rw [List.forall_mem_cons]

/-- A map is written where its keys fit and its values are written. -/
theorem Puts.map {α : Type} (label : Bytes) (keys kind : Kind) (key : keys = .integer ∨ keys = .string)
    (named : Named kind) (entries : List α) {item : α → List Call} {name : α → Bytes}
    {condition : α → Prop}
    (each : ∀ entry ∈ entries, Item (item entry) (name entry) kind (condition entry)) :
    Puts (Call.inside (.pushMap label keys kind) (entries.flatMap item)) label .map
      (∀ entry ∈ entries, KeyFits keys (name entry) ∧ condition entry) := by
  -- The count is only a byte, but the loop goes through all of the entries.
  obtain ⟨held, adds, returns⟩ := Adds.each each
  have keyNamed : Named keys := by
    rcases key with rfl | rfl
    · exact ⟨by decide, rfl⟩
    · exact ⟨by decide, rfl⟩
  have type : ascii "_Type" ≠ ascii "_Content" := by decide
  have keyType : ascii "_KeyType" ≠ ascii "_Content" := by decide
  have valueType : ascii "_ValueType" ≠ ascii "_Content" := by decide
  refine ⟨_, adds.container fun _ => rfl, ?_⟩
  simp only [modifyContent, modifyFirst, if_neg type, if_neg keyType, if_neg valueType, if_true,
    addAll_object, List.nil_append]
  generalize made : Json.object [(ascii "_Type", .number Kind.map.toNat),
    (ascii "_KeyType", .number keys.toNat), (ascii "_ValueType", .number kind.toNat),
    (ascii "_Content", .object ((entries.map name).zip held))] = value
  obtain ⟨smaller, content⟩ : ∃ smaller, value.contentObject =
      .ok ⟨(entries.map name).zip held, smaller⟩ := by
    subst made
    exact contentObject_eq rfl
  have keyed : value.member (ascii "_KeyType") = .ok (.number keys.toNat) := by
    subst made
    rfl
  have valued : value.member (ascii "_ValueType") = .ok (.number kind.toNat) := by
    subst made
    rfl
  refine ⟨fun b under => ?_, fun under => ?_⟩
  · subst made
    rw [write]
    rfl
  · refine ((writeEntries_returns key returns).after fun b => (((writeName b under .map).writeU8
      (UInt8.ofNat keys.toNat)).writeU8 (UInt8.ofNat kind.toNat)).writeU8
      (UInt8.ofNat (((entries.map name).zip held).length % 256))).congr fun b => ?_
    simp only [writeType, content, keyed, valued, ok_bind, getUint_eq named.1, getUint_eq keyNamed.1,
      named.2, keyNamed.2]

/-- A packet that is built by calls alone is written where what they add is. -/
theorem Serialises.writeAll {sequence : List Call} {condition : Prop}
    (serialises : Serialises sequence condition) :
    Returns (fun b => (Packet.empty.calls sequence).writeAll b) condition := by
  obtain ⟨added, adds, returns⟩ := serialises
  have built : (Packet.empty.calls sequence).document = .object added := by
    rw [adds]
    simp only [Packet.empty, modifyAt, addAll_object, List.nil_append]
  refine returns.congr fun b => ?_
  rw [Packet.writeAll, built]
  rfl

end Packet
end Recap.Blaze
