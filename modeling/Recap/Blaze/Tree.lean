import Recap.Blaze.Packet
import Recap.Core.TdfInteger

/-! Packet trees, with the calls, the bytes, and the two documents that stand for each of them. -/

namespace Recap.Blaze

mutual

/-- A value of a packet, with everything nested in it. -/
inductive Value where
  | integer (value : Nat)
  | string (text : Bytes)
  | blob (data : Bytes)
  | struct (fields : Members)
  | list (items : Kind) (elements : Members)
  | integerList (elements : Members)
  | map (keys values : Kind) (entries : Members)
  | union (addressMember : Nat) (content : Members)
  | objectType (x y : Nat)
  | objectId (x y z : Nat)

/--
Values under names, in order.

In a list the names are those that its elements are put with, and nothing keeps them.
In a map they are the keys.
-/
inductive Members where
  | nil
  | cons (name : Bytes) (value : Value) (rest : Members)

end

/-- The type that a value is written under. -/
def Value.kind : Value → Kind
  | integer _ => .integer
  | string _ => .string
  | blob _ => .binary
  | struct _ => .struct
  | list _ _ => .list
  | integerList _ => .integerList
  | map _ _ _ => .map
  | union _ _ => .union
  | objectType _ _ => .objectType
  | objectId _ _ _ => .objectId

namespace Members

/-- How many values there are. -/
def length : Members → Nat
  | nil => 0
  | cons _ _ rest => rest.length + 1

/-- The names in order. -/
def names : Members → List Bytes
  | nil => []
  | cons name _ rest => name :: rest.names

/-- Whether every value is of one type. -/
def AllOf (kind : Kind) : Members → Prop
  | nil => True
  | cons _ value rest => value.kind = kind ∧ rest.AllOf kind

end Members

/-! ## The calls that build a tree -/

open Packet in
mutual

/-- The calls that put a value under a label. -/
def Value.calls (label : Bytes) : Value → List Call
  | .integer value => [.putInteger label value]
  | .string text => [.putString label text]
  | .blob data => [.putBlob label data]
  | .struct fields => .pushStruct label :: (fields.calls ++ [.pop])
  | .list items elements => .pushList label items false :: (elements.calls ++ [.pop])
  | .integerList elements => .pushIntegerList label :: (elements.calls ++ [.pop])
  | .map keys values entries => .pushMap label keys values :: (entries.calls ++ [.pop])
  | .union addressMember content => .pushUnion label addressMember :: (content.calls ++ [.pop])
  | .objectType x y => [.putObjectType label x y]
  | .objectId x y z => [.putObjectId label x y z]

/-- The calls that put values one after another. -/
def Members.calls : Members → List Call
  | .nil => []
  | .cons name value rest => value.calls name ++ rest.calls

end

/-! ## The document that the builder makes -/

mutual

/-- What the builder holds for a value. -/
def Value.document : Value → Json
  | .integer value => .number value
  | .string text => .ofText text
  | .blob data => .object
      [(ascii "_Type", .number Kind.binary.toNat), (ascii "_Content", .ofText data)]
  | .struct fields => .object
      [(ascii "_Type", .number Kind.struct.toNat), (ascii "_Content", .object fields.document)]
  | .list items elements => .object
      [(ascii "_Type", .number Kind.list.toNat), (ascii "_ListType", .number items.toNat),
        (ascii "_Content", .array (elements.document.map Prod.snd)), (ascii "_Stub", .bool false)]
  | .integerList elements => .object
      [(ascii "_Type", .number Kind.integerList.toNat),
        (ascii "_Content", .array (elements.document.map Prod.snd))]
  | .map keys values entries => .object
      [(ascii "_Type", .number Kind.map.toNat), (ascii "_KeyType", .number keys.toNat),
        (ascii "_ValueType", .number values.toNat), (ascii "_Content", .object entries.document)]
  | .union addressMember content => .object
      [(ascii "_Type", .number Kind.union.toNat), (ascii "_AddressMember", .number addressMember),
        (ascii "_Content", .object content.document)]
  | .objectType x y => .object
      [(ascii "_Type", .number Kind.objectType.toNat), (ascii "_X", .number x),
        (ascii "_Y", .number y)]
  | .objectId x y z => .object
      [(ascii "_Type", .number Kind.objectId.toNat), (ascii "_X", .number x),
        (ascii "_Y", .number y), (ascii "_Z", .number z)]

/-- What the builder holds for values under names. -/
def Members.document : Members → List (Bytes × Json)
  | .nil => []
  | .cons name value rest => (name, value.document) :: rest.document

end

/-! ## The document that the parser makes -/

mutual

/--
What the parser makes of a value.

Fields stand next to the type of their struct, and so does the member of a union.
Lists and maps come with their size, and a blob comes as a plain string.
-/
def Value.parsed : Value → Json
  | .integer value => .number value
  | .string text => .string text
  | .blob data => .string data
  | .struct fields => .object ((ascii "_Type", .number Kind.struct.toNat) :: fields.parsed)
  | .list items elements => .object
      [(ascii "_Type", .number Kind.list.toNat), (ascii "_ListType", .number items.toNat),
        (ascii "_ListSize", .number elements.length), (ascii "_Stub", .bool false),
        (ascii "_Content", .array (elements.parsed.map Prod.snd))]
  | .integerList elements => .object
      [(ascii "_Type", .number Kind.integerList.toNat),
        (ascii "_ListSize", .number elements.length),
        (ascii "_Content", .array (elements.parsed.map Prod.snd))]
  | .map keys values entries => .object
      [(ascii "_Type", .number Kind.map.toNat), (ascii "_KeyType", .number keys.toNat),
        (ascii "_ValueType", .number values.toNat), (ascii "_MapSize", .number entries.length),
        (ascii "_Content", .object entries.parsed)]
  | .union addressMember content => .object ((ascii "_Type", .number Kind.union.toNat) ::
      (ascii "_AddressMember", .number addressMember) :: content.parsed)
  | .objectType x y => .object
      [(ascii "_Type", .number Kind.objectType.toNat), (ascii "_X", .number x),
        (ascii "_Y", .number y)]
  | .objectId x y z => .object
      [(ascii "_Type", .number Kind.objectId.toNat), (ascii "_X", .number x),
        (ascii "_Y", .number y), (ascii "_Z", .number z)]

/-- What the parser makes of values under names. -/
def Members.parsed : Members → List (Bytes × Json)
  | .nil => []
  | .cons name value rest => (name, value.parsed) :: rest.parsed

end

/-! ## The bytes of a tree -/

/-- The bytes of a field header. -/
def headerBytes (label : Bytes) (kind : Kind) : Bytes :=
  let value := compressLabel label
  [UInt8.ofNat (value % 256), UInt8.ofNat (value / 256 % 256), UInt8.ofNat (value / 65536 % 256),
    UInt8.ofNat kind.toNat]

/-- The bytes of a text: its length with the NUL, its characters, and the NUL. -/
def textBytes (text : Bytes) : Bytes := tdfBytes (text.length + 1) ++ text ++ [0]

/-- The bytes of a map's key. -/
def keyBytes (keys : Kind) (name : Bytes) : Bytes :=
  match keys with
  | .integer => tdfBytes (digitsValue 10 (leadingDigits 10 name))
  | _ => textBytes name

mutual

/-- The bytes of a value, without a header. -/
def Value.bytes : Value → Bytes
  | .integer value => tdfBytes value
  | .string text => textBytes text
  | .blob data => tdfBytes data.length ++ data
  | .struct fields => fields.fieldBytes ++ [0]
  | .list items elements =>
    [UInt8.ofNat items.toNat, UInt8.ofNat elements.length] ++ elements.itemBytes
  | .integerList elements => [UInt8.ofNat elements.length] ++ elements.itemBytes
  | .map keys values entries =>
    [UInt8.ofNat keys.toNat, UInt8.ofNat values.toNat, UInt8.ofNat entries.length] ++
      entries.entryBytes keys
  | .union addressMember content => [UInt8.ofNat addressMember] ++ content.fieldBytes
  | .objectType x y => tdfBytes x ++ tdfBytes y
  | .objectId x y z => tdfBytes x ++ tdfBytes y ++ tdfBytes z

/-- The bytes of fields, each with its header. -/
def Members.fieldBytes : Members → Bytes
  | .nil => []
  | .cons name value rest => headerBytes name value.kind ++ value.bytes ++ rest.fieldBytes

/-- The bytes of list elements. -/
def Members.itemBytes : Members → Bytes
  | .nil => []
  | .cons _ value rest => value.bytes ++ rest.itemBytes

/-- The bytes of map entries. -/
def Members.entryBytes (keys : Kind) : Members → Bytes
  | .nil => []
  | .cons name value rest => keyBytes keys name ++ value.bytes ++ rest.entryBytes keys

end

/-! ## Trees that can be written -/

/-- A label of one to four characters from `@` to `_`. -/
def Label (name : Bytes) : Prop :=
  1 ≤ name.length ∧ name.length ≤ 4 ∧ ∀ character ∈ name, 0x40 ≤ character ∧ character ≤ 0x5F

instance (name : Bytes) : Decidable (Label name) := inferInstanceAs (Decidable (_ ∧ _ ∧ _))

/-- A text without a NUL, of a size that a document can hold. -/
def Plain (text : Bytes) : Prop := (0 : UInt8) ∉ text ∧ text.length < 2 ^ 32

instance (text : Bytes) : Decidable (Plain text) := inferInstanceAs (Decidable (_ ∧ _))

/-- A key as its map's type allows: a plain text, or the decimal digits of an integer. -/
def Key (keys : Kind) (name : Bytes) : Prop :=
  keys = .string ∧ Plain name ∨ keys = .integer ∧ ∃ value < 2 ^ 55, name = toDecimal value

/-- The types that a list or a map can hold. -/
def Listed (kind : Kind) : Prop := kind = .integer ∨ kind = .string ∨ kind = .struct

mutual

/-- Whether a value and everything nested in it can be written and read back. -/
def Value.WellFormed : Value → Prop
  | .integer value => value < 2 ^ 55
  | .string text => Plain text
  | .blob data => Plain data
  | .struct fields => fields.Fields
  | .list items elements =>
    Listed items ∧ elements.length ≤ 255 ∧ elements.AllOf items ∧ elements.AllWellFormed
  | .integerList elements =>
    elements.length ≤ 255 ∧ elements.AllOf .integer ∧ elements.AllWellFormed
  | .map keys values entries =>
    (∀ name ∈ entries.names, Key keys name) ∧ (keys = .string ∨ keys = .integer) ∧ Listed values ∧
      entries.length ≤ 255 ∧ entries.AllOf values ∧ entries.AllWellFormed
  | .union addressMember content =>
    addressMember < 256 ∧ content.length = (if addressMember = addressUnset then 0 else 1) ∧
      content.Fields
  | .objectType x y => x < 2 ^ 16 ∧ y < 2 ^ 16
  | .objectId x y z => x < 2 ^ 16 ∧ y < 2 ^ 16 ∧ z < 2 ^ 55

/-- Whether every value can be written and read back. -/
def Members.AllWellFormed : Members → Prop
  | .nil => True
  | .cons _ value rest => value.WellFormed ∧ rest.AllWellFormed

/-- Whether the values can be the fields of one object, under labels that differ from each other. -/
def Members.Fields : Members → Prop
  | .nil => True
  | .cons name value rest =>
    Label name ∧ name ∉ rest.names ∧ value.WellFormed ∧ rest.Fields

end

/-- Whether a value ends in an empty list of structs, after which the parser looks one byte ahead. -/
def Value.Open : Value → Prop
  | .list items .nil => items = .struct
  | .union _ (.cons _ value .nil) => value.Open
  | _ => False

/-- Whether the last of some fields ends in an empty list of structs. -/
def Members.Open : Members → Prop
  | .nil => False
  | .cons _ value .nil => value.Open
  | .cons _ _ (.cons name value rest) => Members.Open (.cons name value rest)

end Recap.Blaze
