import Recap.Blaze.Json
import Recap.Core.DataBuffer
import Recap.Lib.Outcome

/-! Field headers, and the parser that turns the body of a message into a document. -/

namespace Recap.Blaze

/-- `Type`, with the values that the enumeration leaves out as numbers. -/
inductive Kind where
  | integer
  | string
  | binary
  | struct
  | list
  | map
  | union
  | integerList
  | objectType
  | objectId
  | float
  | timeValue
  | other (value : Nat)
  deriving DecidableEq, Repr

namespace Kind

/-- `static_cast<Type>` -/
def ofNat : Nat → Kind
  | 0 => integer
  | 1 => string
  | 2 => binary
  | 3 => struct
  | 4 => list
  | 5 => map
  | 6 => union
  | 7 => integerList
  | 8 => objectType
  | 9 => objectId
  | 10 => float
  | 11 => timeValue
  | value + 12 => other (value + 12)

/-- The number of a type. -/
def toNat : Kind → Nat
  | integer => 0
  | string => 1
  | binary => 2
  | struct => 3
  | list => 4
  | map => 5
  | union => 6
  | integerList => 7
  | objectType => 8
  | objectId => 9
  | float => 10
  | timeValue => 11
  | other value => value

end Kind

/-- `BSWAP32` -/
def bswap32 (value : Nat) : Nat :=
  ((value &&& 0xFF) <<< 24) ||| (((value >>> 8) &&& 0xFF) <<< 16) |||
    (((value >>> 16) &&& 0xFF) <<< 8) ||| ((value >>> 24) &&& 0xFF)

/-- The bits that a label's character takes, at the place of the given index. -/
def compressCharacter (character : UInt8) (i : Nat) : Nat :=
  (0x20 ||| (character.toNat &&& 0x1F)) <<< ((3 - i) * 6)

/-- Pack the first four characters of a label, six bits each. -/
def compressLabel (label : Bytes) : Nat :=
  let ret := (label.take 4).zipIdx.foldl (fun ret (character, i) => ret ||| compressCharacter character i) 0
  bswap32 ret >>> 8

/-- The character of a label at the given index, where there is one. -/
def decompressCharacter (label i : Nat) : Bytes :=
  let val := (label >>> ((3 - i) * 6)) &&& 0x3F
  if 0 < val then [UInt8.ofNat (0x40 ||| (val &&& 0x1F))] else []

/-- Unpack a label. -/
def decompressLabel (label : Nat) : Bytes :=
  let label := bswap32 label >>> 8
  [0, 1, 2, 3].flatMap (decompressCharacter label)

/-- What stands before every value that has a name. -/
structure Header where
  label : Bytes
  type : Kind
  deriving DecidableEq, Repr

/-- `WriteHeader` -/
def writeHeader (b : DataBuffer) (label : Bytes) (type : Kind) : DataBuffer :=
  let value := compressLabel label ||| (type.toNat <<< 24)
  -- A `uint32_t` is written in the machine's own little-endian order.
  b.implWrite [UInt8.ofNat value, UInt8.ofNat (value >>> 8), UInt8.ofNat (value >>> 16),
    UInt8.ofNat (value >>> 24)]

/-- `NetworkAddressMember::Unset` -/
def addressUnset : Nat := 0x7F

/-- What the parser is run with. -/
structure Env where
  /-- The largest size that a string can be resized to before it throws. -/
  maxSize : Nat
  /--
  Whether a loop stops at a head from which no field header can be read.

  The source never does, so this is off wherever the source itself is meant.
  -/
  strict : Bool

namespace Parser

/-- A part of the parser: it moves the reader, and throws or returns. -/
abbrev Parse (α : Type) := Program Reader Fault α

/-- `read<uint8_t>()` -/
def readU8 : Parse Nat := .act (·.read 1)

/-- `peek<uint8_t>()` -/
def peekU8 : Parse Nat := .act (·.peek 1)

/-- `skip<uint8_t>()` -/
def skipU8 : Parse Unit := .act fun r => ((), { r with buffer := r.buffer.skip 1 1 })

/-- `eof()` -/
def eof : Parse Bool := .act fun r => (r.buffer.eof, r)

/-- Resize a string and read characters into it, which leaves it zeroed where the guard refuses. -/
def readChars (env : Env) (length : Nat) : Parse Bytes :=
  if env.maxSize < length then .throw .length else
  .act fun r =>
    match r.buffer.implRead 1 length with
    | (some text, moved) => (text, { r with buffer := moved })
    | (none, _) => (List.replicate length 0, r)

/-- Read as many characters as a length says, which for none at all does not touch the buffer. -/
def readSized (env : Env) (length : Nat) : Parse Bytes :=
  if 0 < length then readChars env length else pure []

/-- `ReadHeader` -/
def readHeader : Parse Header := do
  let value ← .act (·.read 4)
  return ⟨decompressLabel (value &&& 0x00FFFFFF), .ofNat (value >>> 24)⟩

/-- `read_integer` -/
def readU64 : Parse Nat := .act (·.decodeTdfInteger)

/-- `read_string` -/
def readText (env : Env) : Parse Bytes := do
  let decoded ← readU64
  -- An unsigned subtraction: no length at all becomes the largest one.
  let length := (decoded + (wordBound - 1)) % wordBound
  let text ← readSized env length
  skipU8
  return text

/-- `ReadInteger` -/
def readInteger : Parse Json := do
  let value ← readU64
  return .number value

/-- `ReadString` -/
def readString (env : Env) : Parse Json := do
  let text ← readText env
  return .ofText text

/-- `ReadBlob` -/
def readBlob (env : Env) : Parse Json := do
  let length ← readU64
  let text ← readSized env length
  return .ofText text

/-- Add a parsed value to the object or array that it was met in. -/
def addObject (header : Header) (value : Json) : Json → Json
  | .object members =>
    match Json.find header.label members with
    | some _ => .object (Json.replaceFirst header.label value members)
    | none => .object (members ++ [(header.label, value)])
  | .array items => .array (items ++ [value])
  | other => other

/-- Where a strict run stops: no whole header fits in the capacity any more. -/
def starving (env : Env) (r : Reader) : Bool := env.strict && !r.buffer.canRw 4

/-- `peek<uint8_t>() != 0x00` -/
def moreFields : Parse Bool := do return (← peekU8) ≠ 0x00

/-- `!eof()` -/
def moreContent : Parse Bool := do return !(← eof)

theorem moreContent_eq (r : Reader) : moreContent r = .done (!r.buffer.eof, r) := by
  rw [moreContent, eof, Program.act_bind, Program.pure_apply]

/-- The loop that struct fields and stub lists share: read values up to a zero byte, and skip that. -/
def readFields (env : Env) (readValue : Json → Parse Json) (fuel : Nat) (parent : Json) :
    Parse Json := do
  let parent ← .loop (starving env) moreFields readValue fuel parent
  skipU8
  return parent

/-- `ReadStruct` -/
def readStruct (env : Env) (readValue : Json → Parse Json) (fuel : Nat) : Parse Json :=
  readFields env readValue fuel (.object [(ascii "_Type", .number Kind.struct.toNat)])

/-- `ReadUnion` -/
def readUnion (readValue : Json → Parse Json) : Parse Json := do
  let addressMember ← readU8
  let value : Json := .object [(ascii "_Type", .number Kind.union.toNat),
    (ascii "_AddressMember", .number addressMember)]
  if addressMember ≠ addressUnset then readValue value else return value

/-- The value that stands in a list or a map without a header, or nothing for other types. -/
def readItem (env : Env) (readValue : Json → Parse Json) (fuel : Nat) : Kind → Option (Parse Json)
  | .integer => some readInteger
  | .string => some (readString env)
  | .struct => some (readStruct env readValue fuel)
  | _ => none

/-- The content of a list: a stub list up to its zero byte, or as many items as the list's size says. -/
def readListContent (env : Env) (readValue : Json → Parse Json) (fuel : Nat) (type : Kind)
    (listSize : Nat) (stub : Bool) : Parse Json :=
  if stub then do
    skipU8
    readFields env readValue fuel (.array [])
  else
    match readItem env readValue fuel type with
    | some item =>
      .repeated (fun content => do return Json.pushBack content (← item)) listSize (.array [])
    | none => pure (.array [])

/-- `ReadList` -/
def readList (env : Env) (readValue : Json → Parse Json) (fuel : Nat) : Parse Json := do
  let listType ← readU8
  let listSize ← readU8
  let type := Kind.ofNat listType
  let ahead ← peekU8
  let stub := decide (ahead = 0x02 ∧ type = .struct)
  let listContent ← readListContent env readValue fuel type listSize stub
  return .object [(ascii "_Type", .number Kind.list.toNat), (ascii "_ListType", .number listType),
    (ascii "_ListSize", .number listSize), (ascii "_Stub", .bool stub),
    (ascii "_Content", listContent)]

/-- The name that a map's key is added under, which has to be a string. -/
def mapKey (keyType : Kind) (key : Json) : Except Fault Bytes :=
  match keyType, key with
  | .integer, .number value => .ok (toDecimal value)
  | _, .string text => .ok text
  | _, _ => .error .assertion

/-- One round of the loop over a map's entries. -/
def readEntry (env : Env) (readValue : Json → Parse Json) (fuel : Nat) (keyType valueType : Kind)
    (content : Json) : Parse Json := do
  let key ← (readItem env readValue fuel keyType).getD (pure .null)
  let value ← (readItem env readValue fuel valueType).getD (pure .null)
  match mapKey keyType key with
  | .ok name => return content.addMember name value
  | .error fault => .throw fault

/-- `ReadMap` -/
def readMap (env : Env) (readValue : Json → Parse Json) (fuel : Nat) : Parse Json := do
  let keyType ← readU8
  let valueType ← readU8
  let mapSize ← readU8
  let mapContent ← .repeated (readEntry env readValue fuel (.ofNat keyType) (.ofNat valueType))
    mapSize (.object [])
  return .object [(ascii "_Type", .number Kind.map.toNat), (ascii "_KeyType", .number keyType),
    (ascii "_ValueType", .number valueType), (ascii "_MapSize", .number mapSize),
    (ascii "_Content", mapContent)]

/-- `ReadIntegerList` -/
def readIntegerList : Parse Json := do
  let listSize ← readU8
  let listContent ← .repeated (fun content => do return Json.pushBack content (← readInteger))
    listSize (.array [])
  return .object [(ascii "_Type", .number Kind.integerList.toNat),
    (ascii "_ListSize", .number listSize), (ascii "_Content", listContent)]

/-- `ReadObjectType` -/
def readObjectType : Parse Json := do
  let x ← readInteger
  let y ← readInteger
  return .object [(ascii "_Type", .number Kind.objectType.toNat), (ascii "_X", x), (ascii "_Y", y)]

/-- `ReadObjectId` -/
def readObjectId : Parse Json := do
  let x ← readInteger
  let y ← readInteger
  let z ← readInteger
  return .object [(ascii "_Type", .number Kind.objectId.toNat), (ascii "_X", x), (ascii "_Y", y),
    (ascii "_Z", z)]

/-- The value that follows a header of the given type, or nothing for an unknown one. -/
def readTyped (env : Env) (readValue : Json → Parse Json) (fuel : Nat) : Kind → Option (Parse Json)
  | .integer => some readInteger
  | .string => some (readString env)
  | .binary => some (readBlob env)
  | .struct => some (readStruct env readValue fuel)
  | .union => some (readUnion readValue)
  | .list => some (readList env readValue fuel)
  | .map => some (readMap env readValue fuel)
  | .integerList => some readIntegerList
  | .objectType => some readObjectType
  | .objectId => some readObjectId
  | _ => none

/-- `ReadValue`, for a given number of nested calls. -/
def readValue (env : Env) : (fuel : Nat) → Json → Parse Json
  | 0, _ => fun _ => .spent
  | fuel + 1, parent => do
    let header ← readHeader
    if ← eof then return parent
    match readTyped env (readValue env fuel) fuel header.type with
    | some typed => return addObject header (← typed) parent
    -- An unknown type is only logged.
    | none => return parent

/-- `Parser::Read` -/
def read (env : Env) (fuel : Nat) : Parse Json :=
  .loop (starving env) moreContent (readValue env fuel) fuel (.object [])

end Parser
end Recap.Blaze
