import Recap.Blaze.Tdf

/-! Packets: the calls that build their documents, and the writer that lays them out as bytes. -/

namespace Recap.Blaze

namespace Json

/-- Change the first member of a name. -/
def modifyFirst (name : Bytes) (change : Json → Json) : List (Bytes × Json) → List (Bytes × Json)
  | [] => []
  | (key, held) :: rest =>
    if key = name then (key, change held) :: rest else (key, held) :: modifyFirst name change rest

/-- Change the member that a value holds its content in. -/
def modifyContent (change : Json → Json) : Json → Json
  | object members => object (modifyFirst (ascii "_Content") change members)
  | other => other

/-- Change the last value added to an object or array. -/
def modifyLast (change : Json → Json) : Json → Json
  | object members => object (members.modifyLast fun (name, value) => (name, change value))
  | array items => array (items.modifyLast change)
  | other => other

/-- Change the container at some depth, where each one is the content of the last value of the one above. -/
def modifyAt (change : Json → Json) : Nat → Json → Json
  | 0, document => change document
  | depth + 1, document => modifyLast (modifyContent (modifyAt change depth)) document

/-- Add a value under a name to an object, or as an item to an array. -/
def add (parent : Json) (name : Bytes) (value : Json) : Json :=
  match parent with
  | object _ => parent.addMember name value
  | _ => parent.pushBack value

end Json

/--
A packet that is being built.

The source keeps a stack of pointers into the document.
The first one points to the document itself.
Each other one points to the content of the value that was last added where the one below points,
so that the number of pointers says where they all point.
-/
structure Packet where
  document : Json
  /-- How many pointers there are above the first. -/
  depth : Nat

namespace Packet

/-- A packet as it is constructed. -/
def empty : Packet := ⟨.object [], 0⟩

/-- `AddMember`, where the topmost pointer points. -/
def addMember (packet : Packet) (label : Bytes) (value : Json) : Packet :=
  { packet with
    document := Json.modifyAt (fun parent => parent.add label value) packet.depth packet.document }

/-- One call of the builder. -/
inductive Call where
  | putInteger (label : Bytes) (value : Nat)
  | putString (label value : Bytes)
  | putBlob (label data : Bytes)
  | putObjectType (label : Bytes) (x y : Nat)
  | putObjectId (label : Bytes) (x y z : Nat)
  | pushIntegerList (label : Bytes)
  | pushStruct (label : Bytes)
  | pushUnion (label : Bytes) (type : Nat)
  | pushMap (label : Bytes) (keyType valueType : Kind)
  | pushList (label : Bytes) (type : Kind) (isStub : Bool)
  | pop

/-- Add a container, and point to its content. -/
def push (packet : Packet) (label : Bytes) (value : Json) : Packet :=
  let packet := packet.addMember label value
  { packet with depth := packet.depth + 1 }

/-- The packet after one call. -/
def call (packet : Packet) : Call → Packet
  | .putInteger label value => packet.addMember label (.number value)
  | .putString label value => packet.addMember label (.ofText value)
  | .putBlob label data => packet.addMember label (.object
      [(ascii "_Type", .number Kind.binary.toNat), (ascii "_Content", .ofText data)])
  | .putObjectType label x y => packet.addMember label (.object
      [(ascii "_Type", .number Kind.objectType.toNat), (ascii "_X", .number x),
        (ascii "_Y", .number y)])
  | .putObjectId label x y z => packet.addMember label (.object
      [(ascii "_Type", .number Kind.objectId.toNat), (ascii "_X", .number x),
        (ascii "_Y", .number y), (ascii "_Z", .number z)])
  | .pushIntegerList label => packet.push label (.object
      [(ascii "_Type", .number Kind.integerList.toNat), (ascii "_Content", .array [])])
  | .pushStruct label => packet.push label (.object
      [(ascii "_Type", .number Kind.struct.toNat), (ascii "_Content", .object [])])
  | .pushUnion label type => packet.push label (.object
      [(ascii "_Type", .number Kind.union.toNat), (ascii "_AddressMember", .number type),
        (ascii "_Content", .object [])])
  | .pushMap label keyType valueType => packet.push label (.object
      [(ascii "_Type", .number Kind.map.toNat), (ascii "_KeyType", .number keyType.toNat),
        (ascii "_ValueType", .number valueType.toNat), (ascii "_Content", .object [])])
  | .pushList label type isStub => packet.push label (.object
      [(ascii "_Type", .number Kind.list.toNat), (ascii "_ListType", .number type.toNat),
        (ascii "_Content", .array []), (ascii "_Stub", .bool isStub)])
  | .pop => { packet with depth := packet.depth - 1 }

/-- The packet after a sequence of calls. -/
def calls (packet : Packet) (sequence : List Call) : Packet := sequence.foldl call packet

end Packet

/-- The value of a character as a digit, in any base up to thirty-six. -/
def digitValue (character : UInt8) : Option Nat :=
  let code := character.toNat
  if 48 ≤ code ∧ code ≤ 57 then some (code - 48)
  else if 97 ≤ code ∧ code ≤ 122 then some (code - 87)
  else if 65 ≤ code ∧ code ≤ 90 then some (code - 55)
  else none

/-- The digits of a base that a text starts with. -/
def leadingDigits (base : Nat) : Bytes → List Nat
  | [] => []
  | character :: rest =>
    match digitValue character with
    | some digit => if digit < base then digit :: leadingDigits base rest else []
    | none => []

/-- The number that some digits spell, from the highest to the lowest. -/
def digitsValue (base : Nat) (digits : List Nat) : Nat :=
  digits.foldl (fun value digit => value * base + digit) 0

/-- Whether `isspace` holds of a character. -/
def isSpace (character : UInt8) : Bool := character = 32 ∨ (9 ≤ character ∧ character ≤ 13)

/-- A digit is neither a space nor a sign. -/
theorem not_space_of_digit {digit : UInt8} {value : Nat} (read : digitValue digit = some value) :
    isSpace digit = false ∧ digit ≠ 45 ∧ digit ≠ 43 := by
  have least : 48 ≤ digit.toNat := by
    by_contra small
    have missing : digitValue digit = none := by
      unfold digitValue
      rw [if_neg (by omega), if_neg (by omega), if_neg (by omega)]
    cases missing.symm.trans read
  -- The spaces and the signs come in front of all digits.
  have other : ∀ code : UInt8, code.toNat < 48 → digit ≠ code := by
    rintro code small rfl
    omega
  refine ⟨?_, other 45 (by decide), other 43 (by decide)⟩
  simp only [isSpace, decide_eq_false_iff_not, not_or, not_and]
  exact ⟨other 32 (by decide), fun _ high => absurd (show digit.toNat ≤ 13 from high) (by omega)⟩

/-- The digits of a number whose base is told by how it starts. -/
def unsignedDigits (text : Bytes) : Nat × List Nat :=
  match text with
  | 48 :: second :: rest =>
    if (second = 120 ∨ second = 88) ∧ leadingDigits 16 rest ≠ [] then (16, leadingDigits 16 rest)
    else (8, leadingDigits 8 text)
  | 48 :: _ => (8, leadingDigits 8 text)
  | _ => (10, leadingDigits 10 text)

/-- `std::stoull` with base 0. -/
def stoull (text : Bytes) : Except Fault Nat :=
  let text := text.dropWhile isSpace
  let (negative, text) := match text with
    | 45 :: rest => (true, rest)
    | 43 :: rest => (false, rest)
    | _ => (false, text)
  let (base, digits) := unsignedDigits text
  let value := digitsValue base digits
  if digits = [] then .error .invalidArgument
  else if wordBound ≤ value then .error .outOfRange
  else .ok (if negative then (wordBound - value) % wordBound else value)

namespace Json

/-- A member that is found is smaller than the members around it. -/
theorem find_sizeOf {name : Bytes} {members : List (Bytes × Json)} {value : Json}
    (found : find name members = some value) : sizeOf value < sizeOf members := by
  -- The search either stops at the first member or goes on in the rest.
  induction members with
  | nil => simp [find] at found
  | cons member rest ih =>
    obtain ⟨key, held⟩ := member
    rw [find] at found
    split at found
    · cases found
      simp only [List.cons.sizeOf_spec, Prod.mk.sizeOf_spec]
      omega
    · have := ih found
      simp only [List.cons.sizeOf_spec]
      omega

/-- `value["_Content"]`, which is smaller than the value. -/
def content (value : Json) : Except Fault { content : Json // sizeOf content < sizeOf value } :=
  match value with
  | object members =>
    match found : find (ascii "_Content") members with
    | some content => .ok ⟨content, by
        have := find_sizeOf found
        simp only [object.sizeOf_spec]
        omega⟩
    | none => .error .assertion
  | _ => .error .assertion

/-- `value["_Content"].GetArray()` -/
def contentArray (value : Json) : Except Fault { items : List Json // sizeOf items < sizeOf value } := do
  match ← content value with
  | ⟨array items, smaller⟩ => return ⟨items, by simp only [array.sizeOf_spec] at smaller; omega⟩
  | _ => .error .assertion

/-- `value["_Content"].GetObject()` -/
def contentObject (value : Json) :
    Except Fault { members : List (Bytes × Json) // sizeOf members < sizeOf value } := do
  match ← content value with
  | ⟨object members, smaller⟩ =>
    return ⟨members, by simp only [object.sizeOf_spec] at smaller; omega⟩
  | _ => .error .assertion

/-- A content that is found is what is looked up. -/
theorem content_eq {members : List (Bytes × Json)} {held : Json}
    (found : find (ascii "_Content") members = some held) :
    ∃ smaller, content (object members) = .ok ⟨held, smaller⟩ := by
  have inner := find_sizeOf found
  have smaller : sizeOf held < sizeOf (object members) := by
    simp only [object.sizeOf_spec]
    omega
  unfold content
  dsimp only
  split
  · rename_i other present
    rw [found] at present
    cases present
    exact ⟨smaller, rfl⟩
  · rename_i absent
    rw [found] at absent
    exact absurd absent (by simp)

/-- A content that is an object gives its members. -/
theorem contentObject_eq {members held : List (Bytes × Json)}
    (found : find (ascii "_Content") members = some (object held)) :
    ∃ smaller, contentObject (object members) = .ok ⟨held, smaller⟩ := by
  obtain ⟨smaller, looked⟩ := content_eq found
  rw [contentObject, looked]
  exact ⟨_, rfl⟩

/-- A content that is an array gives its items. -/
theorem contentArray_eq {members : List (Bytes × Json)} {held : List Json}
    (found : find (ascii "_Content") members = some (array held)) :
    ∃ smaller, contentArray (object members) = .ok ⟨held, smaller⟩ := by
  obtain ⟨smaller, looked⟩ := content_eq found
  rw [contentArray, looked]
  exact ⟨_, rfl⟩

end Json

namespace Packet

/-- The header of a value, where it has a name. -/
def writeName (b : DataBuffer) (name : Option Bytes) (type : Kind) : DataBuffer :=
  match name with
  | some name => writeHeader b (Json.cString name) type
  | none => b

/-- The characters of a string value behind their length and in front of a NUL. -/
def writeText (b : DataBuffer) (text : Bytes) : DataBuffer :=
  ((b.encodeTdfInteger (text.length + 1)).implWrite text).writeU8 0

/-- The integers of a list, as many as its count says. -/
def writeIntegers (b : DataBuffer) : Nat → List Json → Except Fault DataBuffer
  | 0, _ => .ok b
  | count + 1, item :: rest => do writeIntegers (b.encodeTdfInteger (← item.getUint64)) count rest
  | _ + 1, [] => .error .assertion

mutual

/-- `Packet::Write`, for one value -/
def write (b : DataBuffer) (name : Option Bytes) : Json → Except Fault DataBuffer
  | .object members => do
    let type ← (← (Json.object members).member (ascii "_Type")).getUint
    writeType b (.ofNat type) name (.object members)
  | .array items => writeChildren b items
  | .string text => writeType b .string name (.string text)
  | value => writeType b .integer name value
termination_by value => (sizeOf value, 1)

/-- The items of an array that is itself written. -/
def writeChildren (b : DataBuffer) : List Json → Except Fault DataBuffer
  | [] => .ok b
  | child :: rest => do writeChildren (← write b none child) rest
termination_by items => (sizeOf items, 0)

/-- `Packet::WriteType` -/
def writeType (b : DataBuffer) (type : Kind) (name : Option Bytes) (value : Json) :
    Except Fault DataBuffer :=
  let b := writeName b name type
  match type with
  | .integer =>
    match value with
    | .string text => do return b.encodeTdfInteger (← stoull (Json.cString text))
    | _ => do return b.encodeTdfInteger (← value.getUint64)
  | .string => do return writeText b (← value.getString)
  | .binary => do
    let text ← (← value.member (ascii "_Content")).getString
    return (b.encodeTdfInteger text.length).implWrite text
  | .integerList => do
    let content ← (← value.member (ascii "_Content")).getArray
    -- The count is cut to a byte.
    let contentLength := content.length % 256
    writeIntegers (b.writeU8 (UInt8.ofNat contentLength)) contentLength content
  | .union => do
    let addressMember ← (← value.member (ascii "_AddressMember")).getUint
    let b := b.writeU8 (UInt8.ofNat addressMember)
    if addressMember ≠ addressUnset then do
      let ⟨content, _⟩ ← value.contentObject
      writeMembers b content
    else return b
  | .struct => do
    let ⟨content, _⟩ ← value.contentObject
    return (← writeMembers b content).writeU8 0
  | .list => do
    let ⟨content, _⟩ ← value.contentArray
    let listType ← (← value.member (ascii "_ListType")).getUint
    let contentLength := content.length % 256
    let b := (b.writeU8 (UInt8.ofNat listType)).writeU8 (UInt8.ofNat contentLength)
    if ← (← value.member (ascii "_Stub")).getBool then
      -- A stub list writes every item, whatever its count was cut to.
      writeItems (b.writeU8 0x02) (.ofNat listType) content.length content
    else writeItems b (.ofNat listType) contentLength content
  | .map => do
    let ⟨content, _⟩ ← value.contentObject
    let keyType ← (← value.member (ascii "_KeyType")).getUint
    let valueType ← (← value.member (ascii "_ValueType")).getUint
    let b := ((b.writeU8 (UInt8.ofNat keyType)).writeU8 (UInt8.ofNat valueType)).writeU8
      (UInt8.ofNat (content.length % 256))
    writeEntries b (.ofNat keyType) (.ofNat valueType) content
  | .objectType => do
    let x ← (← value.member (ascii "_X")).getUint64
    let y ← (← value.member (ascii "_Y")).getUint64
    return (b.encodeTdfInteger x).encodeTdfInteger y
  | .objectId => do
    let x ← (← value.member (ascii "_X")).getUint64
    let y ← (← value.member (ascii "_Y")).getUint64
    let z ← (← value.member (ascii "_Z")).getUint64
    return ((b.encodeTdfInteger x).encodeTdfInteger y).encodeTdfInteger z
  -- A type that has no writer is only logged.
  | _ => .ok b
termination_by (sizeOf value, 0)

/-- The members of an object, each with its name. -/
def writeMembers (b : DataBuffer) : List (Bytes × Json) → Except Fault DataBuffer
  | [] => .ok b
  | (name, value) :: rest => do writeMembers (← write b (some name) value) rest
termination_by members => (sizeOf members, 0)

/-- The items of a list, as many as its count says, without headers. -/
def writeItems (b : DataBuffer) (type : Kind) : Nat → List Json → Except Fault DataBuffer
  | 0, _ => .ok b
  | count + 1, item :: rest => do writeItems (← writeType b type none item) type count rest
  | _ + 1, [] => .error .assertion
termination_by _ items => (sizeOf items, 0)

/-- The entries of a map, key and value in turn, without headers. -/
def writeEntries (b : DataBuffer) (keyType valueType : Kind) :
    List (Bytes × Json) → Except Fault DataBuffer
  | [] => .ok b
  | (name, value) :: rest => do
    let b ← writeType b keyType none (.string name)
    writeEntries (← writeType b valueType none value) keyType valueType rest
termination_by members => (sizeOf members, 0)

end

/-- `Packet::Write` -/
def writeAll (packet : Packet) (b : DataBuffer) : Except Fault DataBuffer := do
  writeMembers b (← packet.document.getObject)

end Packet
end Recap.Blaze
