import Recap.Lib.Logged

/-! The catalog of asset structures, and the parser that walks an asset's bytes along it. -/

namespace Recap.Game

inductive DataType where
  | bool | int | int16 | int64 | uint8 | uint16 | uint32 | uint64 | float | guid | vector2 | vector3
  | quaternion | localizedAssetString | char | charPtr | key | asset | cKeyAsset | nullable | array
  | enum | struct
deriving DecidableEq

/--
What offsets are made of: the numbers of `std::size_t`, or natural numbers where they are exact.
-/
class OffsetNumber (Offset : Type) where
  ofNat : Nat → Offset
  toNat : Offset → Nat

instance : OffsetNumber UInt64 := ⟨UInt64.ofNat, UInt64.toNat⟩

instance : OffsetNumber Nat := ⟨id, id⟩

open OffsetNumber (ofNat toNat)

structure TypeDefinition (Offset : Type) where
  type : DataType
  size : Offset
  targetType : String

/-- A member of a structure. An array names its elements' type and may have its count elsewhere. -/
structure StructMember (Offset : Type) where
  typeName : String
  offset : Offset
  useSecondaryOffset : Bool
  elementType : String
  countOffset : Offset

namespace StructMember

variable {Offset : Type} [OffsetNumber Offset]

/-- A member that is no array. -/
def plain (typeName : String) (offset : Offset) (useSecondaryOffset : Bool) :
    StructMember Offset where
  typeName := typeName
  offset := offset
  useSecondaryOffset := useSecondaryOffset
  elementType := ""
  countOffset := ofNat 0

/-- An array in the primary part. -/
def array (elementType : String) (offset countOffset : Offset) : StructMember Offset where
  typeName := "array"
  offset := offset
  useSecondaryOffset := false
  elementType := elementType
  countOffset := countOffset

end StructMember

structure StructDefinition (Offset : Type) where
  fixedSize : Offset
  members : List (StructMember Offset)

structure VersionedFileTypeInfo (Offset : Type) where
  version : String
  structTypes : List String
  secondaryOffsetStart : Offset

structure FileTypeInfo (Offset : Type) where
  structTypes : List String
  secondaryOffsetStart : Offset
  versionedInfo : List (VersionedFileTypeInfo Offset)

structure AssetCatalog (Offset : Type) where
  types : String → Option (TypeDefinition Offset)
  structs : String → Option (StructDefinition Offset)
  currentGameVersion : String

namespace AssetCatalog

variable {Offset : Type}

def getType (catalog : AssetCatalog Offset) (name : String) : Option (TypeDefinition Offset) :=
  catalog.types name

def getStruct (catalog : AssetCatalog Offset) (name : String) : Option (StructDefinition Offset) :=
  catalog.structs name

/-- The information of the current version, or else the first one. -/
def getVersionedFileTypeInfo (catalog : AssetCatalog Offset) (fileType : FileTypeInfo Offset) :
    Option (VersionedFileTypeInfo Offset) :=
  match fileType.versionedInfo with
  | [] => none
  | first :: rest =>
    some (((first :: rest).find? fun info => info.version = catalog.currentGameVersion).getD first)

end AssetCatalog

/-- An asset's bytes. Behind its size comes whatever memory holds there. -/
structure AssetBuffer (Offset : Type) where
  data : Offset → UInt8
  size : Offset

/-- The parser's offsets, what tells it where the current structure starts, and its indentation. -/
structure Parser (Offset : Type) where
  primaryOffset : Offset
  secondaryOffset : Offset
  displaySecondaryOffset : Offset
  isInsideNullable : Bool
  secOffsetStruct : Bool
  startNullableOffset : Offset
  currentStructBaseOffset : Offset
  structBaseOffsetStack : List Offset
  processingArrayElement : Bool
  indentLevel : Int

/-- What is being parsed: a member of a structure that starts at a base, or an entry of an array. -/
inductive Parsed (Offset : Type) where
  | member (base : Offset)
  | entry (place : Offset)

/-- What the parser has come to, with the state it was in and the address it has turned to. -/
inductive Visit (Offset : Type) where
  | member (base : Offset) (member : StructMember Offset) (before : Parser Offset) (address : Offset)
  | count (base : Offset) (member : StructMember Offset) (before : Parser Offset) (address : Offset)
  | entry (place : Offset) (member : StructMember Offset) (before : Parser Offset) (address : Offset)
  /-- It has read some bytes from an offset on. -/
  | read (offset : Offset) (width : Nat)
  /-- It is to read past the end of the buffer, and throws. -/
  | refused (offset : Offset)
  /-- It goes into an array that has a value. -/
  | filled (before : Parser Offset)
  /-- It goes into the structure of a nullable member that has a value. -/
  | present (before : Parser Offset)
  /-- It has parsed a structure, or broken it off. -/
  | left (before after : Parser Offset)

/-- A parse that logs its visits and throws where it reads past the end of the buffer. -/
abbrev Parse (Offset : Type) := Logged (Parser Offset) (Visit Offset)

section Parsing

variable {Offset : Type} [Add Offset] [Mul Offset] [OffsetNumber Offset]

namespace Parser

open Logged

def initial (secondaryOffsetStart : Offset) : Parser Offset where
  primaryOffset := ofNat 0
  secondaryOffset := secondaryOffsetStart
  displaySecondaryOffset := ofNat 0
  isInsideNullable := false
  secOffsetStruct := false
  startNullableOffset := ofNat 0
  currentStructBaseOffset := ofNat 0
  structBaseOffsetStack := []
  processingArrayElement := false
  indentLevel := 0

def getSecondaryOffset (parser : Parser Offset) : Offset :=
  if toNat parser.displaySecondaryOffset > 0 then parser.displaySecondaryOffset
  else parser.secondaryOffset

def getRealSecondaryOffset (parser : Parser Offset) : Offset :=
  parser.secondaryOffset

def setPrimaryOffset (parser : Parser Offset) (offset : Offset) : Parser Offset :=
  { parser with primaryOffset := offset }

def setSecondaryOffset (parser : Parser Offset) (offset : Offset) : Parser Offset :=
  { parser with secondaryOffset := offset }

/-- Indents what is printed by some levels more. -/
def indent (levels : Int) (parser : Parser Offset) : Parser Offset :=
  { parser with indentLevel := parser.indentLevel + levels }

end Parser

namespace AssetBuffer

open Logged

/-- The check works on offsets, which may have wrapped around where they are not exact. -/
def isValidOffset (buffer : AssetBuffer Offset) (offset size : Offset) : Bool :=
  toNat (offset + size) ≤ toNat buffer.size

/-- The little-endian number in some bytes from an offset on. -/
def number (buffer : AssetBuffer Offset) (offset : Offset) : (width : Nat) → Nat
  | 0 => 0
  | width + 1 => (buffer.data offset).toNat + 256 * buffer.number (offset + ofNat 1) width

/-- Throws because there is nothing to read at an offset. -/
def refuse {α : Type} (offset : Offset) : Parse Offset α := do
  Logged.log (.refused offset)
  throw

def readAt (buffer : AssetBuffer Offset) (offset : Offset) (width : Nat) : Parse Offset Nat :=
  if buffer.isValidOffset offset (ofNat width) then do
    Logged.log (.read offset width)
    return buffer.number offset width
  else refuse offset

def readPrimary (buffer : AssetBuffer Offset) (width : Nat) : Parse Offset Nat := do
  let parser ← get
  let value ← buffer.readAt parser.primaryOffset width
  modify fun parser => parser.setPrimaryOffset (parser.primaryOffset + ofNat width)
  return value

/-- How many bytes a string has of which at most some are left: up to its zero, or all of them. -/
def stringWidth (buffer : AssetBuffer Offset) (offset : Offset) : (left : Nat) → Nat
  | 0 => 0
  | left + 1 =>
    if buffer.data offset = 0 then 1 else 1 + buffer.stringWidth (offset + ofNat 1) left

/-- Reads a string, of which only its end matters to what is read next. -/
def readString (buffer : AssetBuffer Offset) (useSecondary : Bool) : Parse Offset Unit := do
  let parser ← get
  let currentOffset := if useSecondary then parser.secondaryOffset else parser.primaryOffset
  if toNat currentOffset ≥ toNat buffer.size then refuse currentOffset
  else do
    let width := buffer.stringWidth currentOffset (toNat buffer.size - toNat currentOffset)
    Logged.log (.read currentOffset width)
    let last := currentOffset + ofNat width
    modify fun parser =>
      if useSecondary then parser.setSecondaryOffset last else parser.setPrimaryOffset last

/-- Reads an offset, and a string at the secondary offset if it is not zero. -/
def readReference (buffer : AssetBuffer Offset) : Parse Offset Unit := do
  let offset ← buffer.readPrimary 4
  if offset ≠ 0 then buffer.readString true else pure ()

def readLocalizedAssetString (buffer : AssetBuffer Offset) : Parse Offset Unit := do
  let offset ← buffer.readPrimary 4
  let assetString ← buffer.readPrimary 4
  if offset ≠ 0 then do
    buffer.readString true
    if assetString ≠ 0 then buffer.readString true else pure ()
  else pure ()

/-- Reads the numbers of the given widths. -/
def readNumbers (buffer : AssetBuffer Offset) : List Nat → Parse Offset Unit
  | [] => pure ()
  | width :: rest => do
    let _ ← buffer.readPrimary width
    buffer.readNumbers rest

/-- Reads a value of a type that needs no structure. -/
def readValue (buffer : AssetBuffer Offset) : DataType → Parse Offset Unit
  | .bool | .uint8 => buffer.readNumbers [1]
  | .int | .float | .enum | .uint32 => buffer.readNumbers [4]
  | .uint16 => buffer.readNumbers [2]
  | .uint64 | .int64 => buffer.readNumbers [8]
  | .guid => buffer.readNumbers [4, 2, 2, 8]
  | .vector2 => buffer.readNumbers [4, 4]
  | .vector3 => buffer.readNumbers [4, 4, 4]
  | .quaternion => buffer.readNumbers [4, 4, 4, 4]
  | .key | .cKeyAsset | .asset | .charPtr => buffer.readReference
  | .localizedAssetString => buffer.readLocalizedAssetString
  | .char => buffer.readString false
  | .int16 | .array | .nullable | .struct => pure ()

end AssetBuffer

namespace Parser

open Logged

/-- Where a member that is no array is parsed. -/
def memberStartOffset (parser : Parser Offset) (member : StructMember Offset) : Offset :=
  if parser.secOffsetStruct then
    if parser.processingArrayElement then parser.primaryOffset + member.offset
    else parser.currentStructBaseOffset + member.offset
  else if member.useSecondaryOffset then member.offset
  else parser.currentStructBaseOffset + member.offset

/-- Where an array is parsed. -/
def arrayStartOffset (parser : Parser Offset) (member : StructMember Offset) : Offset :=
  if parser.secOffsetStruct then
    if parser.processingArrayElement then parser.primaryOffset + member.offset
    else if parser.isInsideNullable then parser.startNullableOffset + member.offset
    else parser.currentStructBaseOffset + member.offset
  else if member.useSecondaryOffset then member.offset
  else parser.currentStructBaseOffset + member.offset

/-- Logs the visit of a member, unless it is one that the secondary part holds. -/
def visitMember (parsed : Parsed Offset) (member : StructMember Offset) (before : Parser Offset)
    (address : Offset) : Parse Offset Unit :=
  match parsed with
  | .member base =>
    if member.useSecondaryOffset then pure () else Logged.log (.member base member before address)
  | .entry _ => pure ()

/-- Logs that an array's count is read. -/
def visitCount (parsed : Parsed Offset) (member : StructMember Offset) (before : Parser Offset)
    (address : Offset) : Parse Offset Unit :=
  match parsed with
  | .member base =>
    if member.useSecondaryOffset then pure () else Logged.log (.count base member before address)
  | .entry _ => pure ()

/--
Logs the visit of an inline structure, and tells where it is to start.

What the secondary part holds starts where it is found.
-/
def visitStruct (parsed : Parsed Offset) (member : StructMember Offset) (before : Parser Offset)
    (address : Offset) : Parse Offset Offset :=
  match parsed with
  | .member base =>
    if member.useSecondaryOffset then pure address
    else do
      Logged.log (.member base member before address)
      return base + member.offset
  | .entry place => do
    Logged.log (.entry place member before address)
    return place

section Calls

/-! The cases of a member, given what parses the structures and the entries that they hold. -/

variable (parseStruct : String → Offset → Parse Offset Unit)
  (parseMember : StructMember Offset → Parsed Offset → Parse Offset Unit)

/-- Parses the elements of an array of structures, which lie in the secondary part. -/
def parseElements (structDef : StructDefinition Offset) (elementType : String) (count : Nat)
    (arrayDataOffset : Offset) : Parse Offset Unit := do
  let _ ← rounds (fun index dataOffset => do
    modify fun parser => parser.setPrimaryOffset dataOffset
    let parser ← get
    let oldSecOffsetStruct := parser.secOffsetStruct
    modify fun parser => { parser with secOffsetStruct := true, processingArrayElement := true }
    parseStruct elementType (arrayDataOffset + ofNat index * structDef.fixedSize)
    modify fun parser => { parser with secOffsetStruct := oldSecOffsetStruct }
    return dataOffset + structDef.fixedSize) count 0 arrayDataOffset

/-- Parses the elements of an array of structures, which lie in the primary part. -/
def parsePrimaryElements (structDef : StructDefinition Offset) (elementType : String) (count : Nat)
    (elementBaseOffset : Offset) : Parse Offset Unit := do
  let _ ← rounds (fun index dataOffset => do
    modify fun parser => parser.setPrimaryOffset dataOffset
    modify fun parser => { parser with processingArrayElement := true }
    parseStruct elementType (elementBaseOffset + ofNat index * structDef.fixedSize)
    return dataOffset + structDef.fixedSize) count 0 elementBaseOffset

/-- Parses the entries of an array whose elements are no structures. -/
def parseEntries (elemTypeDef : TypeDefinition Offset) (elementType : String)
    (useSecondaryForElements : Bool) (count : Nat) (elementBaseOffset : Offset) :
    Parse Offset Unit := do
  let _ ← rounds (fun index dataOffset => do
    modify fun parser =>
      if useSecondaryForElements then parser.setPrimaryOffset dataOffset else parser
    let parser ← get
    parseMember
      (StructMember.plain elementType parser.primaryOffset useSecondaryForElements)
      (.entry (elementBaseOffset + ofNat index * elemTypeDef.size))
    modify fun parser =>
      if useSecondaryForElements then parser
      else parser.setPrimaryOffset (parser.primaryOffset + elemTypeDef.size)
    return if useSecondaryForElements then dataOffset + elemTypeDef.size else dataOffset) count 0
      elementBaseOffset

/-- Reads how many elements an array has. The count may lie elsewhere. -/
def readCount (buffer : AssetBuffer Offset) (member : StructMember Offset) (parsed : Parsed Offset)
    (before : Parser Offset) : Parse Offset Nat := do
  let parser ← get
  if toNat member.countOffset > 0 then do
    let countOffset := parser.startNullableOffset + member.offset + member.countOffset
    visitCount parsed member before countOffset
    buffer.readAt countOffset 4
  else buffer.readPrimary 4

/-- Parses an array. Having parsed one that has a value, the parser leaves the array elements. -/
def parseArray (catalog : AssetCatalog Offset) (buffer : AssetBuffer Offset)
    (member : StructMember Offset) (parsed : Parsed Offset) : Parse Offset Unit := do
  let before ← get
  let originalSecondaryOffset := before.getRealSecondaryOffset
  let arrayStartOffset := before.arrayStartOffset member
  modify fun parser => parser.setPrimaryOffset arrayStartOffset
  visitMember parsed member before arrayStartOffset
  let hasValue ← buffer.readPrimary 4
  let parser ← get
  let useSecondaryForElements := parser.secOffsetStruct ||
    (!parser.secOffsetStruct && !parser.processingArrayElement)
  let arrayDataOffset :=
    if useSecondaryForElements then parser.getSecondaryOffset else parser.primaryOffset
  if hasValue ≠ 0 then do
    Logged.log (.filled before)
    let count ← readCount buffer member parsed before
    modify (indent 1)
    let parser ← get
    match catalog.getStruct member.elementType with
    | some structDef =>
      let totalArraySize := structDef.fixedSize * ofNat count
      modify fun parser => parser.setSecondaryOffset (originalSecondaryOffset + totalArraySize)
      if useSecondaryForElements then
        parseElements parseStruct structDef member.elementType count arrayDataOffset
      else parsePrimaryElements parseStruct structDef member.elementType count parser.primaryOffset
    | none =>
      let useSecondaryForElements := !parser.secOffsetStruct && !parser.processingArrayElement
      let elementBaseOffset :=
        if useSecondaryForElements then parser.getSecondaryOffset else parser.primaryOffset
      let elemTypeDef := catalog.getType member.elementType
      let totalElementSize :=
        ofNat count * (elemTypeDef.map TypeDefinition.size).getD (ofNat 0)
      modify fun parser =>
        if useSecondaryForElements then
          parser.setSecondaryOffset (originalSecondaryOffset + totalElementSize)
        else parser
      match elemTypeDef with
      | none => pure ()
      | some elemTypeDef =>
        parseEntries parseMember elemTypeDef member.elementType useSecondaryForElements count
          elementBaseOffset
    modify fun parser => { parser with processingArrayElement := false }
    modify (indent (-1))
  else pure ()

/-- Parses a structure that is there or not, and that lies at the secondary offset if it is. -/
def parseNullable (catalog : AssetCatalog Offset) (buffer : AssetBuffer Offset)
    (typeDef : TypeDefinition Offset) (member : StructMember Offset) (parsed : Parsed Offset) :
    Parse Offset Unit := do
  let before ← get
  let originalSecondaryOffset := before.getRealSecondaryOffset
  let startOffset := before.memberStartOffset member
  modify fun parser => parser.setPrimaryOffset startOffset
  visitMember parsed member before startOffset
  let hasValue ← buffer.readPrimary 4
  if 0 < hasValue ∧ typeDef.targetType ≠ "" then
    match catalog.getStruct typeDef.targetType with
    | none => pure ()
    | some targetStruct => do
      let parser ← get
      Logged.log (.present parser)
      modify fun parser => { parser with startNullableOffset := parser.getRealSecondaryOffset }
      modify fun parser =>
        { parser with
          secOffsetStruct := true, processingArrayElement := true, isInsideNullable := true }
      modify fun parser => parser.setPrimaryOffset parser.getSecondaryOffset
      modify fun parser =>
        parser.setSecondaryOffset (originalSecondaryOffset + targetStruct.fixedSize)
      parseStruct typeDef.targetType parser.getSecondaryOffset
      modify fun current =>
        { current with
          processingArrayElement := parser.processingArrayElement
          secOffsetStruct := parser.secOffsetStruct
          currentStructBaseOffset := parser.currentStructBaseOffset
          isInsideNullable := false }
      modify fun parser => parser.setPrimaryOffset (startOffset + ofNat 4)
  else modify fun parser => parser.setPrimaryOffset (startOffset + ofNat 4)

/-- Parses a structure that lies inside of the one whose member it is. -/
def parseInline (typeDef : TypeDefinition Offset) (member : StructMember Offset)
    (parsed : Parsed Offset) : Parse Offset Unit := do
  let before ← get
  let currentOffset := before.memberStartOffset member
  modify fun parser => parser.setPrimaryOffset currentOffset
  let base ← visitStruct parsed member before currentOffset
  modify fun parser => { parser with currentStructBaseOffset := currentOffset }
  parseStruct typeDef.targetType base
  modify fun parser =>
    { parser with currentStructBaseOffset := before.currentStructBaseOffset }

/-- Parses a value that holds no other. -/
def parseValue (buffer : AssetBuffer Offset) (typeDef : TypeDefinition Offset)
    (member : StructMember Offset) (parsed : Parsed Offset) : Parse Offset Unit := do
  let before ← get
  let address := before.memberStartOffset member
  modify fun parser => parser.setPrimaryOffset address
  visitMember parsed member before address
  buffer.readValue typeDef.type

/-- Starts a structure. Outside of the primary part its base is taken from the secondary offset. -/
def enterStruct (structDef : StructDefinition Offset) (parser : Parser Offset) : Parser Offset :=
  if parser.secOffsetStruct then
    let entered :=
      { parser with
        structBaseOffsetStack := parser.currentStructBaseOffset :: parser.structBaseOffsetStack
        currentStructBaseOffset := parser.getSecondaryOffset }
    if parser.processingArrayElement then entered
    else entered.setSecondaryOffset (entered.getSecondaryOffset + structDef.fixedSize)
  else parser

/-- Ends a structure that was started with some base around it. -/
def leaveStruct (previousStructBaseOffset : Offset) (parser : Parser Offset) : Parser Offset :=
  if parser.secOffsetStruct then
    match parser.structBaseOffsetStack with
    | top :: rest => { parser with currentStructBaseOffset := top, structBaseOffsetStack := rest }
    | [] => { parser with currentStructBaseOffset := ofNat 0 }
  else { parser with currentStructBaseOffset := previousStructBaseOffset }

/-- Parses the members of a structure one after the other. -/
def parseMembers (structStartOffset base : Offset) : List (StructMember Offset) → Parse Offset Unit
  | [] => pure ()
  | member :: rest => do
    modify fun parser =>
      if parser.processingArrayElement then parser.setPrimaryOffset structStartOffset else parser
    parseMember member (.member base)
    parseMembers structStartOffset base rest

end Calls

mutual

/--
Parses a structure, whose fixed part is to start at the given base.

What a member throws is caught here, and skips what would follow the members. The depth bounds how
far calls may be nested.
-/
def parseStruct (catalog : AssetCatalog Offset) (buffer : AssetBuffer Offset) (depth : Nat)
    (structName : String) (base : Offset) : Parse Offset Unit :=
  match depth with
  | 0 => overflow
  | depth + 1 => do
    let before ← get
    attempt do
      match catalog.getStruct structName with
      | none => pure ()
      | some structDef => do
        modify (enterStruct structDef)
        modify (indent 1)
        parseMembers (parseMember catalog buffer depth) before.primaryOffset base structDef.members
        modify (indent (-1))
        modify (leaveStruct before.currentStructBaseOffset)
    let after ← get
    Logged.log (.left before after)

def parseMember (catalog : AssetCatalog Offset) (buffer : AssetBuffer Offset) (depth : Nat)
    (member : StructMember Offset) (parsed : Parsed Offset) : Parse Offset Unit :=
  match depth with
  | 0 => overflow
  | depth + 1 =>
    match catalog.getType member.typeName with
    | none => pure ()
    | some typeDef =>
      if member.typeName = "array" then
        parseArray (parseStruct catalog buffer depth) (parseMember catalog buffer depth) catalog
          buffer member parsed
      else
        match typeDef.type with
        | .nullable =>
          parseNullable (parseStruct catalog buffer depth) catalog buffer typeDef member parsed
        | .struct => parseInline (parseStruct catalog buffer depth) typeDef member parsed
        | _ => parseValue buffer typeDef member parsed

end

/-- Parses structures that all start where the buffer starts. -/
def parseRoots (catalog : AssetCatalog Offset) (buffer : AssetBuffer Offset) (depth : Nat) :
    List String → Parse Offset Unit
  | [] => pure ()
  | structType :: rest => do
    parseStruct catalog buffer depth structType (ofNat 0)
    parseRoots catalog buffer depth rest

/-- Parses the root structures of an asset, all of which start where the buffer starts. -/
def parse (catalog : AssetCatalog Offset) (buffer : AssetBuffer Offset) (depth : Nat)
    (fileType : FileTypeInfo Offset) : Logged.Result (Parser Offset) (Visit Offset) Unit :=
  let (structTypes, secondaryOffsetStart) :=
    match catalog.getVersionedFileTypeInfo fileType with
    | some info => (info.structTypes, info.secondaryOffsetStart)
    | none => (fileType.structTypes, fileType.secondaryOffsetStart)
  parseRoots catalog buffer depth structTypes (initial secondaryOffsetStart)

end Parser

end Parsing

end Recap.Game
