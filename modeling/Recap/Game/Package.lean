import Recap.Game.NameRegistry
import Recap.Game.PackageLookup
import Recap.Game.RefPackStream
import Recap.Lib.Latch

/-! A package file: its header, the files in it, and the manager that answers requests for them. -/

namespace Recap.Game.DBPF

open Decoding

/-- What the manager of a package throws. -/
inductive Failure where
  | reading (fault : Fault)
  | unrecognisedMagic
  | invalidMemSize
  | invalidCompressedSize
  | decompression (fault : RefPack.Fault)
  deriving DecidableEq, Repr

/-- What is printed where a package cannot be opened. -/
def Failure.what : Failure → String
  | reading .unexpectedEnd => "unexpected end of file"
  | reading .unknownCompression => "unknown compression label"
  | reading .invalidBoolean => "invalid boolean value"
  | reading .negativeCount => "negative index count"
  | unrecognisedMagic => "unrecognised DBPF type magic"
  | invalidMemSize => "invalid memSize"
  | invalidCompressedSize => "invalid compressedSize"
  | decompression fault => fault.what

/-! ## `DatabasePackedFile` -/

/-- A decoder of the index, with its faults among those of the package. -/
def reading {α : Type} (part : Read α) : Decoder Failure α := fun cursor =>
  match part cursor with
  | .done result => .done result
  | .thrown fault => .thrown (.reading fault)
  | .stuck => .stuck
  | .spent => .spent

/-- A word as an `int`. -/
def signed (word : UInt32) : Int := word.toInt32.toInt

/-- `DatabasePackedFile`, with the versions as the words that stand for them. -/
structure DatabasePackedFile where
  majorVersion : UInt32
  minVersion : UInt32
  indexMajorVersion : UInt32
  indexMinorVersion : UInt32
  isDBBF : Bool
  index : DBPFIndex
  indexCount : Int
  indexOffset : Int
  indexSize : Int

/-- `TYPE_DBPF` -/
def typeDBPF : UInt32 := 0x46504244

/-- `TYPE_DBBF` -/
def typeDBBF : UInt32 := 0x46424244

namespace DatabasePackedFile

/-- A package as it is constructed. -/
def new : DatabasePackedFile := ⟨3, 0, 0, 3, false, .new, 0, 0, 0⟩

variable (database : DatabasePackedFile)

/-- `ReadDBPF` -/
def readDBPF : Decoder Failure DatabasePackedFile := reading do
  let majorVersion ← readLEInt
  let minVersion ← readLEInt
  skip 20
  let indexMajorVersion ← readLEInt
  let indexCount ← readLEInt
  skip 4
  let indexSize ← readLEInt
  skip 12
  let indexMinorVersion ← readLEInt
  let indexOffset ← readLEInt
  return { database with
    majorVersion, minVersion, indexMajorVersion, indexMinorVersion
    indexCount := signed indexCount
    indexOffset := indexOffset.toNat
    indexSize := indexSize.toNat }

/-- `ReadDBBF`, in which the place and the size of the index are signed. -/
def readDBBF : Decoder Failure DatabasePackedFile := reading do
  let majorVersion ← readLEInt
  let minVersion ← readLEInt
  skip 20
  let indexMajorVersion ← readLEInt
  let indexCount ← readLEInt
  let indexSize ← readLEInt
  skip 8
  let indexMinorVersion ← readLEInt
  let indexOffset ← readLEInt
  return { database with
    majorVersion, minVersion, indexMajorVersion, indexMinorVersion
    indexCount := signed indexCount
    indexOffset := signed indexOffset
    indexSize := signed indexSize }

/-- `ReadHeader` -/
def readHeader : Decoder Failure DatabasePackedFile := do
  let magic ← reading readLEInt
  if magic = typeDBPF then readDBPF { database with isDBBF := false }
  else if magic = typeDBBF then readDBBF { database with isDBBF := true }
  else .throw .unrecognisedMagic

/--
`Seek` to a place that may be in front of the file, where the stream fails.

A word is read behind it, which is where the failure shows.
-/
def seekIndex (place : Int) : Decoder Failure Unit :=
  if place < 0 then .throw (.reading .unexpectedEnd) else seek place.toNat

/-- `ReadAll` -/
def readAll : Decoder Failure DatabasePackedFile := do
  let database ← database.readHeader
  seekIndex database.indexOffset
  let index ← reading do
    let index ← database.index.read
    index.readItems database.indexCount database.isDBBF
  return { database with index }

end DatabasePackedFile

/-! ## `FileReadStream` -/

/-- The stream of a package that has been opened, which stays failed once an operation has failed. -/
structure FileReadStream where
  file : Bytes
  position : Nat
  failed : Bool
  deriving DecidableEq, Repr

namespace FileReadStream

variable (stream : FileReadStream)

/-- `Seek`, with the offset as an `int64_t`, which fails in front of the file. -/
def seek (offset : UInt64) : FileReadStream :=
  if stream.failed then stream
  else if 2 ^ 63 ≤ offset.toNat then { stream with failed := true }
  else { stream with position := offset.toNat }

/-- `ReadBytes` -/
def readBytes (count : Nat) : Except Failure Bytes × FileReadStream :=
  if stream.failed then (.error (.reading .unexpectedEnd), stream)
  else if stream.position + count ≤ stream.file.length then
    (.ok ((stream.file.drop stream.position).take count),
      { stream with position := stream.position + count })
  else (.error (.reading .unexpectedEnd),
    { stream with position := max stream.position stream.file.length, failed := true })

end FileReadStream

/-! ## Files in the package -/

namespace DBPFItem

variable (item : DBPFItem)

/-- The buffer that a file is decompressed into, unless it is empty. -/
def decompress (comp : Bytes) : Except Failure Bytes :=
  if item.memSize = 0 then .ok []
  else
    let (buf, fault) := RefPack.decompressFast comp (List.replicate item.memSize.toNat 0)
    match fault with
    | none => .ok buf
    | some fault => .error (.decompression fault)

/-- `ProcessFile`, where nothing is read into an empty buffer. -/
def processFile (stream : FileReadStream) : Except Failure Bytes × FileReadStream :=
  let stream := stream.seek item.chunkOffset
  if signed item.memSize < 0 then (.error .invalidMemSize, stream)
  else if signed item.compressedSize < 0 ∧ item.isCompressed then
    (.error .invalidCompressedSize, stream)
  else if item.isCompressed then
    let (comp, stream) := if item.compressedSize = 0 then (.ok [], stream)
      else stream.readBytes item.compressedSize.toNat
    match comp with
    | .error failure => (.error failure, stream)
    | .ok comp => (item.decompress comp, stream)
  else if item.memSize = 0 then (.ok [], stream)
  else stream.readBytes item.memSize.toNat

end DBPFItem

/-! ## The manager -/

/-- The lines that `std::getline` finds in a text. -/
def getLines (text : Bytes) : List Bytes :=
  let lines := text.splitOn 10
  if lines.getLast? = some [] then lines.dropLast else lines

/-- The hashes of the group and the name of the file that holds names. -/
def namesKey (hasher : HashManager) : (UInt32 × UInt32) × HashManager :=
  let (group, hasher) := hasher.getFileHash (ascii "sporemaster")
  let (name, hasher) := hasher.getFileHash (ascii "names")
  ((group, name), hasher)

/-- Whether an item is the file that holds names, whatever its type. -/
def isNames (key : UInt32 × UInt32) (item : DBPFItem) : Bool :=
  item.name.groupID == key.1 && item.name.instanceID == key.2

/-- The registries once the lines of a text have been read into that of the project. -/
def readNames (hasher : HashManager) (raw : Bytes) : HashManager :=
  if raw = [] then hasher
  else { hasher with projectRegistry := hasher.projectRegistry.read (getLines raw) }

/-- `FindNamesFile` -/
def findNamesFile (items : List DBPFItem) (stream : FileReadStream) (hasher : HashManager) :
    Except Failure HashManager × FileReadStream :=
  match items.find? (isNames (namesKey hasher).1) with
  | none => (.ok (namesKey hasher).2, stream)
  | some item =>
    let (raw, stream) := item.processFile stream
    (raw.map (readNames (namesKey hasher).2), stream)

/-- A package that has been opened: its manager, its stream, and the registries. -/
structure OpenPackage where
  manager : DBPFManagerImpl
  stream : FileReadStream
  hasher : HashManager

/-- The items of a package are filed, and the names in it are read. -/
def fileItems (hasher : HashManager) (database : DatabasePackedFile) : Decoder Failure OpenPackage :=
  fun cursor =>
    let manager := DBPFManagerImpl.create .packageBridge database.index
    let (hasher, stream) :=
      findNamesFile database.index.items ⟨cursor.file, cursor.position, false⟩ hasher
    match hasher with
    | .error failure => .thrown failure
    | .ok hasher => .done (⟨manager, stream, hasher⟩, cursor)

/-- The constructor of `DBPFManagerImpl`, for a package whose file is read from its start. -/
def openPackage (hasher : HashManager) : Decoder Failure OpenPackage := do
  let database ← DatabasePackedFile.new.readAll
  fileItems hasher database

/-- A request for a file: by its key, or for the first one of a type. -/
inductive Request where
  /-- `get_binary` -/
  | binary (key : ResourceKey)
  /-- `debug_get_first_of_type`, with the hash of the type. -/
  | firstOfType (typeHash : UInt32)
  deriving DecidableEq, Repr

namespace DBPFManagerImpl

variable (manager : DBPFManagerImpl)

/-- The item that a request is for. -/
def choose : Request → Option DBPFItem
  | .binary key =>
    if manager.mode ≠ .packageBridge then none
    else (manager.find key).bind fun place => manager.header.items[place]?
  | .firstOfType typeHash =>
    if manager.mode ≠ .packageBridge then none
    else manager.header.items.find? fun item => item.name.typeID == typeHash

/-- Answer a request with what is read from the shared stream, or with nothing. -/
def serve (stream : FileReadStream) (request : Request) :
    Except Failure (Option Bytes) × FileReadStream :=
  match manager.choose request with
  | none => (.ok none, stream)
  | some item =>
    let (raw, stream) := item.processFile stream
    (raw.map some, stream)

end DBPFManagerImpl

end Recap.Game.DBPF
