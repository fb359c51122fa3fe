import Recap.Game.PackageStream

/-! What is laid out as a package is opened, and each of its files is given back for its key. -/

namespace Recap.Game.DBPF

open Decoding

/-! ## The bytes of a package -/

/-- What the header of a package says beside the number of its items and the place of its index. -/
structure Header where
  majorVersion : UInt32
  minVersion : UInt32
  indexMajorVersion : UInt32
  indexMinorVersion : UInt32
  indexSize : UInt32
  first : Vector UInt8 20
  second : Vector UInt8 4
  third : Vector UInt8 12
  last : Vector UInt8 8

/-- How a file stands in a package: as it is, or as a stream of commands that make it. -/
inductive Chunk where
  | plain (contents : Bytes)
  | packed (cType unused : UInt8) (commands : List RefPack.Command)

namespace Chunk

/-- The bytes that stand in the package. -/
def bytes : Chunk → Bytes
  | plain contents => contents
  | packed cType unused commands => RefPack.serialize cType unused commands

/-- The file. -/
def contents : Chunk → Bytes
  | plain contents => contents
  | packed _ _ commands => RefPack.interpret commands []

/-- Whether an item says of a chunk how it stands there and how large it is, and a stream is sound. -/
def Fits (item : DBPFItem) : Chunk → Prop
  | plain contents => item.isCompressed = false ∧ item.memSize.toNat = contents.length
  | packed cType unused commands =>
    item.isCompressed = true ∧ item.memSize.toNat = (RefPack.interpret commands []).length ∧
      item.compressedSize.toNat = (RefPack.serialize cType unused commands).length ∧
      (cType = 0x10 ∨ cType = 0x50) ∧ RefPack.Sound commands [] ∧
      (RefPack.interpret commands []).length < 2 ^ 24

end Chunk

/-- An item of a package with its file. -/
structure Packed where
  stored : Stored
  chunk : Chunk

/-- What a package holds. -/
structure Package where
  header : Header
  shared : Shared
  files : List Packed

namespace Package

variable (package : Package)

/-- The items of the index. -/
def stored : List Stored := package.files.map Packed.stored

/-- The bytes in front of everything else, with the place of the index. -/
def headerBytes (place : UInt32) : Bytes :=
  let header := package.header
  let count := wordBytes (UInt32.ofNat package.files.length)
  if package.shared.isDBBF then
    wordBytes typeDBBF ++ (wordBytes header.majorVersion ++ (wordBytes header.minVersion ++
      (header.first.toList ++ (wordBytes header.indexMajorVersion ++ (count ++
        (wordBytes header.indexSize ++ (header.last.toList ++
          (wordBytes header.indexMinorVersion ++ wordBytes place))))))))
  else
    wordBytes typeDBPF ++ (wordBytes header.majorVersion ++ (wordBytes header.minVersion ++
      (header.first.toList ++ (wordBytes header.indexMajorVersion ++ (count ++
        (header.second.toList ++ (wordBytes header.indexSize ++ (header.third.toList ++
          (wordBytes header.indexMinorVersion ++ wordBytes place)))))))))

/--
Whether a file is a package of this content.

The header stands at its start. The index and the files stand in any order, and may share bytes.
-/
structure LaidOut (file : Bytes) : Prop where
  small : file.length < 2 ^ 63
  few : package.files.length < 2 ^ 31
  parts : ∃ place : UInt32, (package.shared.isDBBF → place.toNat < 2 ^ 31) ∧
    StandsAt file 0 (package.headerBytes place) ∧
    StandsAt file place.toNat (package.shared.bytes package.stored)
  plain : ¬ package.shared.Misread
  fits : ∀ packed ∈ package.files, package.shared.Fits packed.stored
  chunks : ∀ packed ∈ package.files, packed.chunk.Fits packed.stored.item ∧
    packed.stored.item.memSize.toNat < 2 ^ 31 ∧
    StandsAt file packed.stored.item.chunkOffset.toNat packed.chunk.bytes

/-- The file that a request is for, which is the first one of its key or its type. -/
def lookup (request : Request) : Option Bytes :=
  let asked := fun packed : Packed => match request with
    | .binary key => packed.stored.item.name == key
    | .firstOfType typeHash => packed.stored.item.name.typeID == typeHash
  (package.files.find? asked).map fun packed => packed.chunk.contents

end Package

/-! ## Opening -/

/-- What a part of the index reads is read by the package as well. -/
theorem readsAt_reading {α : Type} {part : Read α} {bytes : Bytes} {value : α} {front : Bytes}
    (reads : ReadsAt front part bytes value) : ReadsAt front (DBPF.reading part) bytes value := by
  intro back
  rw [DBPF.reading, reads back]

/-- An unsigned number below the sign bit is itself as an `int`. -/
theorem signed_of_small {word : UInt32} (small : word.toNat < 2 ^ 31) : signed word = word.toNat := by
  have same : word.toInt32.toInt = (word.toNat : Int).bmod (2 ^ 32) := by
    rw [UInt32.toInt32, Int32.toInt, BitVec.toInt_eq_toNat_bmod]
    rfl
  rw [signed, same, Int.bmod_eq_of_le (by omega) (by omega)]

/-- What is read of a header. -/
def Package.headed (package : Package) (place : UInt32) : DatabasePackedFile where
  majorVersion := package.header.majorVersion
  minVersion := package.header.minVersion
  indexMajorVersion := package.header.indexMajorVersion
  indexMinorVersion := package.header.indexMinorVersion
  isDBBF := package.shared.isDBBF
  index := .new
  indexCount := signed (UInt32.ofNat package.files.length)
  indexOffset := if package.shared.isDBBF then signed place else place.toNat
  indexSize := if package.shared.isDBBF then signed package.header.indexSize
    else package.header.indexSize.toNat

/-- A gap of the header is skipped. -/
theorem reads_gap {count : Nat} (gap : Vector UInt8 count) :
    Reads (skip count : Read Unit) gap.toList () := by
  have read := reads_skip (ε := Fault) gap.toList
  rwa [Vector.length_toList] at read

/-- The header of a package is read back. -/
theorem reads_header (package : Package) (place : UInt32) :
    Reads DatabasePackedFile.new.readHeader (package.headerBytes place) (package.headed place) := by
  intro front
  unfold DatabasePackedFile.readHeader Package.headerBytes Package.headed
  have other : typeDBBF ≠ typeDBPF := by decide
  cases kind : package.shared.isDBBF with
  | true =>
    refine (readsAt_reading (reads_word typeDBBF front)).bind ?_
    rw [if_neg other, if_pos rfl]
    apply readsAt_reading
    -- One word after another, and the gaps between them.
    refine (reads_word _ _).bind ((reads_word _ _).bind ((reads_gap _ _).bind ?_))
    refine (reads_word _ _).bind ((reads_word _ _).bind ((reads_word _ _).bind ?_))
    refine (reads_gap _ _).bind ((reads_word _ _).bind ?_)
    exact (reads_word place).map _ _
  | false =>
    refine (readsAt_reading (reads_word typeDBPF front)).bind ?_
    rw [if_pos rfl]
    apply readsAt_reading
    refine (reads_word _ _).bind ((reads_word _ _).bind ((reads_gap _ _).bind ?_))
    refine (reads_word _ _).bind ((reads_word _ _).bind ((reads_gap _ _).bind ?_))
    refine (reads_word _ _).bind ((reads_gap _ _).bind ((reads_word _ _).bind ?_))
    exact (reads_word place).map _ _

/-- The items of a package are read from its index, wherever that stands. -/
theorem reads_index {package : Package} {front : Bytes} (plain : ¬ package.shared.Misread)
    (fits : ∀ packed ∈ package.files, package.shared.Fits packed.stored) :
    ReadsAt front (do
        let index ← DBPFIndex.new.read
        index.readItems package.files.length package.shared.isDBBF)
      (package.shared.bytes package.stored)
      { headIndex package.shared front with items := package.stored.map Stored.item } := by
  have fitting : ∀ stored ∈ package.stored, package.shared.Fits stored := by
    intro stored member
    obtain ⟨packed, inside, rfl⟩ := List.mem_map.mp member
    exact fits packed inside
  have items := readsAt_items front fitting plain
  rw [Package.stored, List.length_map] at items
  exact (readsAt_head front package.shared).bind items

variable {package : Package} {file : Bytes}

/-- What is laid out as a package is read to its last item. -/
theorem readAll_of_laidOut (laid : package.LaidOut file) :
    ∃ database after, DatabasePackedFile.new.readAll ⟨file, 0⟩ = .done (database, after) ∧
      database.index.items = package.stored.map Stored.item ∧ after.file = file := by
  obtain ⟨place, low, header, index⟩ := laid.parts
  obtain ⟨_, -, headed⟩ := header.read fun front _ => reads_header package place front
  -- The place is the same number in both formats, and so is the count.
  have offset : (package.headed place).indexOffset = place.toNat := by
    unfold Package.headed
    split
    · rename_i kind
      exact signed_of_small (low kind)
    · rfl
  have few := laid.few
  have same : (UInt32.ofNat package.files.length).toNat = package.files.length :=
    UInt32.toNat_ofNat_of_lt' (Nat.lt_trans few (by decide))
  have count : (package.headed place).indexCount = package.files.length := by
    change signed _ = _
    rw [signed_of_small (by omega), same]
  have sought : DatabasePackedFile.seekIndex place.toNat
      ⟨file, 0 + (package.headerBytes place).length⟩ = .done ((), ⟨file, place.toNat⟩) := by
    rw [DatabasePackedFile.seekIndex, if_neg (Int.not_lt.mpr (Int.natCast_nonneg _))]
    rfl
  obtain ⟨front, -, read⟩ := index.read fun front _ =>
    readsAt_reading (@reads_index package front laid.plain laid.fits)
  refine ⟨{ package.headed place with
      index := { headIndex package.shared front with items := package.stored.map Stored.item } },
    ⟨file, place.toNat + (package.shared.bytes package.stored).length⟩, ?_, rfl, rfl⟩
  rw [← count] at read
  rw [← offset] at sought
  rw [DatabasePackedFile.readAll, Program.bind_done headed, Program.bind_done sought]
  exact @Program.bind_done _ _ _ _ _
    (fun index => pure { package.headed place with index }) _ _ _ read

/-! ## Files -/

/-- A stream that is sound is decompressed into a buffer of the size of what it makes. -/
theorem decompress_serialize {item : DBPFItem} {cType unused : UInt8}
    {commands : List RefPack.Command}
    (size : item.memSize.toNat = (RefPack.interpret commands []).length)
    (known : cType = 0x10 ∨ cType = 0x50) (sound : RefPack.Sound commands [])
    (small : (RefPack.interpret commands []).length < 2 ^ 24) :
    item.decompress (RefPack.serialize cType unused commands) =
      .ok (RefPack.interpret commands []) := by
  unfold DBPFItem.decompress
  by_cases none : item.memSize = 0
  · -- What makes nothing is not run at all.
    rw [none] at size
    rw [if_pos none, List.length_eq_zero_iff.mp size.symm]
  · have room : (RefPack.interpret commands []).length ≤
        (List.replicate item.memSize.toNat (0 : UInt8)).length := by
      rw [List.length_replicate, size]
    obtain ⟨ran, -⟩ := RefPack.decompressFast_serialize cType unused commands _ known sound small room
    -- The buffer has no bytes behind the output.
    rw [List.drop_eq_nil_of_le (by rw [List.length_replicate, size]), List.append_nil] at ran
    rw [if_neg none, ran]

/-- A file that stands in a package is what its item is read as, and leaves the stream working. -/
theorem contents_of_chunk {packed : Packed} (small : file.length < 2 ^ 63)
    (fits : packed.chunk.Fits packed.stored.item) (size : packed.stored.item.memSize.toNat < 2 ^ 31)
    (masked : packed.stored.item.compressedSize.toNat < 2 ^ 31)
    (stands : StandsAt file packed.stored.item.chunkOffset.toNat packed.chunk.bytes) :
    packed.stored.item.contents file = .ok packed.chunk.contents ∧
      ¬ packed.stored.item.Spoils file := by
  obtain ⟨inside, bytes⟩ := stands.bytes
  generalize packed.stored.item = item at fits size masked inside bytes
  have accepted : item.refused = none := by
    rw [DBPFItem.refused, signed_of_small size, signed_of_small masked, if_neg (by omega),
      if_neg (by omega)]
  have near : ¬ 2 ^ 63 ≤ item.chunkOffset.toNat := by omega
  -- The bytes that are wanted are those of the chunk.
  have wants : item.wants = packed.chunk.bytes.length := by
    unfold DBPFItem.wants
    cases chunk : packed.chunk with
    | plain contents =>
      obtain ⟨kind, length⟩ := chunk ▸ fits
      simp [accepted, kind, length, Chunk.bytes]
    | packed cType unused commands =>
      obtain ⟨kind, -, length, -⟩ := chunk ▸ fits
      simp [accepted, kind, length, Chunk.bytes]
  constructor
  · rw [DBPFItem.contents, DBPFItem.processFile_eq, accepted]
    have fetched := @FileReadStream.fetch_seek_inside file item.chunkOffset item.wants near (by omega)
    simp only [fetched, Except.bind]
    rw [wants, bytes]
    -- What is made of the bytes depends on how they stand there.
    unfold DBPFItem.finish
    cases chunk : packed.chunk with
    | plain contents =>
      obtain ⟨kind, -⟩ := chunk ▸ fits
      simp [kind, Chunk.bytes, Chunk.contents]
    | packed cType unused commands =>
      obtain ⟨kind, length, -, known, sound, small⟩ := chunk ▸ fits
      rw [if_pos kind]
      exact decompress_serialize length known sound small
  · intro spoils
    rcases spoils with front | ⟨-, short⟩
    · exact near front
    · omega

namespace Package.LaidOut

/-- The items of a package are its files' items, each of which is read as its file. -/
theorem contents (laid : package.LaidOut file) {packed : Packed} (member : packed ∈ package.files) :
    packed.stored.item.contents file = .ok packed.chunk.contents ∧
      ¬ packed.stored.item.Spoils file := by
  obtain ⟨fits, size, stands⟩ := laid.chunks packed member
  exact contents_of_chunk laid.small fits size (laid.fits packed member).compressedSize stands

end Package.LaidOut

/-- A search among the items of a package is one among its files. -/
theorem find_stored (package : Package) (asked : DBPFItem → Bool) :
    (package.stored.map Stored.item).find? asked =
      (package.files.find? fun packed => asked packed.stored.item).map fun packed =>
        packed.stored.item := by
  rw [Package.stored, List.map_map, List.find?_map]
  rfl

/-- The item that a request is for is that of the file that it is for. -/
theorem choose_create {index : DBPFIndex} (items : index.items = package.stored.map Stored.item)
    (request : Request) :
    ∃ found : Option Packed, (∀ packed ∈ found, packed ∈ package.files) ∧
      (DBPFManagerImpl.create .packageBridge index).choose request =
        found.map (fun packed => packed.stored.item) ∧
      package.lookup request = found.map fun packed => packed.chunk.contents := by
  have held : (DBPFManagerImpl.create .packageBridge index).header = index := rfl
  have mode : (DBPFManagerImpl.create .packageBridge index).mode = .packageBridge := rfl
  cases request with
  | binary key =>
    refine ⟨package.files.find? fun packed => packed.stored.item.name == key,
      fun packed found => List.mem_of_find?_eq_some found, ?_, rfl⟩
    -- The map over the items comes to the first one of the key.
    have first := index.getBinary_create key id
    simp only [DBPFManagerImpl.getBinary, DBPFManagerImpl.choose, Option.map_id_fun, id] at first ⊢
    rw [first, items, find_stored]
  | firstOfType typeHash =>
    refine ⟨package.files.find? fun packed => packed.stored.item.name.typeID == typeHash,
      fun packed found => List.mem_of_find?_eq_some found, ?_, rfl⟩
    rw [DBPFManagerImpl.choose, if_neg (not_not.mpr mode), held, items, find_stored]

/-- The registries once the names in a package have been read. -/
def Package.named (package : Package) (hasher : HashManager) : HashManager :=
  let names := package.files.find? fun packed => isNames (namesKey hasher).1 packed.stored.item
  readNames (namesKey hasher).2 ((names.map fun packed => packed.chunk.contents).getD [])

/-- The names in a package are found, and reading them leaves the stream working. -/
theorem findNamesFile_of_laidOut (laid : package.LaidOut file) (position : Nat)
    (hasher : HashManager) :
    ∃ after, findNamesFile (package.stored.map Stored.item) ⟨file, position, false⟩ hasher =
      (.ok (package.named hasher), after) ∧ after.file = file ∧ after.failed = false := by
  unfold findNamesFile Package.named
  rw [find_stored]
  cases found : package.files.find? fun packed =>
      isNames (namesKey hasher).1 packed.stored.item with
  | none => exact ⟨_, rfl, rfl, rfl⟩
  | some packed =>
    obtain ⟨read, harmless⟩ := laid.contents (List.mem_of_find?_eq_some found)
    obtain ⟨same, spoilt⟩ := packed.stored.item.processFile_working
      (rfl : (⟨file, position, false⟩ : FileReadStream).failed = false)
    refine ⟨(packed.stored.item.processFile ⟨file, position, false⟩).2, ?_, ?_, ?_⟩
    · simp only [Option.map_some, same, read]
      rfl
    · exact packed.stored.item.processFile_file _
    · exact Bool.eq_false_iff.mpr fun failed => harmless (spoilt.mp failed)

/--
What is laid out as a package is opened, and gives for each request of a run the file that it is for.

The names in it have been read before.
-/
theorem openPackage_serves (laid : package.LaidOut file) (hasher : HashManager) :
    ∃ opened after, openPackage hasher ⟨file, 0⟩ = .done (opened, after) ∧
      opened.hasher = package.named hasher ∧
      ∀ requests, Latch.answers opened.manager.serve opened.stream requests =
        requests.map fun request => .ok (package.lookup request) := by
  obtain ⟨database, cursor, read, items, same⟩ := readAll_of_laidOut laid
  obtain ⟨stream, named, unchanged, working⟩ :=
    findNamesFile_of_laidOut laid cursor.position hasher
  refine ⟨⟨DBPFManagerImpl.create .packageBridge database.index, stream, package.named hasher⟩,
    cursor, ?_, rfl, ?_⟩
  · rw [openPackage, Program.bind_done read, fileItems, items, same, named]
  · intro requests
    -- No item of the package spoils the stream, so that all answers are fresh ones.
    have harmless : ∀ request ∈ requests,
        ¬ (DBPFManagerImpl.create .packageBridge database.index).Spoils file request := by
      intro request _ ⟨item, chosen, harm⟩
      obtain ⟨found, inside, choice, -⟩ := choose_create items request
      obtain ⟨packed, there, rfl⟩ := Option.map_eq_some_iff.mp (choice ▸ chosen)
      exact (laid.contents (inside packed there)).2 harm
    rw [((DBPFManagerImpl.create .packageBridge database.index).breaks file).answers_of_harmless
      ⟨unchanged, working⟩ harmless, List.map_inj_left]
    intro request _
    obtain ⟨found, inside, choice, looked⟩ := choose_create items request
    rw [DBPFManagerImpl.fresh, choice, looked]
    cases found with
    | none => rfl
    | some packed =>
      simp only [Option.map_some, (laid.contents (inside packed rfl)).1]
      rfl

/-- A file that stands in a package as it is, and one that is decompressed. -/
def plainAndPacked : Package where
  header := ⟨3, 0, 0, 3, 0, .replicate 20 0, .replicate 4 0, .replicate 12 0, .replicate 8 0⟩
  shared := ⟨1, 7, 0, 0, false, false⟩
  files := [⟨⟨⟨false, 68, 3, 0, ⟨7, 2, 3⟩, true⟩, false, 0⟩, .plain [1, 2, 3]⟩,
    ⟨⟨⟨true, 71, 12, 15, ⟨7, 2, 4⟩, true⟩, true, 0⟩,
      .packed 0x10 0xFB [.literal [1, 2, 3, 4], .short [5] 1 6, .last [7]]⟩]

/-- The header, the two files, and the index behind them. -/
def plainAndPackedFile : Bytes :=
  plainAndPacked.headerBytes 86 ++ ([1, 2, 3] ++
    (RefPack.serialize 0x10 0xFB [.literal [1, 2, 3, 4], .short [5] 1 6, .last [7]] ++
      plainAndPacked.shared.bytes plainAndPacked.stored))

theorem plainAndPacked_laidOut : plainAndPacked.LaidOut plainAndPackedFile where
  small := by
    have length : plainAndPackedFile.length = 142 := rfl
    omega
  few := by decide
  parts := by
    refine ⟨86, fun _ => by decide, ⟨[], _, rfl, rfl⟩, ?_⟩
    refine ⟨plainAndPacked.headerBytes 86 ++ ([1, 2, 3] ++
      RefPack.serialize 0x10 0xFB [.literal [1, 2, 3, 4], .short [5] 1 6, .last [7]]), [], ?_, ?_⟩
    · simp [plainAndPackedFile]
    · rfl
  plain := by
    have type : (7 : UInt32) ≠ 0xFFFFFFFF := by decide
    have group : flag 1 1 ≠ true := by decide
    simp [Shared.Misread, plainAndPacked, Shared.sharesInstance, type, group]
  fits := by
    have group : flag 1 1 ≠ true := by decide
    simp only [plainAndPacked, List.forall_mem_cons, List.not_mem_nil, false_implies, implies_true,
      and_true]
    constructor
    · exact ⟨fun _ => rfl, fun shares => absurd shares group,
        fun shares => absurd shares Bool.false_ne_true, by decide, fun _ => by decide⟩
    · exact ⟨fun _ => rfl, fun shares => absurd shares group,
        fun shares => absurd shares Bool.false_ne_true, by decide, fun _ => by decide⟩
  chunks := by
    simp only [plainAndPacked, List.forall_mem_cons, List.not_mem_nil, false_implies, implies_true,
      and_true]
    constructor
    · exact ⟨⟨rfl, rfl⟩, by decide, plainAndPacked.headerBytes 86, _, rfl, rfl⟩
    · refine ⟨⟨rfl, rfl, rfl, .inl rfl, by decide, by decide⟩, by decide, ?_⟩
      exact ⟨plainAndPacked.headerBytes 86 ++ [1, 2, 3], _,
        (List.append_assoc _ _ _).symm, rfl⟩

/-- Both files are given back, and nothing for any other request. -/
theorem openPackage_serves_plainAndPacked :
    ∃ opened after,
      openPackage ⟨.empty, .empty, false⟩ ⟨plainAndPackedFile, 0⟩ = .done (opened, after) ∧
        opened.hasher = plainAndPacked.named ⟨.empty, .empty, false⟩ ∧
        ∀ requests, Latch.answers opened.manager.serve opened.stream requests =
          requests.map fun request => .ok (plainAndPacked.lookup request) :=
  openPackage_serves plainAndPacked_laidOut ⟨.empty, .empty, false⟩

example : plainAndPacked.lookup (.binary ⟨7, 2, 4⟩) = some [1, 2, 3, 4, 5, 5, 5, 5, 5, 5, 5, 7] := by
  decide

end Recap.Game.DBPF
