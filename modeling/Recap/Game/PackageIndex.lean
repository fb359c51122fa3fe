import Recap.Lib.Decoding

/-! The index of a package file: keys whose parts are shared by all items or stored with each one. -/

namespace Recap.Game.DBPF

open Decoding

/-- What the reader of an index throws. -/
inductive Fault where
  | unexpectedEnd
  | unknownCompression
  | invalidBoolean
  | negativeCount
  deriving DecidableEq, Repr

abbrev Read (α : Type) := Decoder Fault α

/-! ## `FileReadStream` -/

/-- `ReadLEInt` and `ReadLEUInt`, with signed numbers as the words that stand for them. -/
def readLEInt : Read UInt32 := do
  let bytes ← take .unexpectedEnd 4
  return UInt32.ofNat (littleEndian bytes)

/-- `ReadLELong` -/
def readLELong : Read UInt64 := do
  let bytes ← take .unexpectedEnd 8
  return UInt64.ofNat (littleEndian bytes)

/-- `ReadLEShort` -/
def readLEShort : Read UInt16 := do
  let bytes ← take .unexpectedEnd 2
  return UInt16.ofNat (littleEndian bytes)

/-- `ReadBoolean` -/
def readBoolean : Read Bool := do
  let bytes ← take .unexpectedEnd 1
  if littleEndian bytes = 0 then return false
  else if littleEndian bytes = 1 then return true
  else .throw .invalidBoolean

/-! ## Items and the index -/

structure ResourceKey where
  typeID : UInt32
  groupID : UInt32
  instanceID : UInt32
  deriving DecidableEq, Repr

structure DBPFItem where
  isCompressed : Bool
  chunkOffset : UInt64
  memSize : UInt32
  compressedSize : UInt32
  name : ResourceKey
  isSaved : Bool
  deriving DecidableEq, Repr

/-- An item as it is constructed. -/
def DBPFItem.new : DBPFItem := ⟨false, 0, 0, 0, ⟨0, 0, 0⟩, true⟩

/-- A word that is read where it is stored, and otherwise the one that is there already. -/
def readWhere (stored : Bool) (held : UInt32) : Read UInt32 :=
  if stored then readLEInt else pure held

/-- How a compression label is understood. -/
def compression (label : UInt16) : Read Bool :=
  if label = 0 then return false
  else if label = 0xFFFF then return true
  else .throw .unknownCompression

/-- An offset, of eight bytes in one of the two formats and of four in the other. -/
def readOffset (isDBBF : Bool) : Read UInt64 :=
  if isDBBF then readLELong else do
    let offset ← readLEInt
    return offset.toUInt64

/-- `DBPFItem::Read` -/
def DBPFItem.read (item : DBPFItem) (isDBBF readType readGroup : Bool) : Read DBPFItem := do
  let typeID ← readWhere readType item.name.typeID
  let groupID ← readWhere readGroup item.name.groupID
  let instanceID ← readLEInt
  let chunkOffset ← readOffset isDBBF
  let compressedSize ← readLEInt
  let memSize ← readLEInt
  let label ← readLEShort
  let isCompressed ← compression label
  let isSaved ← readBoolean
  skip 1
  return ⟨isCompressed, chunkOffset, memSize, compressedSize &&& 0x7FFFFFFF,
    ⟨typeID, groupID, instanceID⟩, isSaved⟩

structure DBPFIndex where
  groupID : UInt32
  typeID : UInt32
  items : List DBPFItem
  itemsOffset : Nat

/-- An index as it is constructed, whose ids are both -1. -/
def DBPFIndex.new : DBPFIndex := ⟨0xFFFFFFFF, 0xFFFFFFFF, [], 0⟩

/-- `typeFlags & (1 << bit)` -/
def flag (typeFlags : UInt32) (bit : Nat) : Bool := typeFlags.toNat.testBit bit

/-- `DBPFIndex::Read` -/
def DBPFIndex.read (index : DBPFIndex) : Read DBPFIndex := do
  let typeFlags ← readLEInt
  let typeID ← readWhere (flag typeFlags 0) index.typeID
  let groupID ← readWhere (flag typeFlags 1) index.groupID
  let _ ← readWhere (flag typeFlags 2) 0
  let itemsOffset ← tell
  return { index with typeID, groupID, itemsOffset }

/-- `readType`: whether the type is taken from each item. -/
def DBPFIndex.readsType (index : DBPFIndex) : Bool := index.typeID = 0xFFFFFFFF

/-- `readGroup` -/
def DBPFIndex.readsGroup (index : DBPFIndex) : Bool := index.groupID = 0xFFFFFFFF

/-- A new item, with the parts of its key that are not taken from the item. -/
def DBPFIndex.freshItem (index : DBPFIndex) : DBPFItem := { DBPFItem.new with
  name := ⟨if index.readsType then 0 else index.typeID,
    if index.readsGroup then 0 else index.groupID, 0⟩ }

/-- One round of the loop over the items. -/
def DBPFIndex.readItem (index : DBPFIndex) (isDBBF : Bool) (items : List DBPFItem) :
    Read (List DBPFItem) := do
  let item ← index.freshItem.read isDBBF index.readsType index.readsGroup
  return items ++ [item]

/-- `DBPFIndex::ReadItems` -/
def DBPFIndex.readItems (index : DBPFIndex) (numItems : Int) (isDBBF : Bool) : Read DBPFIndex := do
  if numItems < 0 then .throw .negativeCount else
  seek index.itemsOffset
  let items ← Program.repeated (index.readItem isDBBF) numItems.toNat []
  return { index with items }

/-- Read an index from where it starts. -/
def readIndex (numItems : Int) (isDBBF : Bool) : Read DBPFIndex := do
  let index ← DBPFIndex.new.read
  index.readItems numItems isDBBF

/-! ## An index as it is stored -/

/--
What an index says once for all of its items.

Bit 0 of the flags stands for the type and bit 1 for the group. Bit 2 stands for a third word,
which the reader skips; whether it takes the place of the items' instances is left to the format.
-/
structure Shared where
  typeFlags : UInt32
  typeID : UInt32
  groupID : UInt32
  third : UInt32
  isInstance : Bool
  isDBBF : Bool

/-- An item with the two parts of its bytes that do not count: the top bit of its size, and a byte of padding. -/
structure Stored where
  item : DBPFItem
  topBit : Bool
  padding : UInt8

/-- The four bytes of a word. -/
def wordBytes (word : UInt32) : List UInt8 := lowBytes 4 word.toNat

/-- The bytes of a word where it is stored. -/
def bytesWhere (stored : Bool) (word : UInt32) : List UInt8 := if stored then wordBytes word else []

namespace Shared

variable (shared : Shared)

/-- Whether all items share their instance. -/
def sharesInstance : Bool := shared.isInstance && flag shared.typeFlags 2

/-- The bytes in front of the items. -/
def headBytes : List UInt8 :=
  wordBytes shared.typeFlags ++ (bytesWhere (flag shared.typeFlags 0) shared.typeID ++
    (bytesWhere (flag shared.typeFlags 1) shared.groupID ++
      bytesWhere (flag shared.typeFlags 2) shared.third))

/-- The bytes of an item, where each part of its key stands unless it is shared. -/
def itemBytes (stored : Stored) : List UInt8 :=
  bytesWhere (!flag shared.typeFlags 0) stored.item.name.typeID ++
    (bytesWhere (!flag shared.typeFlags 1) stored.item.name.groupID ++
    (bytesWhere (!shared.sharesInstance) stored.item.name.instanceID ++
    (lowBytes (if shared.isDBBF then 8 else 4) stored.item.chunkOffset.toNat ++
    (wordBytes (stored.item.compressedSize ||| if stored.topBit then 0x80000000 else 0) ++
    (wordBytes stored.item.memSize ++
    (lowBytes 2 (if stored.item.isCompressed then 0xFFFF else 0) ++
    (lowBytes 1 stored.item.isSaved.toNat ++ [stored.padding])))))))

/-- The bytes of the index. -/
def bytes (items : List Stored) : List UInt8 := shared.headBytes ++ items.flatMap shared.itemBytes

/-- Whether an item has the parts of its key that are shared, and numbers that the format can hold. -/
structure Fits (stored : Stored) : Prop where
  typeID : flag shared.typeFlags 0 → stored.item.name.typeID = shared.typeID
  groupID : flag shared.typeFlags 1 → stored.item.name.groupID = shared.groupID
  instanceID : shared.sharesInstance → stored.item.name.instanceID = shared.third
  compressedSize : stored.item.compressedSize.toNat < 2 ^ 31
  chunkOffset : ¬ shared.isDBBF → stored.item.chunkOffset.toNat < 2 ^ 32

/-- Whether a shared type or group is the one that the reader takes for none, or the instances are not stored. -/
def Misread : Prop :=
  flag shared.typeFlags 0 ∧ shared.typeID = 0xFFFFFFFF ∨
    flag shared.typeFlags 1 ∧ shared.groupID = 0xFFFFFFFF ∨ shared.sharesInstance

/-- Whether the items are read back from the index, wherever it stands in a file. -/
def ReadsBack (items : List Stored) : Prop :=
  ∀ front back, ∃ index after,
    readIndex items.length shared.isDBBF ⟨front ++ (shared.bytes items ++ back), front.length⟩ =
      .done (index, after) ∧ index.items = items.map Stored.item

end Shared

/-! ## Fields -/

theorem reads_word (word : UInt32) : Reads readLEInt (wordBytes word) word := by
  have small : word.toNat < 256 ^ 4 := word.toNat_lt
  have taken := reads_take Fault.unexpectedEnd (wordBytes word)
  rw [wordBytes, lowBytes_length] at taken
  have read := taken.map fun bytes => UInt32.ofNat (littleEndian bytes)
  rw [littleEndian_lowBytes small, UInt32.ofNat_toNat] at read
  exact read

/-- A word is read where it is stored, and is the one that was there where it is not. -/
theorem reads_where (stored : Bool) (held word : UInt32) :
    Reads (readWhere stored held) (bytesWhere stored word) (if stored then word else held) := by
  cases stored with
  | true => exact reads_word word
  | false => exact Reads.pure held

/-- A word that is there wherever it is not stored is read in either case. -/
theorem reads_shared {stored : Bool} {held word : UInt32} (same : stored = false → held = word) :
    Reads (readWhere stored held) (bytesWhere stored word) word := by
  have read := reads_where stored held word
  cases stored with
  | true => exact read
  | false => exact same rfl ▸ read

theorem reads_offset (isDBBF : Bool) {offset : UInt64}
    (small : ¬ isDBBF → offset.toNat < 2 ^ 32) :
    Reads (readOffset isDBBF) (lowBytes (if isDBBF then 8 else 4) offset.toNat) offset := by
  cases isDBBF with
  | true =>
    have fits : offset.toNat < 256 ^ 8 := offset.toNat_lt
    have taken := reads_take Fault.unexpectedEnd (lowBytes 8 offset.toNat)
    rw [lowBytes_length] at taken
    have read := taken.map fun bytes => UInt64.ofNat (littleEndian bytes)
    rw [littleEndian_lowBytes fits, UInt64.ofNat_toNat] at read
    exact read
  | false =>
    -- A short offset is a word that is extended with zeros.
    have word := reads_word (UInt32.ofNat offset.toNat)
    have fits : (UInt32.ofNat offset.toNat).toNat = offset.toNat :=
      UInt32.toNat_ofNat_of_lt' (small Bool.false_ne_true)
    have read := word.map UInt32.toUInt64
    have same : (UInt32.ofNat offset.toNat).toUInt64 = offset := by
      apply UInt64.toNat_inj.mp
      rw [UInt32.toNat_toUInt64, fits]
    rw [wordBytes, fits, same] at read
    exact read

theorem reads_short (number : UInt16) : Reads readLEShort (lowBytes 2 number.toNat) number := by
  have small : number.toNat < 256 ^ 2 := number.toNat_lt
  have taken := reads_take Fault.unexpectedEnd (lowBytes 2 number.toNat)
  rw [lowBytes_length] at taken
  have read := taken.map fun bytes => UInt16.ofNat (littleEndian bytes)
  rw [littleEndian_lowBytes small, UInt16.ofNat_toNat] at read
  exact read

theorem reads_boolean (value : Bool) : Reads readBoolean (lowBytes 1 value.toNat) value := by
  have taken := reads_take Fault.unexpectedEnd (lowBytes 1 value.toNat)
  rw [lowBytes_length] at taken
  intro front back
  rw [readBoolean, Program.bind_done (taken front back)]
  cases value <;> rfl

/-- The top bit of a size does not count. -/
theorem masked_size {size : UInt32} (small : size.toNat < 2 ^ 31) (topBit : Bool) :
    (size ||| if topBit then 0x80000000 else 0) &&& 0x7FFFFFFF = size := by
  apply UInt32.toNat_inj.mp
  rw [UInt32.toNat_and, UInt32.toNat_or]
  have mask : (0x7FFFFFFF : UInt32).toNat = 2 ^ 31 - 1 := rfl
  have top : (if topBit then 0x80000000 else 0 : UInt32).toNat % 2 ^ 31 = 0 := by
    cases topBit <;> rfl
  rw [mask, Nat.and_two_pow_sub_one_eq_mod, Nat.or_mod_two_pow, top, Nat.mod_eq_of_lt small,
    Nat.or_zero]

theorem reads_compression (isCompressed : Bool) :
    Reads (compression (if isCompressed then 0xFFFF else 0)) [] isCompressed := by
  cases isCompressed <;> exact Reads.pure _

/-! ## Items that are read as they are stored -/

variable {shared : Shared}

/-- An item whose shared parts are there already, and whose other parts are stored, is read back. -/
theorem reads_item {stored : Stored} (fits : shared.Fits stored)
    (instances : shared.sharesInstance = false) {item : DBPFItem}
    (types : flag shared.typeFlags 0 → item.name.typeID = shared.typeID)
    (groups : flag shared.typeFlags 1 → item.name.groupID = shared.groupID) :
    Reads (item.read shared.isDBBF (!flag shared.typeFlags 0) (!flag shared.typeFlags 1))
      (shared.itemBytes stored) stored.item := by
  have label : (if stored.item.isCompressed then 0xFFFF else 0 : UInt16).toNat =
      if stored.item.isCompressed then 0xFFFF else 0 := by cases stored.item.isCompressed <;> rfl
  unfold DBPFItem.read Shared.itemBytes
  rw [instances, ← label]
  -- One part after another, in the order in which they are stored.
  refine (reads_shared fun shares => ?_).bind ?_
  · rw [Bool.not_eq_false'] at shares
    rw [types shares, fits.typeID shares]
  refine (reads_shared fun shares => ?_).bind ?_
  · rw [Bool.not_eq_false'] at shares
    rw [groups shares, fits.groupID shares]
  refine (reads_word _).bind ?_
  refine (reads_offset _ fits.chunkOffset).bind ?_
  refine (reads_word _).bind ?_
  refine (reads_word _).bind ?_
  refine (reads_short _).bind ?_
  rw [← List.nil_append (lowBytes 1 _ ++ _)]
  refine (reads_compression _).bind ?_
  refine (reads_boolean _).bind ?_
  have last := (reads_skip (ε := Fault) [stored.padding]).map fun _ => stored.item
  rw [masked_size fits.compressedSize]
  exact last

/-- What the reader keeps of the head of an index that starts behind some bytes. -/
def headIndex (shared : Shared) (front : List UInt8) : DBPFIndex where
  groupID := if flag shared.typeFlags 1 then shared.groupID else 0xFFFFFFFF
  typeID := if flag shared.typeFlags 0 then shared.typeID else 0xFFFFFFFF
  items := []
  itemsOffset := (front ++ shared.headBytes).length

/-- The head of an index is read from wherever it stands. -/
theorem readsAt_head (front : List UInt8) (shared : Shared) :
    ReadsAt front DBPFIndex.new.read shared.headBytes (headIndex shared front) := by
  unfold DBPFIndex.read Shared.headBytes
  refine (reads_word _ front).bind ((reads_where _ _ shared.typeID _).bind
    ((reads_where _ _ shared.groupID _).bind ?_))
  rw [← List.append_nil (bytesWhere (flag shared.typeFlags 2) shared.third)]
  refine (reads_where _ _ shared.third _).bind ?_
  -- The place behind the head is where the items start.
  have told : ReadsAt (front ++ shared.headBytes) (tell : Decoder Fault Nat) []
      (front ++ shared.headBytes).length := readsAt_tell _
  have kept := @ReadsAt.bind _ _ _ _ _ (fun itemsOffset => pure
    { headIndex shared front with itemsOffset := itemsOffset }) _ _ _ _ told (Reads.pure _ _)
  simp only [Shared.headBytes, List.append_assoc, List.append_nil] at kept ⊢
  exact kept

/-- Whether the reader takes the part of the key that a bit stands for from each item. -/
theorem reads_part {shares : Bool} {id : UInt32} (other : ¬ (shares ∧ id = 0xFFFFFFFF)) :
    decide ((if shares then id else 0xFFFFFFFF) = (0xFFFFFFFF : UInt32)) = !shares := by
  cases shares with
  | true => simpa using other
  | false => rfl

/-- Where nothing is misread, a round reads the next item. -/
theorem reads_round {stored : Stored} (fits : shared.Fits stored) (plain : ¬ shared.Misread)
    (front : List UInt8) (read : List DBPFItem) :
    Reads ((headIndex shared front).readItem shared.isDBBF read) (shared.itemBytes stored)
      (read ++ [stored.item]) := by
  simp only [Shared.Misread, not_or] at plain
  obtain ⟨types, groups, instances⟩ := plain
  have readsType : (headIndex shared front).readsType = !flag shared.typeFlags 0 := reads_part types
  have readsGroup : (headIndex shared front).readsGroup = !flag shared.typeFlags 1 :=
    reads_part groups
  unfold DBPFIndex.readItem
  rw [readsType, readsGroup]
  -- The parts that are not read are in the fresh item.
  refine Reads.map ?_ fun item => read ++ [item]
  apply reads_item fits (Bool.eq_false_iff.mpr instances)
  · intro shares
    simp only [DBPFIndex.freshItem, readsType, shares, Bool.not_true, Bool.false_eq_true, if_false]
    exact if_pos shares
  · intro shares
    simp only [DBPFIndex.freshItem, readsGroup, shares, Bool.not_true, Bool.false_eq_true, if_false]
    exact if_pos shares

/-- The items are read one after another, where none is misread. -/
theorem readsAt_items (front : List UInt8) {items : List Stored}
    (fits : ∀ stored ∈ items, shared.Fits stored) (plain : ¬ shared.Misread) :
    ReadsAt (front ++ shared.headBytes)
      ((headIndex shared front).readItems items.length shared.isDBBF)
      (items.flatMap shared.itemBytes)
      { headIndex shared front with items := items.map Stored.item } := by
  rw [DBPFIndex.readItems, if_neg (Int.not_lt.mpr (Int.natCast_nonneg _)), Int.toNat_natCast,
    ← List.nil_append (items.flatMap _)]
  refine (readsAt_seek (front ++ shared.headBytes)).bind ?_
  have rounds := Reads.repeated (fun stored member read =>
    reads_round (fits stored member) plain front read) []
  have grown : items.foldl (fun read stored => read ++ [stored.item]) [] = items.map Stored.item := by
    rw [List.foldl_append_eq_append, List.nil_append, ← List.flatMap_def]
    exact List.map_eq_flatMap.symm
  rw [grown] at rounds
  exact rounds.map _ _

/-- An index that is not misread is read back. -/
theorem readsBack_of_plain {items : List Stored} (fits : ∀ stored ∈ items, shared.Fits stored)
    (plain : ¬ shared.Misread) : shared.ReadsBack items := by
  intro front back
  have read : ReadsAt front (readIndex items.length shared.isDBBF) (shared.bytes items) _ :=
    (readsAt_head front shared).bind (readsAt_items front fits plain)
  exact ⟨_, _, read back, rfl⟩

/-! ## Items that are read from fewer bytes than the reader uses up -/

theorem uses_word : Uses readLEInt 4 0 :=
  (uses_take Fault.unexpectedEnd 4).map fun bytes => UInt32.ofNat (littleEndian bytes)

/-- The bytes that a part of a key takes. -/
def partSize (stored : Bool) : Nat := if stored then 4 else 0

theorem uses_where (stored : Bool) (held : UInt32) :
    Uses (readWhere stored held) (partSize stored) 0 := by
  cases stored with
  | true => exact uses_word
  | false => exact Uses.pure held

theorem uses_offset (isDBBF : Bool) : Uses (readOffset isDBBF) (if isDBBF then 8 else 4) 0 := by
  cases isDBBF with
  | true =>
    exact (uses_take Fault.unexpectedEnd 8).map fun bytes => UInt64.ofNat (littleEndian bytes)
  | false => exact uses_word.map UInt32.toUInt64

theorem uses_short : Uses readLEShort 2 0 :=
  (uses_take Fault.unexpectedEnd 2).map fun bytes => UInt16.ofNat (littleEndian bytes)

theorem uses_compression (label : UInt16) : Uses (compression label) 0 0 := by
  unfold compression
  split
  · exact Uses.pure _
  · split
    · exact Uses.pure _
    · exact uses_throw _ _ _

theorem uses_boolean : Uses readBoolean 1 0 := by
  refine @Uses.bind _ _ _ _ _ 1 0 0 (uses_take Fault.unexpectedEnd 1) fun bytes => ?_
  split
  · exact Uses.pure _
  · split
    · exact Uses.pure _
    · exact uses_throw _ _ _

/-- The bytes of an item behind its key. -/
def tailSize (isDBBF : Bool) : Nat := (if isDBBF then 8 else 4) + (4 + (4 + (2 + (1 + 1))))

/-- An item is read from as many bytes as its parts take, the last of which is skipped. -/
theorem uses_item (item : DBPFItem) (isDBBF readType readGroup : Bool) :
    Uses (item.read isDBBF readType readGroup)
      (partSize readType + (partSize readGroup + (4 + tailSize isDBBF))) 1 := by
  refine (uses_where _ _).bind fun _ => (uses_where _ _).bind fun _ => uses_word.bind fun _ => ?_
  refine (uses_offset _).bind fun _ => uses_word.bind fun _ => uses_word.bind fun _ => ?_
  refine uses_short.bind fun label => ?_
  refine @Uses.bind _ _ _ _ _ 0 (1 + 1) 1 (uses_compression label) fun _ => ?_
  exact uses_boolean.bind fun _ => (uses_skip 1).map _

theorem bytesWhere_length (stored : Bool) (word : UInt32) :
    (bytesWhere stored word).length = partSize stored := by
  cases stored <;> simp [bytesWhere, partSize, wordBytes]

theorem itemBytes_length (shared : Shared) (stored : Stored) :
    (shared.itemBytes stored).length = partSize (!flag shared.typeFlags 0) +
      (partSize (!flag shared.typeFlags 1) + (partSize (!shared.sharesInstance) +
        tailSize shared.isDBBF)) := by
  simp only [Shared.itemBytes, List.length_append, bytesWhere_length, lowBytes_length, wordBytes,
    List.length_singleton, tailSize]

/-- Where something is misread, an item is stored in fewer bytes than the reader uses up. -/
theorem itemBytes_short (misread : shared.Misread) (front : List UInt8) (stored : Stored) :
    (shared.itemBytes stored).length + 4 ≤
      partSize (headIndex shared front).readsType + (partSize (headIndex shared front).readsGroup +
        (4 + tailSize shared.isDBBF)) := by
  rw [itemBytes_length]
  have all : ∀ part, partSize part ≤ 4 := fun part => by cases part <;> decide
  have type : partSize (!flag shared.typeFlags 0) ≤ partSize (headIndex shared front).readsType := by
    unfold DBPFIndex.readsType headIndex
    cases flag shared.typeFlags 0 <;> simp [partSize]
  have group : partSize (!flag shared.typeFlags 1) ≤ partSize (headIndex shared front).readsGroup := by
    unfold DBPFIndex.readsGroup headIndex
    cases flag shared.typeFlags 1 <;> simp [partSize]
  have instances := all (!shared.sharesInstance)
  -- One of the three parts is read and not stored.
  rcases misread with ⟨shares, none⟩ | ⟨shares, none⟩ | shares
  · have read : (headIndex shared front).readsType = true := by
      simp [DBPFIndex.readsType, headIndex, shares, none]
    rw [read, shares]
    change 0 + _ + 4 ≤ 4 + _
    omega
  · have read : (headIndex shared front).readsGroup = true := by
      simp [DBPFIndex.readsGroup, headIndex, shares, none]
    rw [read, shares]
    change _ + (0 + _) + 4 ≤ _ + (4 + _)
    omega
  · rw [shares]
    change _ + (_ + (0 + _)) + 4 ≤ _
    omega

/-- Four bytes are missing for each item. -/
theorem items_short (misread : shared.Misread) (front : List UInt8) (items : List Stored) :
    (items.flatMap shared.itemBytes).length + items.length * 4 ≤
      items.length * (partSize (headIndex shared front).readsType +
        (partSize (headIndex shared front).readsGroup + (4 + tailSize shared.isDBBF))) := by
  induction items with
  | nil => simp
  | cons stored rest ih =>
    have first := itemBytes_short misread front stored
    rw [List.flatMap_cons, List.length_append, List.length_cons, Nat.succ_mul, Nat.succ_mul]
    omega

/-- An index with items of which something is misread is not read back from a file that ends behind it. -/
theorem not_itemsReadBack_of_misread {items : List Stored} (some_items : items ≠ [])
    (misread : shared.Misread) : ¬ shared.ReadsBack items := by
  intro back
  obtain ⟨index, after, returned, -⟩ := back [] []
  have head := readsAt_head [] shared (items.flatMap shared.itemBytes ++ [])
  rw [Shared.bytes, List.append_assoc, readIndex, Program.bind_done head, DBPFIndex.readItems,
    if_neg (Int.not_lt.mpr (Int.natCast_nonneg _)), Int.toNat_natCast] at returned
  obtain ⟨_, start, sought, returned⟩ := Program.bind_eq_done returned
  cases sought
  obtain ⟨read, last, rounds, -⟩ := Program.bind_eq_done returned
  have positive := List.length_pos_iff.mpr some_items
  have missing := items_short misread [] items
  -- The rounds use up four bytes more for each item than there are.
  obtain ⟨total, inside⟩ := Uses.repeated (by omega)
    (fun value => (uses_item _ _ _ _).map fun item => value ++ [item]) positive rounds
  rw [total] at inside
  simp only [headIndex, List.nil_append, List.append_nil, List.length_append] at inside missing
  omega

/-- An index without items is read back, whatever it says about them. -/
theorem readsBack_nil (shared : Shared) : shared.ReadsBack [] := by
  intro front back
  have read : ReadsAt front (readIndex (([] : List Stored).length : Int) shared.isDBBF)
      (shared.headBytes ++ ([] ++ [])) (headIndex shared front) :=
    (readsAt_head front shared).bind
      ((readsAt_seek (front ++ shared.headBytes)).bind (Reads.pure (headIndex shared front) _))
  exact ⟨_, _, read back, rfl⟩

/--
The items are read back from their index exactly when there are none or nothing is misread.

Misread is a shared type or group of -1, which the reader takes for one that is not shared.
Where bit 2 is taken to say that the instances are shared, that is misread as well.
-/
theorem itemsReadBack_iff (shared : Shared) (items : List Stored)
    (fits : ∀ stored ∈ items, shared.Fits stored) :
    shared.ReadsBack items ↔ items = [] ∨ ¬ shared.Misread := by
  constructor
  · intro back
    by_contra neither
    obtain ⟨some_items, misread⟩ := not_or.mp neither
    exact not_itemsReadBack_of_misread some_items (not_not.mp misread) back
  · intro either
    rcases either with none | plain
    · rw [none]
      exact readsBack_nil shared
    · exact readsBack_of_plain fits plain

/-- An index with one item, whose type all items share. -/
def oneItem (typeID : UInt32) : Shared × List Stored :=
  (⟨1, typeID, 0, 0, false, false⟩, [⟨⟨false, 64, 10, 10, ⟨typeID, 2, 3⟩, true⟩, true, 0⟩])

theorem oneItem_fits (typeID : UInt32) :
    ∀ stored ∈ (oneItem typeID).2, (oneItem typeID).1.Fits stored := by
  intro stored member
  rw [List.mem_singleton.mp member]
  have size : (10 : UInt32).toNat < 2 ^ 31 := by decide
  have offset : (64 : UInt64).toNat < 2 ^ 32 := by decide
  have other : flag 1 1 ≠ true := by decide
  exact ⟨fun _ => rfl, fun shares => absurd shares other, fun shares => absurd shares Bool.false_ne_true,
    size, fun _ => offset⟩

/-- A shared type of 7 is read back. -/
theorem itemsReadBack_iff_seven :
    (oneItem 7).1.ReadsBack (oneItem 7).2 ↔ (oneItem 7).2 = [] ∨ ¬ (oneItem 7).1.Misread :=
  itemsReadBack_iff (oneItem 7).1 (oneItem 7).2 (oneItem_fits 7)

/-- A shared type of -1 is looked for in the item, where it is not stored. -/
theorem not_itemsReadBack :
    ¬ ∀ (shared : Shared) (items : List Stored), (∀ stored ∈ items, shared.Fits stored) →
      shared.ReadsBack items := by
  intro back
  have some_items : (oneItem 0xFFFFFFFF).2 ≠ [] := List.cons_ne_nil _ _
  have misread : (oneItem 0xFFFFFFFF).1.Misread := .inl ⟨by decide, rfl⟩
  exact not_itemsReadBack_of_misread some_items misread
    (back _ _ (oneItem_fits 0xFFFFFFFF))

end Recap.Game.DBPF
