import Recap.Game.PackageIndex
import Recap.Lib.HashedIndex

/-! The two ways in which an item of a package is found by its key. -/

namespace Recap.Game.DBPF

/-! ## Keys -/

namespace ResourceKey

/-- `operator==` -/
def equals (key other : ResourceKey) : Bool :=
  key.typeID == other.typeID && key.groupID == other.groupID && key.instanceID == other.instanceID

instance : BEq ResourceKey := ⟨equals⟩

/-- Keys are equal when all of their parts are. -/
instance : LawfulBEq ResourceKey where
  rfl := by simp [BEq.beq, equals]
  eq_of_beq := by
    intro key other same
    -- The comparison of the keys is one of three words.
    simp only [BEq.beq, equals, Bool.and_eq_true, decide_eq_true_eq] at same
    obtain ⟨⟨types, groups⟩, instances⟩ := same
    cases key
    cases other
    simp_all

/-- `ResourceKeyHasher`, whose sums and products wrap at the end of a `size_t`. -/
def hasher (key : ResourceKey) : UInt64 :=
  (key.typeID.toUInt64 * 1315423911 + key.groupID.toUInt64) * 1315423911 + key.instanceID.toUInt64

instance : Hashable ResourceKey := ⟨hasher⟩

end ResourceKey

/-! ## Lookups -/

/-- `DatabasePackedFile::GetItem`, where a pointer to an item is its place in the index. -/
def DBPFIndex.getItem (index : DBPFIndex) (key : ResourceKey) : Option Nat :=
  index.items.findIdx? fun item => item.name == key

/-- `DBPFManager::SourceMode` -/
inductive SourceMode where
  | xmlOnly
  | packageBridge
  deriving DecidableEq, Repr

/-- What the manager of a package holds. -/
structure DBPFManagerImpl where
  mode : SourceMode
  header : DBPFIndex
  itemsByKey : Std.HashMap ResourceKey Nat

namespace DBPFManagerImpl

/-- The constructor, for a package whose index has been read; another mode reads none. -/
def create (mode : SourceMode) (index : DBPFIndex) : DBPFManagerImpl :=
  if mode = .packageBridge then
    ⟨mode, index, HashedIndex.indexBy
      (fun item => ⟨item.name.typeID, item.name.groupID, item.name.instanceID⟩) index.items⟩
  else ⟨mode, .new, ∅⟩

variable (manager : DBPFManagerImpl)

/-- `itemsByKey.find` -/
def find (key : ResourceKey) : Option Nat := manager.itemsByKey[key]?

/-- `has_binary` -/
def hasBinary (key : ResourceKey) : Bool :=
  if manager.mode ≠ .packageBridge then false else (manager.find key).isSome

/-- `get_binary`, with what `ProcessFile` makes of an item. -/
def getBinary {Contents : Type} (processFile : DBPFItem → Contents) (key : ResourceKey) :
    Option Contents :=
  if manager.mode ≠ .packageBridge then none
  else (manager.find key).bind fun place => manager.header.items[place]?.map processFile

end DBPFManagerImpl

namespace DBPFIndex

variable (index : DBPFIndex) (key : ResourceKey)

/-- Whether the item at a place is the first one that has a key. -/
def First (place : Nat) : Prop :=
  (∃ item, index.items[place]? = some item ∧ item.name = key) ∧
    ∀ earlier < place, ∀ item, index.items[earlier]? = some item → item.name ≠ key

/--
The map over the items and the search through them come to the same item for each key.

Of several items that have the key, this is the first one.
-/
theorem find_eq_getItem :
    (DBPFManagerImpl.create .packageBridge index).find key = index.getItem key ∧
      ∀ place, index.getItem key = some place ↔ index.First key place := by
  constructor
  · -- What is filed first under a key stays there, so that the map has the place of a first item.
    exact HashedIndex.lookup_indexBy index.items key
  · exact HashedIndex.findIdx?_eq_some_iff_first index.items key

/-- What a manager reads for a key is the file of the item that a search comes to. -/
theorem getBinary_create {Contents : Type} (processFile : DBPFItem → Contents) :
    (DBPFManagerImpl.create .packageBridge index).getBinary processFile key =
      (index.items.find? fun item => item.name == key).map processFile := by
  have same : (DBPFManagerImpl.create .packageBridge index).find key =
      index.items.findIdx? fun item => item.name == key :=
    HashedIndex.lookup_indexBy index.items key
  have held : (DBPFManagerImpl.create .packageBridge index).header = index := rfl
  rw [DBPFManagerImpl.getBinary, if_neg (by simp [DBPFManagerImpl.create]), same, held,
    List.find?_eq_bind_findIdx?_getElem?, Option.map_bind]
  rfl

/-- A manager has a file for a key exactly when an item of the index has the key. -/
theorem hasBinary_create :
    (DBPFManagerImpl.create .packageBridge index).hasBinary key = true ↔
      ∃ item ∈ index.items, item.name = key := by
  have same : (DBPFManagerImpl.create .packageBridge index).find key =
      index.items.findIdx? fun item => item.name == key :=
    HashedIndex.lookup_indexBy index.items key
  rw [DBPFManagerImpl.hasBinary, if_neg (by simp [DBPFManagerImpl.create]), same]
  simp

end DBPFIndex

end Recap.Game.DBPF
