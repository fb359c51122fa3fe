import Recap.Game.Catalyst
import Recap.SporeNet.Account

/-! The parts that a user owns, and the text nodes that they are kept in. -/

namespace Recap.SporeNet

open Recap.Blaze
open Recap.Game (hashId)

/-- A rarity in eight bits, as a file may hold any. -/
abbrev PartRarity := UInt8

structure Part where
  mTimestamp : UInt64 := 0
  mRigblockAssetHash : UInt32 := 0
  mPrefixAssetHash : UInt32 := 0
  mPrefixSecondaryAssetHash : UInt32 := 0
  mSuffixAssetHash : UInt32 := 0
  mCost : UInt32 := 0
  mEquippedToCreatureId : UInt32 := 0
  mRigblockAssetId : UInt16 := 0
  mPrefixAssetId : UInt16 := 0
  mPrefixSecondaryAssetId : UInt16 := 0
  mSuffixAssetId : UInt16 := 0
  mLevel : UInt16 := 0
  mRarity : PartRarity := 0
  mMarketStatus : UInt8 := 0
  mStatus : UInt8 := 0
  mUsage : UInt8 := 0
  mIsFlair : Bool := false
deriving DecidableEq

namespace Part

/-! ### Asset ids and their hashes -/

/-- The id that `SetRigblock` keeps. -/
def rigblockId (rigblock : UInt16) : UInt16 :=
  if ¬ (rigblock ≥ 1 ∧ rigblock ≤ 1573) ∧ ¬ (rigblock ≥ 10001 ∧ rigblock ≤ 10835) then 1 else rigblock

/-- The id that `SetPrefix` keeps. -/
def prefixId (id : UInt16) : UInt16 := if ¬ (id ≥ 1 ∧ id ≤ 338) then 0 else id

/-- The id that `SetSuffix` keeps. -/
def suffixId (suffix : UInt16) : UInt16 :=
  if ¬ (suffix ≥ 1 ∧ suffix ≤ 83) ∧ ¬ (suffix ≥ 10001 ∧ suffix ≤ 10275) then 0 else suffix

/-- The hash of the name of a generated asset. -/
def generatedHash (kind : Bytes) (id : UInt16) : UInt32 :=
  hashId (ascii "_Generated/" ++ kind ++ toDecimal id.toNat ++ ascii "." ++ kind)

def rigblockHash (id : UInt16) : UInt32 := generatedHash (ascii "LootRigblock") id

/-- No prefix has the hash of the empty name. -/
def prefixHash (id : UInt16) : UInt32 :=
  if id > 0 then generatedHash (ascii "LootPrefix") id else hashId []

def suffixHash (id : UInt16) : UInt32 :=
  if id > 0 then generatedHash (ascii "LootSuffix") id else hashId []

def setRigblock (part : Part) (rigblock : UInt16) : Part :=
  { part with
    mRigblockAssetId := rigblockId rigblock
    mRigblockAssetHash := rigblockHash (rigblockId rigblock) }

def setPrefix (part : Part) (id : UInt16) (secondary : Bool := false) : Part :=
  if secondary then
    { part with
      mPrefixSecondaryAssetId := prefixId id
      mPrefixSecondaryAssetHash := prefixHash (prefixId id) }
  else { part with mPrefixAssetId := prefixId id, mPrefixAssetHash := prefixHash (prefixId id) }

def setSuffix (part : Part) (suffix : UInt16) : Part :=
  { part with
    mSuffixAssetId := suffixId suffix
    mSuffixAssetHash := suffixHash (suffixId suffix) }

/-- All four assets of a part, as its constructors and its readers set them. -/
def setAssets (part : Part) (rigblock first second suffix : UInt16) : Part :=
  (((part.setRigblock rigblock).setPrefix first).setPrefix second true).setSuffix suffix

/-- `Part::Part` of a rigblock, which is cut to the bits of an id. -/
def ofRigblock (rigblock : UInt32) : Part := ({} : Part).setAssets rigblock.toUInt16 0 0 0

/-- What the accessors of the JSON library find in the object of a part. -/
structure JsonPart where
  cost : UInt32
  level : UInt16
  marketStatus : UInt8
  rarity : UInt8
  usage : UInt8
  rigblockAssetId : UInt16
  prefixAssetId : UInt16
  prefixSecondaryAssetId : UInt16
  suffixAssetId : UInt16

/-- `Part::Part` of a JSON value, which need not be an object. -/
def ofJson : Option JsonPart → Part
  | none => ({} : Part).setAssets 1 0 0 0
  | some object =>
    ({ mCost := object.cost
       mLevel := object.level
       mMarketStatus := object.marketStatus
       mRarity := object.rarity
       mUsage := object.usage } : Part).setAssets object.rigblockAssetId object.prefixAssetId
      object.prefixSecondaryAssetId object.suffixAssetId

section Nodes

variable {Node : Type} [XmlElement Node]

/-- `Part::Read`, which refuses nodes of other names. -/
def read (before : Part) (entry : String × Node) : Option Part :=
  if entry.1 ≠ "part" then none else
  let text (name : String) : Bytes := xmlGetTextNode entry.2 name
  let id (name : String) : UInt16 := (toUint32 (text name)).toUInt16
  some (({ before with
    mIsFlair := toBool (text "is_flair")
    mCost := toUint32 (text "cost")
    mEquippedToCreatureId := toUint32 (text "creature_id")
    mLevel := toUint16 (text "level")
    mMarketStatus := toUint8 (text "market_status")
    mRarity := toUint8 (text "rarity")
    mStatus := toUint8 (text "status")
    mUsage := toUint8 (text "usage")
    mTimestamp := toUint64 (text "creation_date") } : Part).setAssets (id "rigblock_asset_id")
      (id "prefix_asset_id") (id "prefix_secondary_asset_id") (id "suffix_asset_id"))

/-- `Part::Part` of a node -/
def ofNode (entry : String × Node) : Part :=
  (({} : Part).read entry).getD (({} : Part).setAssets 1 0 0 0)

/-- The texts that a part is written as. -/
def texts (part : Part) : List (String × Bytes) :=
  [("is_flair", toDecimal part.mIsFlair.toNat),
    ("cost", ofUint32 part.mCost),
    ("creature_id", ofUint32 part.mEquippedToCreatureId),
    ("level", toDecimal part.mLevel.toNat),
    ("market_status", toDecimal part.mMarketStatus.toNat),
    ("rarity", toDecimal part.mRarity.toNat),
    ("status", toDecimal part.mStatus.toNat),
    ("usage", toDecimal part.mUsage.toNat),
    ("creation_date", toDecimal part.mTimestamp.toNat),
    ("rigblock_asset_id", toDecimal part.mRigblockAssetId.toNat),
    ("prefix_asset_id", toDecimal part.mPrefixAssetId.toNat),
    ("prefix_secondary_asset_id", toDecimal part.mPrefixSecondaryAssetId.toNat),
    ("suffix_asset_id", toDecimal part.mSuffixAssetId.toNat)]

/-- `Part::Write` -/
def write (part : Part) : Node := xmlAddTextNodes element part.texts

end Nodes

/-! ### The parts that there can be -/

/-- A part that was constructed, and then changed by setters. -/
inductive Made (Node : Type) [XmlElement Node] : Part → Prop where
  | ofRigblock (rigblock : UInt32) : Made Node (ofRigblock rigblock)
  | ofJson (object : Option JsonPart) : Made Node (ofJson object)
  | ofNode (entry : String × Node) : Made Node (ofNode entry)
  | setRigblock {part : Part} (rigblock : UInt16) : Made Node part → Made Node (part.setRigblock rigblock)
  | setPrefix {part : Part} (id : UInt16) (secondary : Bool) :
      Made Node part → Made Node (part.setPrefix id secondary)
  | setSuffix {part : Part} (suffix : UInt16) : Made Node part → Made Node (part.setSuffix suffix)
  | setCreationDate {part : Part} (timestamp : UInt64) :
      Made Node part → Made Node { part with mTimestamp := timestamp }
  | setCost {part : Part} (cost : UInt32) : Made Node part → Made Node { part with mCost := cost }
  | setLevel {part : Part} (level : UInt16) : Made Node part → Made Node { part with mLevel := level }
  | setRarity {part : Part} (rarity : PartRarity) :
      Made Node part → Made Node { part with mRarity := rarity }
  | setMarketStatus {part : Part} (marketStatus : UInt8) :
      Made Node part → Made Node { part with mMarketStatus := marketStatus }
  | setStatus {part : Part} (status : UInt8) : Made Node part → Made Node { part with mStatus := status }
  | setUsage {part : Part} (usage : UInt8) : Made Node part → Made Node { part with mUsage := usage }
  | setIsFlair {part : Part} (flair : Bool) : Made Node part → Made Node { part with mIsFlair := flair }

/-- Every asset id is one that its setter would keep, and every hash is that of its id. -/
structure Consistent (part : Part) : Prop where
  rigblock : rigblockId part.mRigblockAssetId = part.mRigblockAssetId
  rigblockHash : part.mRigblockAssetHash = Part.rigblockHash part.mRigblockAssetId
  first : prefixId part.mPrefixAssetId = part.mPrefixAssetId
  firstHash : part.mPrefixAssetHash = prefixHash part.mPrefixAssetId
  second : prefixId part.mPrefixSecondaryAssetId = part.mPrefixSecondaryAssetId
  secondHash : part.mPrefixSecondaryAssetHash = prefixHash part.mPrefixSecondaryAssetId
  suffix : suffixId part.mSuffixAssetId = part.mSuffixAssetId
  suffixHash : part.mSuffixAssetHash = Part.suffixHash part.mSuffixAssetId

/-- What takes the place of a refused id is not replaced once more. -/
theorem kept_kept (refused : UInt16 → Prop) [DecidablePred refused] (default id : UInt16) :
    (if refused (if refused id then default else id) then default
      else if refused id then default else id) = if refused id then default else id := by
  by_cases outside : refused id
  · rw [if_pos outside]
    exact ite_self default
  · rw [if_neg outside, if_neg outside]

@[simp] theorem rigblockId_rigblockId (rigblock : UInt16) :
    rigblockId (rigblockId rigblock) = rigblockId rigblock :=
  kept_kept (fun id => ¬ (id ≥ 1 ∧ id ≤ 1573) ∧ ¬ (id ≥ 10001 ∧ id ≤ 10835)) 1 rigblock

@[simp] theorem prefixId_prefixId (id : UInt16) : prefixId (prefixId id) = prefixId id :=
  kept_kept (fun id => ¬ (id ≥ 1 ∧ id ≤ 338)) 0 id

@[simp] theorem suffixId_suffixId (suffix : UInt16) : suffixId (suffixId suffix) = suffixId suffix :=
  kept_kept (fun id => ¬ (id ≥ 1 ∧ id ≤ 83) ∧ ¬ (id ≥ 10001 ∧ id ≤ 10275)) 0 suffix

theorem consistent_setAssets (part : Part) (rigblock first second suffix : UInt16) :
    (part.setAssets rigblock first second suffix).Consistent where
  -- Each asset is set by its own setter, and no later one touches it.
  rigblock := rigblockId_rigblockId rigblock
  rigblockHash := rfl
  first := prefixId_prefixId first
  firstHash := rfl
  second := prefixId_prefixId second
  secondHash := rfl
  suffix := suffixId_suffixId suffix
  suffixHash := rfl

theorem Consistent.setRigblock {part : Part} (consistent : part.Consistent) (rigblock : UInt16) :
    (part.setRigblock rigblock).Consistent :=
  { consistent with rigblock := rigblockId_rigblockId rigblock, rigblockHash := rfl }

theorem Consistent.setPrefix {part : Part} (consistent : part.Consistent) (id : UInt16)
    (secondary : Bool) : (part.setPrefix id secondary).Consistent := by
  cases secondary with
  | false => exact { consistent with first := prefixId_prefixId id, firstHash := rfl }
  | true => exact { consistent with second := prefixId_prefixId id, secondHash := rfl }

theorem Consistent.setSuffix {part : Part} (consistent : part.Consistent) (suffix : UInt16) :
    (part.setSuffix suffix).Consistent :=
  { consistent with suffix := suffixId_suffixId suffix, suffixHash := rfl }

section Nodes

variable {Node : Type} [XmlElement Node]

/-- Whatever node a part is read from, its ids are kept ones. -/
theorem consistent_ofNode (entry : String × Node) : (ofNode entry).Consistent := by
  -- A refused node leaves a default part, which is set up like any other.
  unfold ofNode read
  split
  · exact consistent_setAssets {} 1 0 0 0
  · exact consistent_setAssets ..

/-- The constructors set all assets, and the setters keep what each of them is about. -/
theorem Made.consistent {part : Part} (made : Made Node part) : part.Consistent := by
  -- The induction follows the making of the part.
  induction made with
  | ofRigblock rigblock => exact consistent_setAssets {} rigblock.toUInt16 0 0 0
  | ofJson object =>
    cases object with
    | none => exact consistent_setAssets {} 1 0 0 0
    | some object => exact consistent_setAssets ..
  | ofNode entry => exact consistent_ofNode entry
  | setRigblock rigblock _ ih => exact ih.setRigblock rigblock
  | setPrefix id secondary _ ih => exact ih.setPrefix id secondary
  | setSuffix suffix _ ih => exact ih.setSuffix suffix
  | setCreationDate _ _ ih | setCost _ _ ih | setLevel _ _ ih | setRarity _ _ ih
  | setMarketStatus _ _ ih | setStatus _ _ ih | setUsage _ _ ih | setIsFlair _ _ ih => exact { ih with }

/-- Setting the assets of a part to its own ids gives back its hashes. -/
theorem Consistent.setAssets_own {part other : Part} (consistent : part.Consistent)
    (same : { other with
      mRigblockAssetId := part.mRigblockAssetId
      mRigblockAssetHash := part.mRigblockAssetHash
      mPrefixAssetId := part.mPrefixAssetId
      mPrefixAssetHash := part.mPrefixAssetHash
      mPrefixSecondaryAssetId := part.mPrefixSecondaryAssetId
      mPrefixSecondaryAssetHash := part.mPrefixSecondaryAssetHash
      mSuffixAssetId := part.mSuffixAssetId
      mSuffixAssetHash := part.mSuffixAssetHash } = part) :
    other.setAssets part.mRigblockAssetId part.mPrefixAssetId part.mPrefixSecondaryAssetId
      part.mSuffixAssetId = part := by
  -- The setters keep ids that they have kept before, and compute the same hashes.
  refine Eq.trans ?_ same
  simp only [Part.setAssets, Part.setRigblock, Part.setPrefix, Part.setSuffix, Bool.false_eq_true,
    if_false, if_true, consistent.rigblock, consistent.first, consistent.second, consistent.suffix,
    consistent.rigblockHash, consistent.firstHash, consistent.secondHash, consistent.suffixHash]

/-- A part whose ids are kept ones is read back as it was written. -/
theorem Consistent.read_write {part : Part} (consistent : part.Consistent) (before : Part) :
    before.read ("part", (part.write : Node)) = some part := by
  -- Each field is found under its own name, and the hashes come from the ids.
  have written : ∀ name, xmlGetTextNode (part.write : Node) name =
      (part.texts.lookup name).getD [] := xmlGetTextNode_addAll part.texts
  unfold read
  rw [if_neg (not_not.mpr rfl)]
  simp only [written, texts, List.lookup, String.reduceBEq, Option.getD_some, toUint32_ofUint32,
    toUint64_toDecimal, toUint16_toDecimal, toUint8_toDecimal, toBool_toDecimal,
    toUInt16_toUint32_toDecimal]
  exact congrArg some (consistent.setAssets_own rfl)

end Nodes

end Part

/-! ### Lists of parts -/

section Parts

variable {Node : Type} [XmlElement Node]

/-- `Parts::Read`, which adds a part for every child, whatever its name. -/
def readParts (mItems : List Part) (node : Node) : List Part :=
  mItems ++ (((child node "parts").map children).getD []).map Part.ofNode

/-- `Parts::Write` -/
def writeParts (mItems : List Part) (node : Node) : Node :=
  appendChild node "parts" (appendAll "part" (mItems.map Part.write))

/-- Parts that were made by constructors and setters are read back as they were written, in order. -/
theorem readParts_writeParts {mItems : List Part} (made : ∀ part ∈ mItems, Part.Made Node part)
    {node : Node} (bare : child node "parts" = none) : readParts [] (writeParts mItems node) = mItems := by
  have found : child (writeParts mItems node) "parts" =
      some (appendAll "part" (mItems.map Part.write)) := by
    unfold writeParts
    rw [XmlNode.child_append, bare]
    rfl
  unfold readParts
  rw [found, Option.map_some, Option.getD_some, children_appendAll, List.nil_append, List.map_map,
    List.map_map]
  -- Every node has the name of a part, so none is replaced by a default one.
  refine (List.map_congr_left fun part member => ?_).trans (List.map_id mItems)
  have read : ({} : Part).read ("part", (part.write : Node)) = some part :=
    (made part member).consistent.read_write {}
  exact congrArg (fun result => result.getD (({} : Part).setAssets 1 0 0 0)) read

end Parts

/-- A part of the largest rigblock with a suffix of the second range, which is worth a lot. -/
theorem readParts_writeParts_rare :
    readParts [] (writeParts [{ (Part.ofRigblock 10835).setSuffix 10275 with mCost := 4294967295 }]
      (element : XmlTree)) =
      [{ (Part.ofRigblock 10835).setSuffix 10275 with mCost := 4294967295 }] := by
  refine readParts_writeParts ?_ rfl
  intro part member
  obtain rfl := List.mem_singleton.mp member
  exact ((Part.Made.ofRigblock 10835).setSuffix 10275).setCost 4294967295

end Recap.SporeNet
