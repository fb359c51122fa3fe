import Recap.Core.Strings
import Recap.SporeNet.Part
import Recap.SporeNet.Squad

/-! The ids that lists of parts are shown with, and what requests for these ids come to. -/

namespace Recap.SporeNet

open Recap.Blaze

namespace User

theorem explodeString_eq_splitOn (delim : UInt8) (text : Bytes) :
    explodeString delim text = text.splitOn delim := by
  -- Both put a character in front of the first part of the rest.
  induction text with
  | nil => rfl
  | cons character rest ih =>
    unfold explodeString
    rw [List.splitOn_cons_eq_if_modifyHead, ih]
    by_cases same : character = delim
    · rw [if_pos same, if_pos (beq_iff_eq.mpr same)]
    · obtain ⟨part, parts, split⟩ := List.exists_cons_of_ne_nil (List.splitOn_ne_nil delim rest)
      rw [if_neg same, if_neg (mt beq_iff_eq.mp same), split]
      rfl

/-- A text is split as by a delimiter that is a text of one character. -/
theorem explodeString_singleton (delim : UInt8) (text : Bytes) :
    Recap.explodeString text [delim] = some (explodeString delim text) := by
  rw [Recap.explodeString_singleton, explodeString_eq_splitOn]

end User

namespace Part

/-- The texts that a client is shown of a part. Offers have fewer of them. -/
def apiTexts (part : Part) (index : UInt32) (offer : Bool) : List (String × Bytes) :=
  if offer then
    [("cost", ofUint32 part.mCost),
      ("level", toDecimal part.mLevel.toNat),
      ("prefix_asset_id", ofUint32 part.mPrefixAssetHash),
      ("prefix_secondary_asset_id", ofUint32 part.mPrefixSecondaryAssetHash),
      ("rarity", toDecimal part.mRarity.toNat),
      ("reference_id", ofUint32 index),
      ("rigblock_asset_id", ofUint32 part.mRigblockAssetHash),
      ("suffix_asset_id", ofUint32 part.mSuffixAssetHash)]
  else
    [("is_flair", toDecimal part.mIsFlair.toNat),
      ("cost", ofUint32 part.mCost),
      ("creature_id", ofUint32 part.mEquippedToCreatureId),
      ("id", ofUint32 index),
      ("level", toDecimal part.mLevel.toNat),
      ("market_status", toDecimal part.mMarketStatus.toNat),
      ("prefix_asset_id", ofUint32 part.mPrefixAssetHash),
      ("prefix_secondary_asset_id", ofUint32 part.mPrefixSecondaryAssetHash),
      ("rarity", toDecimal part.mRarity.toNat),
      ("reference_id", ofUint32 index),
      ("rigblock_asset_id", ofUint32 part.mRigblockAssetHash),
      ("status", toDecimal part.mStatus.toNat),
      ("suffix_asset_id", ofUint32 part.mSuffixAssetHash),
      ("usage", toDecimal part.mUsage.toNat),
      ("creation_date", toDecimal part.mTimestamp.toNat)]

/-- `Part::WriteApi` -/
def writeApi {Node : Type} [XmlElement Node] (part : Part) (index : UInt32) (offer : Bool) : Node :=
  xmlAddTextNodes element (part.apiTexts index offer)

def setStatus (part : Part) (status : UInt8) : Part := { part with mStatus := status }

end Part

section Listing

variable {Node : Type} [XmlElement Node]

/-- `Parts::WriteApi`, which counts from one. -/
def writePartsApi (mItems : List Part) (node : Node) (offer : Bool) : Node :=
  appendChild node "parts" (appendAll "part"
    (mItems.mapIdx fun place part => part.writeApi (UInt32.ofNat (place + 1)) offer))

/-- The name of the id that a client finds in the listing. -/
def idName (offer : Bool) : String := if offer then "reference_id" else "id"

/-- The listing shows a part at some place with an id. -/
def Listed (Node : Type) [XmlElement Node] (offer : Bool) (parts : List Part) (place : Nat)
    (id : UInt32) : Prop :=
  ∃ entry, (((child (writePartsApi parts (element : Node) offer) "parts").map children).getD
      [])[place]? = some entry ∧ xmlGetTextNode entry.2 (idName offer) = ofUint32 id

/-- Every place is listed with the number of the next one. -/
theorem listed_iff {offer : Bool} {parts : List Part} {place : Nat} {id : UInt32} :
    Listed Node offer parts place id ↔ place < parts.length ∧ UInt32.ofNat (place + 1) = id := by
  -- The number is written as a text, from which it is read back.
  have found : child (writePartsApi parts (element : Node) offer) "parts" = some (appendAll "part"
      (parts.mapIdx fun place part => part.writeApi (UInt32.ofNat (place + 1)) offer)) := by
    unfold writePartsApi
    rw [XmlNode.child_append, XmlNode.child_element]
    rfl
  have shown : ∀ (part : Part) (index : UInt32),
      xmlGetTextNode (part.writeApi index offer : Node) (idName offer) = ofUint32 index := by
    intro part index
    unfold Part.writeApi
    rw [xmlGetTextNode_addAll]
    cases offer <;> rfl
  have same : ∀ index : UInt32, ofUint32 index = ofUint32 id ↔ index = id := by
    intro index
    refine ⟨fun equal => ?_, fun equal => congrArg ofUint32 equal⟩
    rw [← toUint32_ofUint32 index, equal, toUint32_ofUint32]
  unfold Listed
  rw [found, Option.map_some, Option.getD_some, children_appendAll]
  simp only [List.getElem?_map, List.getElem?_mapIdx, Option.map_map, Option.map_eq_some_iff,
    Function.comp_apply]
  constructor
  · rintro ⟨_, ⟨part, member, rfl⟩, text⟩
    rw [shown, same] at text
    exact ⟨(List.getElem?_eq_some_iff.mp member).1, text⟩
  · rintro ⟨below, number⟩
    refine ⟨_, ⟨parts[place], List.getElem?_eq_getElem below, rfl⟩, ?_⟩
    rw [shown, same]
    exact number

end Listing

/-! ### The requests -/

/-- `parts.data()[partIndex].SetStatus(status)`, which may reach past the end of the list. -/
def setPartStatus (parts : List Part) (partIndex : UInt32) (status : UInt8) : Option (List Part) :=
  if partIndex.toNat < parts.length then
    some (parts.modify partIndex.toNat fun part => part.setStatus status)
  else none

/-- `API::game_inventory_updatePartStatus`, or nothing where it reaches past the end. -/
def updatePartStatus (parts : List Part) (partId status : Bytes) : Option (List Part) :=
  (List.zip (User.explodeString 44 partId) (User.explodeString 44 status)).foldlM
    (fun parts entry => setPartStatus parts (toUint32 entry.1) (toUint8 entry.2)) parts

/-- The weapon that a transaction gives. -/
def weaponPart (now : UInt64) (data : Int64) : Part :=
  { (Part.ofRigblock 0).setRigblock data.toUInt64.toUInt16 with
    mIsFlair := false, mLevel := 5, mMarketStatus := 1, mRarity := 2, mStatus := 0, mUsage := 1
    mTimestamp := now }

/-- One transaction with the vendor. An empty one, and an offer past the end, are undefined. -/
def vendorPart (offers : List Part) (now : UInt64) : Bytes → Option Part
  | [] => none
  | type :: rest =>
    let data := toInt64 rest
    if type = 119 then some (weaponPart now data)
    else if type = 112 then offers[data.toUInt64.toNat]?
    else some (Part.ofRigblock 0)

/-- `API::game_inventory_vendorParts`, by the parts that the user is given. -/
def vendorParts (offers : List Part) (now : UInt64) (transactions : Bytes) : Option (List Part) :=
  if transactions = [] then some []
  else (User.explodeString 59 transactions).mapM (vendorPart offers now)

/-- What is done with the id of a part. -/
inductive PartRequest where
  | updateStatus (status : Bytes)
  /-- A trade with the vendor, at a time. -/
  | trade (now : UInt64)

namespace PartRequest

/-- The vendor's parts are listed as offers. -/
def offer : PartRequest → Bool
  | .updateStatus _ => false
  | .trade _ => true

/-- The status that a request sets. -/
def requestedStatus (status : Bytes) : UInt8 := toUint8 ((User.explodeString 44 status).headD [])

/-- The user's parts after an update, or the parts that a trade gives. -/
def perform (request : PartRequest) (parts : List Part) (id : UInt32) : Option (List Part) :=
  match request with
  | .updateStatus status => updatePartStatus parts (ofUint32 id) status
  | .trade now => vendorParts parts now (112 :: ofUint32 id)

/-- What a request should come to for the part at some place. -/
def intended (request : PartRequest) (parts : List Part) (place : Nat) : List Part :=
  match request with
  | .updateStatus status => parts.modify place fun part => part.setStatus (requestedStatus status)
  | .trade _ => parts[place]?.toList

/-- What a request should come to when it is for no part. -/
def nothing (request : PartRequest) (parts : List Part) : List Part :=
  match request with
  | .updateStatus _ => parts
  | .trade _ => []

/-- A request for an id is one for the part that is listed with it, and else for none. -/
structure Exact (Node : Type) [XmlElement Node] (request : PartRequest) (parts : List Part)
    (id : UInt32) : Prop where
  listed : ∀ place, Listed Node request.offer parts place id →
    request.perform parts id = some (request.intended parts place)
  unlisted : (∀ place, ¬ Listed Node request.offer parts place id) →
    request.perform parts id = some (request.nothing parts)

/-- An update is one of the part at the place of its number, counted from zero. -/
theorem perform_updateStatus (parts : List Part) (id : UInt32) (status : Bytes) :
    (updateStatus status).perform parts id = setPartStatus parts id (requestedStatus status) := by
  -- A number has no comma, so only the first status of the list is used.
  have alone : User.explodeString 44 (ofUint32 id) = [ofUint32 id] := by
    rw [User.explodeString_eq_splitOn]
    exact List.splitOn_eq_singleton (toDecimal_without id.toNat (by decide))
  unfold perform updatePartStatus requestedStatus
  dsimp only
  rw [alone]
  obtain ⟨first, rest, split⟩ := List.exists_cons_of_ne_nil (List.splitOn_ne_nil 44 status)
  rw [User.explodeString_eq_splitOn, split, List.zip_cons_cons, List.zip_nil_left, List.headD_cons,
    List.foldlM_cons, toUint32_ofUint32]
  cases setPartStatus parts id (toUint8 first) <;> rfl

/-- A number in a transaction is read as the place of an offer. -/
theorem toNat_toInt64_ofUint32 (value : UInt32) :
    (toInt64 (ofUint32 value)).toUInt64.toNat = value.toNat := by
  -- The number is not negative, and too small for the sign of the type.
  have small := value.toNat_lt
  have read : strtoll (ofUint32 value) = value.toNat := by
    unfold strtoll ofUint32
    rw [numberOf_toDecimal]
    simp only [Bool.false_eq_true, if_false]
    omega
  unfold toInt64
  rw [read, Int64.ofInt_eq_ofNat, Int64.toUInt64_ofNat',
    UInt64.toNat_ofNat_of_lt' (by simp only [UInt64.size]; omega)]

/-- A trade gives the offer at the place of its number, counted from zero. -/
theorem perform_trade (parts : List Part) (id : UInt32) (now : UInt64) :
    (trade now).perform parts id = (parts[id.toNat]?).map fun part => [part] := by
  -- A number has no semicolon, so there is one transaction.
  have alone : User.explodeString 59 (112 :: ofUint32 id) = [112 :: ofUint32 id] := by
    rw [User.explodeString_eq_splitOn]
    refine List.splitOn_eq_singleton fun member => ?_
    rcases List.mem_cons.mp member with same | digit
    · exact absurd same (by decide)
    · exact absurd (digit_of_mem_toDecimal digit).2 (by decide)
  unfold perform vendorParts
  dsimp only
  rw [if_neg (List.cons_ne_nil _ _), alone, List.mapM_cons, List.mapM_nil, vendorPart]
  rw [if_neg (by decide), if_pos rfl, toNat_toInt64_ofUint32]
  cases parts[id.toNat]? <;> rfl

variable {Node : Type} [XmlElement Node]

/-- The part at the place of a number is never the one that is listed with it. -/
theorem place_ne_of_listed {offer : Bool} {parts : List Part} {place : Nat} {id : UInt32}
    (listed : Listed Node offer parts place id) : place ≠ id.toNat := by
  obtain ⟨-, number⟩ := listed_iff.mp listed
  have value := congrArg UInt32.toNat number
  rw [UInt32.toNat_ofNat'] at value
  have small := id.toNat_lt
  omega


/-- The part at a place has the status, if there is one. -/
def HasStatus (parts : List Part) (place : Nat) (status : UInt8) : Prop :=
  ∀ part, parts[place]? = some part → part.mStatus = status

/-- Setting a status changes nothing exactly where it was set before. -/
theorem modify_eq_self_iff {parts : List Part} {place : Nat} {status : UInt8} :
    parts.modify place (fun part => part.setStatus status) = parts ↔ HasStatus parts place status := by
  -- Only the part at the place can be another one.
  constructor
  · intro same part found
    have here := congrArg (fun parts : List Part => parts[place]?) same
    simp only [List.getElem?_modify_eq, found] at here
    exact (congrArg Part.mStatus (Option.some_inj.mp here)).symm
  · intro before
    refine List.ext_getElem? fun other => ?_
    by_cases same : place = other
    · subst same
      rw [List.getElem?_modify_eq]
      cases found : parts[place]? with
      | none => rfl
      | some part =>
        rw [← before part found]
        rfl
    · rw [List.getElem?_modify_ne _ _ same]

/-- Setting a status at one of two places or at the other is the same where it was set at both. -/
theorem modify_eq_modify_iff {parts : List Part} {place other : Nat} (apart : place ≠ other)
    {status : UInt8} :
    parts.modify place (fun part => part.setStatus status) =
        parts.modify other (fun part => part.setStatus status) ↔
      HasStatus parts place status ∧ HasStatus parts other status := by
  constructor
  · intro same
    -- Each of the two places is changed on one side only.
    constructor
    · intro part found
      have here := congrArg (fun parts : List Part => parts[place]?) same
      simp only [List.getElem?_modify_eq, List.getElem?_modify_ne _ _ (Ne.symm apart), found] at here
      exact (congrArg Part.mStatus (Option.some_inj.mp here)).symm
    · intro part found
      have here := congrArg (fun parts : List Part => parts[other]?) same
      simp only [List.getElem?_modify_eq, List.getElem?_modify_ne _ _ apart, found] at here
      exact congrArg Part.mStatus (Option.some_inj.mp here)
  · rintro ⟨first, second⟩
    rw [modify_eq_self_iff.mpr first, modify_eq_self_iff.mpr second]

/-- When it makes no difference that a request for an id is one for the place of that number. -/
def Coincides (Node : Type) [XmlElement Node] (request : PartRequest) (parts : List Part)
    (id : UInt32) : Prop :=
  match request with
  | .updateStatus status =>
    id.toNat < parts.length ∧ HasStatus parts id.toNat (requestedStatus status) ∧
      ∀ place, Listed Node false parts place id → HasStatus parts place (requestedStatus status)
  | .trade _ =>
    id.toNat < parts.length ∧ (∃ place, Listed Node true parts place id) ∧
      ∀ place, Listed Node true parts place id → parts[place]? = parts[id.toNat]?

theorem exact_updateStatus_iff (status : Bytes) (parts : List Part) (id : UInt32) :
    (updateStatus status).Exact Node parts id ↔ (updateStatus status).Coincides Node parts id := by
  have update := perform_updateStatus parts id status
  unfold setPartStatus at update
  unfold Coincides
  dsimp only
  by_cases within : id.toNat < parts.length
  · rw [if_pos within] at update
    rw [and_iff_right within]
    constructor
    · intro exact
      have both : ∀ place, Listed Node false parts place id →
          HasStatus parts id.toNat (requestedStatus status) ∧
            HasStatus parts place (requestedStatus status) := by
        intro place listed
        have same := Option.some_inj.mp (update.symm.trans (exact.listed place listed))
        exact (modify_eq_modify_iff (Ne.symm (place_ne_of_listed listed))).mp same
      refine ⟨?_, fun place listed => (both place listed).2⟩
      by_cases some_ : ∃ place, Listed Node false parts place id
      · obtain ⟨place, listed⟩ := some_
        exact (both place listed).1
      · have same := Option.some_inj.mp (update.symm.trans (exact.unlisted (not_exists.mp some_)))
        exact modify_eq_self_iff.mp same
    · rintro ⟨here, elsewhere⟩
      refine ⟨fun place listed => ?_, fun _ => ?_⟩
      · rw [update]
        exact congrArg some ((modify_eq_modify_iff (Ne.symm (place_ne_of_listed listed))).mpr
          ⟨here, elsewhere place listed⟩)
      · rw [update]
        exact congrArg some (modify_eq_self_iff.mpr here)
  · -- Past the end the request is undefined, which is never right.
    rw [if_neg within] at update
    refine iff_of_false (fun exact => ?_) fun both => within both.1
    by_cases some_ : ∃ place, Listed Node false parts place id
    · obtain ⟨place, listed⟩ := some_
      cases update.symm.trans (exact.listed place listed)
    · cases update.symm.trans (exact.unlisted (not_exists.mp some_))

theorem exact_trade_iff (now : UInt64) (parts : List Part) (id : UInt32) :
    (trade now).Exact Node parts id ↔ (trade now).Coincides Node parts id := by
  have given := perform_trade parts id now
  unfold Coincides
  dsimp only
  cases found : parts[id.toNat]? with
  | none =>
    rw [found] at given
    have outside := List.getElem?_eq_none_iff.mp found
    refine iff_of_false (fun exact => ?_) fun both => absurd both.1 (Nat.not_lt.mpr outside)
    by_cases some_ : ∃ place, Listed Node true parts place id
    · obtain ⟨place, listed⟩ := some_
      cases given.symm.trans (exact.listed place listed)
    · cases given.symm.trans (exact.unlisted (not_exists.mp some_))
  | some part =>
    rw [found] at given
    rw [and_iff_right (List.getElem?_eq_some_iff.mp found).1]
    constructor
    · intro exact
      refine ⟨?_, fun place listed => ?_⟩
      · -- Some part is given, which is wrong for an id that is not listed.
        by_contra none_
        cases given.symm.trans (exact.unlisted (not_exists.mp none_))
      · have same := Option.some_inj.mp (given.symm.trans (exact.listed place listed))
        change [part] = parts[place]?.toList at same
        cases there : parts[place]? with
        | none =>
          rw [there] at same
          cases same
        | some other =>
          rw [there] at same
          rw [(List.cons.inj same).1]
    · rintro ⟨⟨place, listed⟩, all⟩
      refine ⟨fun place listed => ?_, fun none_ => absurd listed (none_ place)⟩
      rw [given]
      change some [part] = some parts[place]?.toList
      rw [all place listed]
      rfl

/--
A request for an id is one for the part that is listed with it, or else for none, exactly when that
makes no difference: numbers are listed from one on, and looked up from zero on.
-/
theorem exact_iff_coincides (request : PartRequest) (parts : List Part) (id : UInt32) :
    request.Exact Node parts id ↔ request.Coincides Node parts id := by
  cases request with
  | updateStatus status => exact exact_updateStatus_iff status parts id
  | trade now => exact exact_trade_iff now parts id

/-- The first of two parts is updated, and the second one has the new status. -/
theorem not_exact :
    ¬ ∀ (request : PartRequest) (parts : List Part) (id : UInt32),
      request.Exact XmlTree parts id := by
  intro always
  have updated := (always (.updateStatus [49]) [{}, {}] 1).listed 0
    (listed_iff.mpr ⟨by decide, by decide⟩)
  exact absurd updated (by decide)

end PartRequest

end Recap.SporeNet
