import Recap.Core.Strings
import Recap.Core.ViewLocality
import Recap.SporeNet.CreatureIds

/-! The templates of creatures, and the JSON that they are kept in. -/

namespace Recap.SporeNet

open Recap.Blaze Recap.Game
open Recap.Blaze.Json (cString)

/-- The two floating types, of which only the conversions are used. -/
structure Floating where
  Single : Type
  Double : Type
  ofInt : Int → Double
  widen : Single → Double
  narrow : Double → Single
  /-- Every value of the smaller type is one of the larger type. -/
  narrow_widen : ∀ value, narrow (widen value) = value

variable {floating : Floating}

/-- `rapidjson::Value`, with the kinds that a template reads apart from all others. -/
inductive JsonValue (floating : Floating) where
  | integer (value : Int)
  | real (value : floating.Double)
  | string (text : Bytes)
  | object (members : List (String × JsonValue floating))
  | other

abbrev JsonMembers (floating : Floating) := List (String × JsonValue floating)

namespace JsonMembers

/-- `json::GetUint`, which asserts that the member it finds is a number of 32 bits. -/
def getUint (node : JsonMembers floating) (label : String) : Option UInt32 :=
  match node.lookup label with
  | none => some 0
  | some (.integer value) => if 0 ≤ value ∧ value < 2 ^ 32 then some (.ofNat value.toNat) else none
  | some _ => none

/-- `json::GetDouble`, for which any number will do. -/
def getDouble (node : JsonMembers floating) (label : String) : Option floating.Double :=
  match node.lookup label with
  | none => some (floating.ofInt 0)
  | some (.integer value) => some (floating.ofInt value)
  | some (.real value) => some value
  | some _ => none

/-- `json::GetString`, which makes a text of a C string. -/
def getString (node : JsonMembers floating) (label : String) : Option Bytes :=
  match node.lookup label with
  | none => some []
  | some (.string text) => some (cString text)
  | some _ => none

end JsonMembers

/-- `json::Set` of a text, whose length is cut to 32 bits. -/
def JsonValue.ofText (text : Bytes) : JsonValue floating := .string (text.take (text.length % 2 ^ 32))

/-- `json::Set` of a `uint32_t` -/
def JsonValue.ofUint (value : UInt32) : JsonValue floating := .integer value.toNat

/-- `utils::string_iequals` -/
def stringIequals (lhs rhs : Bytes) : Bool := lhs.map constTolower = rhs.map constTolower

inductive CreatureType where
  | bio | cyber | plasma | necro | chrono | all | unknown
deriving DecidableEq

/-- `from_string` of a type of creatures. -/
def CreatureType.fromString (src : Bytes) : CreatureType :=
  if stringIequals src (ascii "bio") then .bio
  else if stringIequals src (ascii "cyber") then .cyber
  else if stringIequals src (ascii "plasma") then .plasma
  else if stringIequals src (ascii "necro") then .necro
  else if stringIequals src (ascii "chrono") then .chrono
  else if stringIequals src (ascii "all") then .all
  else .unknown

/-- `to_string` of a type of creatures. -/
def CreatureType.toText : CreatureType → Bytes
  | bio => ascii "bio"
  | cyber => ascii "cyber"
  | plasma => ascii "plasma"
  | necro => ascii "necro"
  | chrono => ascii "chrono"
  | all => ascii "all"
  | unknown => ascii "unknown"

inductive CreatureClass where
  | ravager | sentinel | tempest | all | unknown
deriving DecidableEq

/-- `from_string` of a class of creatures. -/
def CreatureClass.fromString (src : Bytes) : CreatureClass :=
  if stringIequals src (ascii "ravager") then .ravager
  else if stringIequals src (ascii "sentinel") then .sentinel
  else if stringIequals src (ascii "tempest") then .tempest
  else if stringIequals src (ascii "all") then .all
  else .unknown

/-- `to_string` of a class of creatures. -/
def CreatureClass.toText : CreatureClass → Bytes
  | ravager => ascii "ravager"
  | sentinel => ascii "sentinel"
  | tempest => ascii "tempest"
  | all => ascii "all"
  | unknown => ascii "unknown"

inductive CreatureParts where
  | all | noHands | noFeet | unknown
deriving DecidableEq

/-- `from_string` of the parts that a creature may wear. -/
def CreatureParts.fromString (src : Bytes) : CreatureParts :=
  if stringIequals src (ascii "no_feet") then .noFeet
  else if stringIequals src (ascii "no_hands") then .noHands
  else if stringIequals src (ascii "all") then .all
  else .unknown

structure Stats where
  statName : Bytes
  maxValue : UInt32
  currentValue : UInt32
deriving DecidableEq

/-- The three fields of a stat are looked up by their places, whether they are there or not. -/
def Stats.ofData (statData : List Bytes) : Option Stats :=
  statData[0]?.bind fun statName => statData[1]?.bind fun maxValue =>
    statData[2]?.map fun currentValue => ⟨statName, toUint32 maxValue, toUint32 currentValue⟩

/-- The text that a stat is written as, without the semicolon behind it. -/
def Stats.text (stat : Stats) : Bytes :=
  stat.statName ++ ascii "," ++ ofUint32 stat.maxValue ++ ascii "," ++ ofUint32 stat.currentValue

/-- The items of a text of stats that are not empty, each one split into its fields. -/
def statItems (stats : Bytes) : Option (List (List Bytes)) :=
  (explodeString stats (ascii ";")).bind fun items =>
    (items.filter (· ≠ [])).mapM fun statString => explodeString statString (ascii ",")

/--
How `TemplateCreature::Read` and `TemplateCreature::ReadJson` make stats of a text.

A first loop skips the items of fewer fields; what it made is cleared, and the second loop skips none.
-/
def readStats (statsString : Bytes) : Option (List Stats) :=
  (statItems statsString).bind fun items => items.mapM Stats.ofData

/-- How `Creature::Update` makes stats of a text, without the items of fewer fields. -/
def updateStats (stats : Bytes) : Option (List Stats) :=
  (statItems stats).bind fun items => (items.filter (3 ≤ ·.length)).mapM Stats.ofData

/-- How `TemplateCreature::WriteApi` and `TemplateCreature::WriteJson` make a text of stats. -/
def writeStats (mStats : List Stats) : Bytes := mStats.flatMap fun stat => stat.text ++ ascii ";"

/-- A template, with all that is read into it; before that its numbers are zero. -/
structure TemplateSheet (floating : Floating) extends TemplateCreature where
  mNameLocaleId : Bytes := []
  mTextLocaleId : Bytes := []
  mType : CreatureType := .all
  mClass : CreatureClass := .all
  mEquipableParts : CreatureParts := .all
  mBaseWeaponDamageMin : floating.Double := floating.ofInt 1
  mBaseWeaponDamageMax : floating.Double := floating.ofInt 1
  mGearScore : floating.Single := floating.narrow (floating.ofInt 0)
  mAbility : Fin 5 → UInt32 := fun _ => 0
  mStats : List Stats := []

namespace TemplateSheet

open JsonMembers

/-- `ReadAbilitySlot`: an id, or the name that it is the hash of. -/
def readAbilitySlot (key : String) : JsonValue floating → UInt32
  | .object members =>
    match members.lookup key with
    | some (.integer value) => (BitVec.ofInt 32 value).toNat.toUInt32
    | some (.string text) => hashId (cString text)
    | _ => 0
  | _ => 0

/-- `ReadAbilitySlotManyKeys`: the first slot that is not zero. -/
def readAbilitySlotManyKeys (obj : JsonValue floating) : List String → UInt32
  | [] => 0
  | key :: keys =>
    let id := readAbilitySlot key obj
    if id ≠ 0 then id else readAbilitySlotManyKeys obj keys

/-- The names that a slot may have. -/
def abilityKeys : Fin 5 → List String
  | 0 => ["abilityBasic", "basic", "a0", "s0"]
  | 1 => ["abilitySpecial1", "special1", "s1"]
  | 2 => ["abilitySpecial2", "special2", "s2"]
  | 3 => ["abilityRandom", "random", "rand"]
  | 4 => ["abilityPassive", "passive", "pas"]

/-- A slot comes from the template itself, else from the abilities inside of it. -/
def readAbility (object : JsonMembers floating) (slot : Fin 5) : UInt32 :=
  let id := readAbilitySlotManyKeys (.object object) (abilityKeys slot)
  if id ≠ 0 then id
  else ((object.lookup "statsTemplateAbility").map fun abilities =>
    readAbilitySlotManyKeys abilities (abilityKeys slot)).getD 0

/-- `TemplateCreature::ReadJson` into a new template. -/
def readJson : JsonValue floating → Option (TemplateSheet floating)
  | .object object => do
    let mNoun ← getUint object "id"
    let mNameLocaleId ← getString object "nameLocaleId"
    let mTextLocaleId ← getString object "descLocaleId"
    let mName ← getString object "name"
    let elementType ← getString object "elementType"
    let weaponMinDamage ← getDouble object "weaponMinDamage"
    let weaponMaxDamage ← getDouble object "weaponMaxDamage"
    let gearScore ← getDouble object "gearScore"
    -- The parts are read from the class, for which there are other names.
    let classType ← getString object "classType"
    let statsString ← getString object "statsTemplate"
    let mStats ← readStats statsString
    some {
      mName, mNoun, mNameLocaleId, mTextLocaleId, mStats
      mType := .fromString elementType
      mClass := .fromString classType
      mEquipableParts := .fromString classType
      mBaseWeaponDamageMin := weaponMinDamage
      mBaseWeaponDamageMax := weaponMaxDamage
      mGearScore := floating.narrow gearScore
      mAbility := readAbility object }
  -- What is no object changes nothing.
  | _ => some { mName := [], mNoun := 0 }

/-- The members of `TemplateCreature::WriteJson`. -/
def members (sheet : TemplateSheet floating) : JsonMembers floating :=
  [("id", .ofUint sheet.mNoun),
    ("nameLocaleId", .ofText sheet.mNameLocaleId),
    ("descLocaleId", .ofText sheet.mTextLocaleId),
    ("name", .ofText sheet.mName),
    ("elementType", .ofText sheet.mType.toText),
    ("weaponMinDamage", .real sheet.mBaseWeaponDamageMin),
    ("weaponMaxDamage", .real sheet.mBaseWeaponDamageMax),
    ("gearScore", .real (floating.widen sheet.mGearScore)),
    ("classType", .ofText sheet.mClass.toText),
    ("statsTemplate", .ofText (writeStats sheet.mStats)),
    ("abilityBasic", .ofUint (sheet.mAbility 0)),
    ("abilitySpecial1", .ofUint (sheet.mAbility 1)),
    ("abilitySpecial2", .ofUint (sheet.mAbility 2)),
    ("abilityRandom", .ofUint (sheet.mAbility 3)),
    ("abilityPassive", .ofUint (sheet.mAbility 4))]

/-- `TemplateCreature::WriteJson` -/
def writeJson (sheet : TemplateSheet floating) : JsonValue floating := .object sheet.members

/-- `try_emplace` of a template under its name. -/
def tryEmplace (mTemplateCreatures : List (TemplateSheet floating)) (sheet : TemplateSheet floating) :
    List (TemplateSheet floating) :=
  if ∃ held ∈ mTemplateCreatures, held.mName = sheet.mName then mTemplateCreatures
  else mTemplateCreatures ++ [sheet]

/-- `TemplateDatabase::Load`, with the templates in the order in which they were added. -/
def load (templatesList : List (JsonValue floating)) : Option (List (TemplateSheet floating)) :=
  templatesList.foldlM (fun mTemplateCreatures templateNode =>
    (readJson templateNode).map (tryEmplace mTemplateCreatures)) []

end TemplateSheet

end Recap.SporeNet
