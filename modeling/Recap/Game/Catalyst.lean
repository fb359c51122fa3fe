import Recap.Core.DataBuffer
import Recap.Lib.Slots

/-! Catalysts in the slots of the players and in the world. -/

namespace Recap.Game

/-- `utils::hash_id`, the hash of a name whose letters may be capitals; a `char` has a sign. -/
def hashId (name : Bytes) : UInt32 :=
  name.foldl (fun rez byte =>
    let lower := if 0x41 ≤ byte ∧ byte ≤ 0x5A then byte + 0x20 else byte
    (rez * 0x1000193) ^^^ lower.toInt8.toInt32.toUInt32) 0x811C9DC5

inductive CatalystColor where
  | none | blue | prismatic | gold | red | green
deriving DecidableEq

/-- A rarity in eight bits, as loot data may ask for any. -/
abbrev CatalystRarity := UInt8

namespace CatalystRarity

def none : CatalystRarity := 0xFF
def common : CatalystRarity := 0
def rare : CatalystRarity := 1
def epic : CatalystRarity := 2

end CatalystRarity

/-- A type in eight bits, of which the first ones have names. -/
abbrev CatalystType := UInt8

namespace CatalystType

def none : CatalystType := 0xFF

/-- The names of the types, in their order. -/
def names : List String :=
  ["aoedamage", "attackspeed", "buffduration", "ccreduction", "cooldown", "crit", "damage",
    "damageaura", "debuffduration", "debuffincrease", "defenserating", "deflectionrating",
    "dexterity", "dodgerating", "health", "immunepoison", "immunesleep", "immuneslow", "immunestun",
    "knockback", "lifeleech", "mana", "manacostreduction", "manaleech", "mind", "movespeed",
    "orbeffectiveness", "overdrivebuildup", "petdamage", "pethealth", "projectilespeed",
    "rangeincrease", "strength", "surefooted", "thorns"]

def toString (type : CatalystType) : String :=
  names[type.toNat]?.getD "unknown"

/-- The colour of a type that is not prismatic. -/
def color (type : CatalystType) : CatalystColor :=
  if type.toString ∈ ["aoedamage", "attackspeed", "crit", "damage", "damageaura", "debuffincrease",
      "knockback", "mana", "projectilespeed"] then .red
  else if type.toString ∈ ["buffduration", "debuffduration", "dexterity", "mind", "petdamage",
      "pethealth", "strength"] then .gold
  else if type.toString ∈ ["ccreduction", "defenserating", "deflectionrating", "dodgerating",
      "health", "immunepoison", "immunesleep", "immuneslow", "immunestun", "manacostreduction",
      "surefooted", "thorns"] then .blue
  else if type.toString ∈ ["cooldown", "lifeleech", "manaleech", "movespeed", "orbeffectiveness",
      "overdrivebuildup", "rangeincrease"] then .green
  else .none

end CatalystType

/-- What a catalyst consists of. -/
structure CatalystFields where
  nounId : UInt32
  type : CatalystType
  color : CatalystColor
  rarity : CatalystRarity
deriving DecidableEq

namespace CatalystFields

/-- The noun of a catalyst names its kind, its type and its rarity. -/
def noun (type : CatalystType) (rarity : CatalystRarity) (prismatic : Bool) : Bytes :=
  ascii "crystal_" ++ (if prismatic then ascii "wild_" else []) ++ ascii type.toString ++
    (if rarity = .rare then ascii "_rare" else if rarity = .epic then ascii "_epic" else [])

def empty : CatalystFields where
  nounId := 0
  type := .none
  color := .none
  rarity := .none

def make (type : CatalystType) (rarity : CatalystRarity) (prismatic : Bool) : CatalystFields where
  nounId := hashId (noun type rarity prismatic ++ ascii ".noun")
  type := type
  color := if prismatic then .prismatic else type.color
  rarity := rarity

end CatalystFields

/-- A catalyst, which only its constructors build. -/
structure Catalyst extends CatalystFields where
  built : toCatalystFields = .empty ∨
    ∃ type rarity prismatic, toCatalystFields = .make type rarity prismatic
deriving DecidableEq

namespace Catalyst

def empty : Catalyst :=
  ⟨.empty, Or.inl rfl⟩

def new (type : CatalystType) (rarity : CatalystRarity) (prismatic : Bool) : Catalyst :=
  ⟨.make type rarity prismatic, Or.inr ⟨type, rarity, prismatic, rfl⟩⟩

/-- Whether this is a catalyst at all, as `operator bool` tells. -/
def real (catalyst : Catalyst) : Bool :=
  catalyst.nounId ≠ 0

end Catalyst

/-- What an object holds that lies in the world as loot. -/
structure LootData where
  catalystType : Int32
  catalystLevel : Int32
  catalystPrismatic : Bool
deriving DecidableEq

def LootData.setCatalyst (catalyst : Catalyst) : LootData where
  catalystType := catalyst.type.toUInt32.toInt32
  catalystLevel := catalyst.rarity.toUInt32.toInt32
  catalystPrismatic := catalyst.color = .prismatic

/-- The catalyst that loot data describes, whose numbers are cut off to eight bits. -/
def Catalyst.ofLootData (lootData : LootData) : Catalyst :=
  .new lootData.catalystType.toUInt32.toUInt8 lootData.catalystLevel.toUInt32.toUInt8
    lootData.catalystPrismatic

/-- An object that a player may pick up as a catalyst. -/
structure WorldObject where
  nounId : UInt32
  lootData : Option LootData
  markedForDeletion : Bool
deriving DecidableEq

/-- A player's catalysts. -/
abbrev CatalystSlots := Vector Catalyst 9

namespace CatalystSlots

/-- The first slot without a catalyst. -/
def getOpenCatalystSlot (slots : CatalystSlots) : UInt32 :=
  match slots.toList.findIdx? fun catalyst => catalyst.nounId = 0 with
  | none => 0xFFFFFFFF
  | some index => UInt32.ofNat index

/-- The check compares the size with the index, so the first index behind the slots is read. -/
def getCatalyst (slots : CatalystSlots) (index : UInt32) : Option Catalyst :=
  if 9 < index.toNat then some .empty else slots[index.toNat]?

def setCatalyst (slots : CatalystSlots) (catalyst : Catalyst) (index : UInt32) : CatalystSlots :=
  slots.setIfInBounds index.toNat catalyst

end CatalystSlots

/-- What a client is told about a catalyst. -/
structure CrystalMessage where
  moveType : UInt8
  slot : UInt32
  newSlot : UInt32
  catalyst : Catalyst

/-- The catalysts of the players, and what lies in the world. -/
structure Catalysts (PlayerPtr : Type) where
  mCatalysts : PlayerPtr → CatalystSlots
  /-- Whether a player has a character in the world. -/
  deployed : PlayerPtr → Bool
  objects : List WorldObject

namespace Catalysts

variable {PlayerPtr : Type} [DecidableEq PlayerPtr]

def setSlots (s : Catalysts PlayerPtr) (player : PlayerPtr) (slots : CatalystSlots) :
    Catalysts PlayerPtr :=
  { s with mCatalysts := Function.update s.mCatalysts player slots }

/-- `Instance::DropCatalyst`, undefined where it reads behind the slots. -/
def dropCatalyst (s : Catalysts PlayerPtr) (player : PlayerPtr) (catalystSlot : UInt32) :
    Option (Catalysts PlayerPtr) :=
  if !s.deployed player then some s
  else
    match (s.mCatalysts player).getCatalyst catalystSlot with
    | none => none
    | some catalyst =>
      if !catalyst.real then some s
      else
        let s := s.setSlots player ((s.mCatalysts player).setCatalyst .empty catalystSlot)
        some { s with
          objects := s.objects ++ [⟨catalyst.nounId, some (.setCatalyst catalyst), false⟩] }

/-- `Instance::PickupCatalyst`, with what the player's client is told if something is picked up. -/
def pickupCatalyst (s : Catalysts PlayerPtr) (player : PlayerPtr) (object : Nat) :
    Catalysts PlayerPtr × Option CrystalMessage :=
  match s.objects[object]? with
  | none => (s, none)
  | some record =>
    if record.markedForDeletion then (s, none)
    else
      let slot := (s.mCatalysts player).getOpenCatalystSlot
      if slot ≠ 0xFFFFFFFF then
        let s := { s with
          objects := s.objects.set object { record with markedForDeletion := true } }
        match record.lootData with
        | none => (s, none)
        | some lootData =>
          let catalyst := Catalyst.ofLootData lootData
          (s.setSlots player ((s.mCatalysts player).setCatalyst catalyst slot),
            some ⟨0, 0, slot, catalyst⟩)
      else (s, none)

/-- `Server::OnCrystalDragMessage`, undefined where it reads behind the slots. -/
def onCrystalDragMessage (s : Catalysts PlayerPtr) (player : PlayerPtr)
    (crystalSlot moveType newSlot : UInt32) : Option (Catalysts PlayerPtr × CrystalMessage) :=
  if !s.deployed player then some (s, ⟨3, crystalSlot, 0, .empty⟩)
  else
    match (s.mCatalysts player).getCatalyst crystalSlot with
    | none => none
    | some catalyst =>
      if !catalyst.real then some (s, ⟨3, crystalSlot, 0, .empty⟩)
      else if moveType = 0 then
        (s.dropCatalyst player crystalSlot).map fun s =>
          (s, ⟨2, crystalSlot, 0xFFFFFFFF, .empty⟩)
      else if moveType = 1 then some (s, ⟨2, crystalSlot, newSlot, .empty⟩)
      else if moveType = 2 then
        if crystalSlot ≠ newSlot then
          match (s.mCatalysts player).getCatalyst newSlot with
          | none => none
          | some otherCatalyst =>
            let slots := (s.mCatalysts player).setCatalyst catalyst newSlot
            some (s.setSlots player (slots.setCatalyst otherCatalyst crystalSlot),
              ⟨2, crystalSlot, newSlot, catalyst⟩)
        else some (s, ⟨2, crystalSlot, newSlot, catalyst⟩)
      else some (s, ⟨0, 0, 0, .empty⟩)

inductive Input (PlayerPtr : Type) where
  | crystalDrag (player : PlayerPtr) (crystalSlot moveType newSlot : UInt32)
  | drop (player : PlayerPtr) (catalystSlot : UInt32)
  | pickup (player : PlayerPtr) (object : Nat)
  | deploy (player : PlayerPtr) (present : Bool)

/-- A step is undefined where something is read behind the slots. -/
def step (s : Catalysts PlayerPtr) : Input PlayerPtr → Option (Catalysts PlayerPtr)
  | .crystalDrag player crystalSlot moveType newSlot =>
    (s.onCrystalDragMessage player crystalSlot moveType newSlot).map Prod.fst
  | .drop player catalystSlot => s.dropCatalyst player catalystSlot
  | .pickup player object => some (s.pickupCatalyst player object).1
  | .deploy player present => some { s with deployed := Function.update s.deployed player present }

end Catalysts
end Recap.Game
