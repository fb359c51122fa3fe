import Recap.SporeNet.Account

/-! The creatures and squads of a user, and the file that they are kept in. -/

namespace Recap.SporeNet

open Recap.Blaze

/-- A creature that may be unlocked, by the parts of it that matter here. -/
structure TemplateCreature where
  mName : Bytes
  mNoun : UInt32
deriving DecidableEq

/-- All of them, in the order of their names. -/
abbrev TemplateDatabase := List TemplateCreature

/-- `TemplateDatabase::Get` of a noun. -/
def TemplateDatabase.get (db : TemplateDatabase) (noun : UInt32) : Option TemplateCreature :=
  db.find? fun template => template.mNoun = noun

/-- `TemplateDatabase::Get` of a name. -/
def TemplateDatabase.getByName (db : TemplateDatabase) (name : Bytes) : Option TemplateCreature :=
  db.find? fun template => template.mName = name

structure Creature where
  mTemplate : Option TemplateCreature
  mId : UInt32 := 0
  mVersion : UInt32 := 0
deriving DecidableEq

structure Squad where
  mCreatureIds : Fin 3 → UInt32 := fun _ => 0
  mName : Bytes := []
  mCategory : Bytes := []
  mId : UInt32 := 0
  mSlot : UInt32 := 0
  mLocked : Bool := true

section Documents

variable {Node : Type} [XmlElement Node]

/-- `Creature::Read` -/
def Creature.read (db : TemplateDatabase) (node : Node) : Creature :=
  { mTemplate := db.getByName ((attributeOf node "template").getD [])
    mId := toUint32 (xmlGetTextNode node "id")
    mVersion := toUint32 (xmlGetTextNode node "version") }

/-- `Creature::Write`, which follows a null pointer if the creature has no template. -/
def Creature.write (creature : Creature) : Option Node :=
  creature.mTemplate.map fun template =>
    xmlAddTextNodes (appendAttribute element "template" template.mName)
      [("id", ofUint32 creature.mId), ("version", ofUint32 creature.mVersion)]

/-- The children of a list of creatures that are creatures. -/
def readCreatures (db : TemplateDatabase) (node : Node) : List Creature :=
  match child node "creatures" with
  | none => []
  | some creatures =>
    ((children creatures).filter fun entry => entry.1 = "creature").map
      fun entry => Creature.read db entry.2

/-- `Squad::Read`, which reads at most three creatures of the list that a squad has. -/
def Squad.read (entry : String × Node) : Option Squad :=
  if entry.1 ≠ "squad" then none else
  let listed := ((child entry.2 "creatures").map children).getD []
  some
    { mName := xmlGetTextNode entry.2 "name"
      mCategory := xmlGetTextNode entry.2 "category"
      mId := toUint32 (xmlGetTextNode entry.2 "id")
      mSlot := toUint32 (xmlGetTextNode entry.2 "slot")
      mLocked := toUint32 (xmlGetTextNode entry.2 "locked") ≠ 0
      mCreatureIds := fun index =>
        ((listed[index.val]?.bind fun entry => attributeOf entry.2 "id").map (asUint Node)).getD 0 }

/-- `Squad::Write` -/
def Squad.write (squad : Squad) : Node :=
  appendChild
    (xmlAddTextNodes element
      [("name", squad.mName), ("id", ofUint32 squad.mId), ("category", squad.mCategory),
        ("slot", ofUint32 squad.mSlot), ("locked", toDecimal (if squad.mLocked then 1 else 0))])
    "creatures"
    (appendAll "creature" ((List.finRange 3).map fun index =>
      appendAttribute element "id" (ofUint32 (squad.mCreatureIds index))))

end Documents

namespace Squad

/-- `Squad::SetCreatureId` -/
def setCreatureId (squad : Squad) (index : UInt8) (id : UInt32) : Squad :=
  if inside : index.toNat < 3 then
    { squad with mCreatureIds := Function.update squad.mCreatureIds ⟨index.toNat, inside⟩ id }
  else squad

/-- `Squad::Reset` -/
def reset (squad : Squad) (slot : UInt32) : Squad :=
  { squad with
    mId := slot, mSlot := slot, mName := ascii "Slot " ++ ofUint32 slot, mLocked := false }

end Squad

/-- A user of the game, by the parts of it that squads depend on. -/
structure User where
  mAccount : Account := {}
  mCreatures : List Creature := []
  mSquads : List Squad := []

namespace User

/-- `Creatures::Add` -/
def addCreature (user : User) (db : TemplateDatabase) (templateId : UInt32) : User × UInt32 :=
  match db.get templateId with
  | none => (user, 0)
  | some template =>
    let id := match user.mCreatures.getLast? with
      | none => 1
      | some last => last.mId + 1
    ({ user with
        mCreatures := user.mCreatures ++ [{ mTemplate := some template, mId := id, mVersion := 1 }] },
      id)

/-- `Creatures::Get` -/
def getCreature (user : User) (id : UInt32) : Option Creature :=
  user.mCreatures.find? fun creature => creature.mId = id

/-- `User::GetSquadById` -/
def getSquadById (user : User) (id : UInt32) : Option Squad :=
  user.mSquads.find? fun squad => squad.mId = id

/-- `User::UnlockCreature` -/
def unlockCreature (user : User) (db : TemplateDatabase) (templateId : UInt32) : User × UInt32 :=
  if 0 < user.mAccount.creatureRewards then
    let account := { user.mAccount with creatureRewards := user.mAccount.creatureRewards - 1 }
    ({ user with mAccount := account } : User).addCreature db templateId
  else (user, 0)

/-- `User::ResetSquads` -/
def resetSquads (user : User) : User :=
  { user with mSquads := [1, 2, 3].map fun slot => ({} : Squad).reset slot }

/-- The parts of a text between the occurrences of a delimiter. -/
def explodeString (delim : UInt8) : Bytes → List Bytes
  | [] => [[]]
  | character :: rest =>
    if character = delim then [] :: explodeString delim rest
    else match explodeString delim rest with
      | [] => [[character]]
      | part :: parts => (character :: part) :: parts

/-- One number of the list that a squad is updated from, with the place that comes next. -/
def placeCreature (user : User) (squad : Squad × UInt8) (idString : Bytes) : Squad × UInt8 :=
  let id := toUint32 idString
  if id = 0 then squad else
  match user.getCreature id with
  | none => squad
  | some creature => (squad.1.setCreatureId squad.2 creature.mId, squad.2 + 1)

/-- `User::UpdateSquad`, which changes the first squad that has the id. -/
def updateSquad (user : User) (slot : UInt32) (creatureStringList : Bytes) : User :=
  let update (squad : Squad) : Squad :=
    ((explodeString 44 creatureStringList).foldl user.placeCreature (squad, 0)).1
  match user.mSquads.findIdx? fun squad => squad.mId = slot with
  | none => user
  | some index => { user with mSquads := user.mSquads.modify index update }

section Files

variable {Node : Type} [XmlElement Node]

/-- What `User::Save` writes, if every creature has a template. -/
def save (user : User) : Option Node :=
  (user.mCreatures.mapM Creature.write).map fun creatures =>
    let docUser := appendChild element "account" (user.mAccount.write element)
    let docUser := appendChild docUser "creatures" (appendAll "creature" creatures)
    let docUser := appendChild docUser "squads" (appendAll "squad" (user.mSquads.map Squad.write))
    appendChild element "user" docUser

/-- `User::Load` into a new user. -/
def load (db : TemplateDatabase) (document : Node) : User :=
  match child document "user" with
  | none => {}
  | some docUser =>
    { mAccount := ({} : Account).read docUser
      mCreatures := readCreatures db docUser
      mSquads := match child docUser "squads" with
        | none => []
        | some squads => (children squads).filterMap Squad.read }

end Files

/-- The account that a registration ends with. -/
def registeredAccount (account : Account) (avatar : UInt32) : Account :=
  { account with
    avatarId := avatar
    tutorialCompleted := false
    chainProgression := 24
    creatureRewards := 100
    currentGameId := 1
    currentPlaygroupId := 1
    defaultDeckPveId := 1
    defaultDeckPvpId := 1
    level := 100
    dna := 10000000
    newPlayerInventory := 1
    newPlayerProgress := 9500
    cashoutBonusTime := 1
    starLevel := 10
    unlockCatalysts := 1
    unlockDiagonalCatalysts := 1
    unlockFuelTanks := 1
    unlockInventory := 1
    unlockPveDecks := 2
    unlockPvpDecks := 1
    unlockStats := 1
    unlockInventoryIdentify := 2500
    unlockEditorFlairSlots := 1
    upsell := 1
    xp := 10000
    grantAllAccess := true
    grantOnlineAccess := true }

/-- The new user with every creature unlocked, as a registration starts out. -/
def unlocked (db : TemplateDatabase) (id : Int64) : User :=
  let account : Account := { id, creatureRewards := UInt32.ofNat db.length }
  db.foldl (fun user template => (user.unlockCreature db template.mNoun).1) { mAccount := account }

/-- Puts a number into the first place of each squad. -/
def setFirsts (user : User) (nouns : List UInt32) : User :=
  { user with
    mSquads := List.zipWith (fun squad noun => squad.setCreatureId 0 noun) user.mSquads nouns }

/-- The user that a registration ends with. It takes the nouns of the first three templates. -/
def registered (db : TemplateDatabase) (id : Int64) (avatar : UInt32) : User :=
  let user := unlocked db id
  let user := { user with mAccount := registeredAccount user.mAccount avatar }
  user.resetSquads.setFirsts ((db.take 3).map TemplateCreature.mNoun)

end User

end Recap.SporeNet
