import Recap.Game.Instance
import Recap.SporeNet.Squad

/-! The character objects that players control in the world. -/

namespace Recap.SporeNet

/-- `Creature::GetNoun` -/
def Creature.getNoun (creature : Creature) : UInt32 :=
  match creature.mTemplate with
  | none => 0
  | some template => template.mNoun

/-- `User::GetCreatureById` -/
def User.getCreatureById (user : User) (id : UInt32) : Option Creature :=
  user.mCreatures.find? fun creature => creature.mId = id

end Recap.SporeNet

namespace Recap.Game

open Recap.RakNet

/-- A character of a player, by the parts of it that are read off its creature. -/
structure Character where
  mNounId : UInt32 := 0
  mVersion : UInt32 := 0
deriving DecidableEq

/-- An object of the world, by what it takes to be a character. -/
structure CharacterObject where
  noun : UInt32
  mPlayerIndex : UInt8 := 0xFF
  mbPlayerControlled : Bool := false
  /-- Whether the object manager still has it. -/
  active : Bool := true
deriving DecidableEq

def CharacterObject.setPlayerIndex (object : CharacterObject) (playerIndex : UInt8) :
    CharacterObject :=
  { object with mPlayerIndex := playerIndex, mbPlayerControlled := playerIndex < 0xFF }

/-- The players with their characters, and the objects of the world. -/
structure Cast (Address : Type) [LinearOrder Address] where
  server : Server Address
  mCharacterData : PlayerPtr → Fin 3 → Character
  mCharacterObjects : PlayerPtr → Fin 3 → Option ObjectPtr
  mCurrentDeckIndex : PlayerPtr → UInt32
  objects : List CharacterObject

namespace Cast

variable {Address : Type} [LinearOrder Address]

def initial : Cast Address where
  server := Server.initial
  mCharacterData := fun _ _ => {}
  mCharacterObjects := fun _ _ => none
  mCurrentDeckIndex := fun _ => 0
  objects := []

/-- The player of the client at an address. -/
def playerOf (s : Cast Address) (address : Address) : Option PlayerPtr :=
  (s.server.getClient address).bind Client.player

/-- `ObjectManager::Create`, which makes nothing if there is no id for the object. -/
def create (s : Cast Address) (noun : UInt32) (hasId : Bool) : Option ObjectPtr × Cast Address :=
  if hasId then (some s.objects.length, { s with objects := s.objects ++ [{ noun }] })
  else (none, s)

/-- `Player::SetCharacter`, which overwrites what is in the slot. -/
def setCharacter (s : Cast Address) (player : PlayerPtr) (character : Character) (index : Fin 3)
    (hasId : Bool) : Cast Address :=
  let s := { s with
    mCharacterData := Function.update s.mCharacterData player
      (Function.update (s.mCharacterData player) index character) }
  let (object, s) := if character.mNounId ≠ 0 then s.create character.mNounId hasId else (none, s)
  let s := { s with
    mCharacterObjects := Function.update s.mCharacterObjects player
      (Function.update (s.mCharacterObjects player) index object) }
  match object with
  | none => s
  | some object =>
    { s with
      objects := s.objects.modify object fun record =>
        record.setPlayerIndex ((s.server.indexOf player).getD 0xFF) }

/-- The character that a creature is played as. -/
def characterOf (creature : Option SporeNet.Creature) : Character :=
  match creature with
  | none => {}
  | some creature => { mNounId := creature.getNoun, mVersion := creature.mVersion }

/-- `Player::SetSquad`, one slot after the other. -/
def setSquad (s : Cast Address) (player : PlayerPtr) (user : SporeNet.User) (squad : SporeNet.Squad)
    (hasId : Fin 3 → Bool) : Cast Address :=
  (List.finRange 3).foldl
    (fun s index =>
      s.setCharacter player (characterOf (user.getCreatureById (squad.mCreatureIds index))) index
        (hasId index))
    { s with mCurrentDeckIndex := Function.update s.mCurrentDeckIndex player 0 }

/-- `Server::PrepareGameStart`, with the creatures and squads that the client's user has then. -/
def prepareGameStart (s : Cast Address) (address : Address) (user : SporeNet.User)
    (squadId : UInt32) (hasId : Fin 3 → Bool) : Cast Address :=
  match s.playerOf address with
  | none => s
  | some player =>
    match (s.server.getClient address).bind Client.user with
    | none => s
    | some _ =>
      match user.getSquadById squadId with
      | none => s
      | some squad => s.setSquad player user squad hasId

def swapCharacter (s : Cast Address) (player : PlayerPtr) (index : UInt32) : Cast Address :=
  { s with mCurrentDeckIndex := Function.update s.mCurrentDeckIndex player index }

/-- What happens to the players and the objects of the world. -/
inductive Input (Address : Type) where
  | server (input : Server.Input Address)
  | prepareGameStart (address : Address) (user : SporeNet.User) (squadId : UInt32)
      (hasId : Fin 3 → Bool)
  | swapCharacter (player : PlayerPtr) (index : UInt32)
  | removePlayer (id : Int)
  | create (noun : UInt32) (hasId : Bool)
  | delete (object : ObjectPtr)

def step (s : Cast Address) : Input Address → Cast Address
  | .server input => { s with server := s.server.step input }
  | .prepareGameStart address user squadId hasId => s.prepareGameStart address user squadId hasId
  | .swapCharacter player index => s.swapCharacter player index
  | .removePlayer id => { s with server := s.server.removePlayer id }
  | .create noun hasId => (s.create noun hasId).2
  | .delete object =>
    { s with objects := s.objects.modify object fun record => { record with active := false } }

end Cast
end Recap.Game
