import Recap.Game.Instance
import Recap.Game.Catalyst
import Recap.Game.Cooldown
import Recap.Lib.Decoding

/-! The action commands of the clients, from the bytes of a message to what its handler does. -/

namespace Recap.RakNet

open Recap.Decoding Recap.Game

/-! ## The messages -/

/-- A `glm::vec3`, as the bits of its floats. -/
structure Vec3f where
  x : UInt32
  y : UInt32
  z : UInt32
deriving DecidableEq

def Vec3f.zero : Vec3f := ⟨0, 0, 0⟩

/-- A `glm::quat`, as the bits of its floats. -/
structure Quatf where
  x : UInt32
  y : UInt32
  z : UInt32
  w : UInt32
deriving DecidableEq

/-- The types of action commands that have a case of their own. -/
inductive ActionCommandType where
  | movement | stopMovement | switchCharacter | useCharacterAbility | useSquadAbility
  | catalystPickup | cancel | useInteractableObject | dance | taunt
deriving DecidableEq

def ActionCommandType.ofByte : UInt8 → Option ActionCommandType
  | 3 => some .movement
  | 4 => some .stopMovement
  | 5 => some .switchCharacter
  | 7 => some .useCharacterAbility
  | 8 => some .useSquadAbility
  | 9 => some .catalystPickup
  | 10 => some .cancel
  | 11 => some .useInteractableObject
  | 12 => some .dance
  | 13 => some .taunt
  | _ => none

/-- The word at a place of packed data. -/
def wordAt (bytes : List UInt8) (offset : Nat) : UInt32 :=
  UInt32.ofNat (littleEndian ((bytes.drop offset).take 4))

def vec3At (bytes : List UInt8) (offset : Nat) : Vec3f :=
  ⟨wordAt bytes offset, wordAt bytes (offset + 4), wordAt bytes (offset + 8)⟩

def quatAt (bytes : List UInt8) (offset : Nat) : Quatf :=
  ⟨wordAt bytes offset, wordAt bytes (offset + 4), wordAt bytes (offset + 8),
    wordAt bytes (offset + 12)⟩

/-- The header that all action commands have. -/
structure ActionCommandCommonData where
  type : UInt8
  objectId : UInt32
  position : Vec3f
  orientation : Quatf
deriving DecidableEq

structure ActionCommandMovementData where
  goalPosition : Vec3f
  goalFlags : UInt32
deriving DecidableEq

structure ActionCommandCatalystData where
  objectId : UInt32
  position : Vec3f
  rank : UInt32
deriving DecidableEq

structure ActionCommandAbilityData where
  targetId : UInt32
  cursorPosition : Vec3f
  targetPosition : Vec3f
  index : UInt32
  rank : UInt32
  unk : UInt32
  userData : UInt32
deriving DecidableEq

/-- The bytes of a command: its header, and the union of the payloads, which share their place. -/
structure ActionCommandData where
  data : List UInt8
  payload : List UInt8
deriving DecidableEq

namespace ActionCommandData

/-- A command as it is before anything is read into it. -/
def zero : ActionCommandData := ⟨List.replicate 40 0, List.replicate 44 0⟩

variable (command : ActionCommandData)

def common : ActionCommandCommonData where
  type := command.data.headD 0
  objectId := wordAt command.data 8
  position := vec3At command.data 12
  orientation := quatAt command.data 24

def movement : ActionCommandMovementData where
  goalPosition := vec3At command.payload 4
  goalFlags := wordAt command.payload 16

def catalyst : ActionCommandCatalystData where
  objectId := wordAt command.payload 0
  position := vec3At command.payload 4
  rank := wordAt command.payload 16

def ability : ActionCommandAbilityData where
  targetId := wordAt command.payload 0
  cursorPosition := vec3At command.payload 4
  targetPosition := vec3At command.payload 16
  index := wordAt command.payload 28
  rank := wordAt command.payload 32
  unk := wordAt command.payload 36
  userData := wordAt command.payload 40

def value : UInt32 := wordAt command.payload 0

end ActionCommandData

/-- Reads bytes over the front of a structure. With fewer bytes left, nothing is read. -/
def readOver (size : Nat) (stream target : List UInt8) : List UInt8 × List UInt8 :=
  if size ≤ stream.length then (stream.take size ++ target.drop size, stream.drop size)
  else (target, stream)

/-! ## The instance -/

structure Locomotion where
  goalPosition : Vec3f
  partialGoalPosition : Vec3f
  targetPosition : Vec3f
  externalLinearVelocity : Vec3f
  facing : Vec3f
  goalFlags : UInt32
  targetId : UInt32
  allowedStopDistance : UInt32
  desiredStopDistance : UInt32
deriving DecidableEq

namespace Locomotion

def setGoalPosition (locomotion : Locomotion) (position : Vec3f) : Locomotion :=
  { locomotion with
    targetId := 0
    facing := .zero
    targetPosition := .zero
    externalLinearVelocity := .zero
    goalFlags := 0x001
    goalPosition := position
    allowedStopDistance := 0
    desiredStopDistance := 0 }

def setPartialGoalPosition (locomotion : Locomotion) (position : Vec3f) : Locomotion :=
  { locomotion with partialGoalPosition := position }

def setGoalFlags (locomotion : Locomotion) (flags : UInt32) : Locomotion :=
  { locomotion with goalFlags := flags }

def stop (locomotion : Locomotion) : Locomotion :=
  { locomotion with
    targetId := 0
    externalLinearVelocity := .zero
    targetPosition := .zero
    facing := .zero
    goalFlags := 0x020 }

end Locomotion

inductive NounType where
  | loot | crystal | other
deriving DecidableEq

/--
An object as the action commands see it.

A thread of it may run a script. The loot data of it is the noun of the catalyst that it makes.
-/
structure Actor where
  record : GameObject
  position : Vec3f
  orientation : Quatf
  locomotion : Option Locomotion
  luaThread : Option (Option Nat)
  cooldowns : Cooldowns
  ownerObject : Option UInt32
  noun : Option NounType
  timesUsed : Option Nat
  lootData : Option UInt32
  lastAnimationState : UInt32
  lastAnimationPlayTime : UInt64

/--
A player as the action commands see it.

The abilities are what its squad and the templates of its creatures give it, or else zero. The
catalysts are nouns, and zero in an open slot.
-/
structure Hero where
  currentDeckIndex : UInt32
  abilityIds : UInt8 → UInt8 → UInt32
  templateAbilities : UInt32 → UInt32 → UInt32
  characterObjects : List (Option UInt32)
  catalysts : List UInt32

/-- What is sent, and the scripts that are started. What is sent to all clients stands here once. -/
inductive ActionEvent (Address : Type) where
  | objectTeleport (object : UInt32) (position : Vec3f) (orientation : Quatf)
  | objectPlayerMove (object : UInt32) (locomotion : Locomotion)
  | playerCharacterDeploy (player : PlayerPtr) (creatureIndex : UInt32)
  | labsPlayerUpdate (player : PlayerPtr)
  | abilityTick (abilityId object : UInt32) (target : Option UInt32) (cursorPosition : Vec3f)
      (rank : UInt32)
  | actionCommandResponse (client : Address) (abilityId : UInt32) (cooldown : UInt64)
      (userData : UInt32)
  | lootPickup (player : PlayerPtr) (object : UInt32)
  | crystalMessage (player : PlayerPtr) (slot : Nat) (nounId : UInt32)
  | catalystPickup (player : PlayerPtr)
  | dropLoot (player : PlayerPtr) (character : UInt32)
  | animationState (object state : UInt32) (timestamp : UInt64)
deriving DecidableEq

/-- The instance and its server as the action commands see them, with what has happened, newest first. -/
structure Scene (Address : Type) where
  players : Address → Option PlayerPtr
  heroes : PlayerPtr → Hero
  objects : UInt32 → Option Actor
  abilities : UInt32 → Bool
  time : UInt64
  teleportMovement : Bool
  events : List (ActionEvent Address)

namespace Scene

variable {Address : Type} (scene : Scene Address) (quat : Vec3f → Quatf)

def event (event : ActionEvent Address) : Scene Address :=
  { scene with events := event :: scene.events }

/-- A change of an object. -/
def updateObject (object : UInt32) (change : Actor → Actor) : Scene Address :=
  { scene with
    objects := Function.update scene.objects object ((scene.objects object).map change) }

def updateHero (player : PlayerPtr) (change : Hero → Hero) : Scene Address :=
  { scene with heroes := Function.update scene.heroes player (change (scene.heroes player)) }

end Scene

namespace Actor

def setPosition (actor : Actor) (position : Vec3f) : Actor :=
  { actor with position := position, record := actor.record.mark true ∅ }

def setOrientation (actor : Actor) (orientation : Quatf) : Actor :=
  { actor with orientation := orientation, record := actor.record.mark true ∅ }

/-- A change of the locomotion that marks it for update. -/
def setLocomotion (actor : Actor) (locomotion : Locomotion) : Actor :=
  { actor with
    locomotion := some locomotion
    record := actor.record.mark false {.locomotion} }

/-- One more use of an object that counts its uses. -/
def use (actor : Actor) : Actor :=
  match actor.timesUsed with
  | none => actor
  | some times =>
    { actor with
      timesUsed := some (times + 1)
      record := actor.record.mark false {.interactableData} }

def markForDeletion (actor : Actor) : Actor :=
  { actor with record := { actor.record with markedForDeletion := true } }

end Actor

/-! ## What the instance does -/

structure CombatData where
  targetId : UInt32
  cursorPosition : Vec3f
  abilityId : UInt32
  abilityRank : UInt32

namespace Scene

variable {Address : Type} (scene : Scene Address) (quat : Vec3f → Quatf)

def moveObject (object : UInt32) (locomotion : Locomotion) : Scene Address :=
  let turned :=
    if locomotion.goalFlags &&& 0x002 ≠ 0 then
      scene.updateObject object fun actor => actor.setOrientation (quat locomotion.facing)
    else scene
  if locomotion.goalFlags &&& 0x020 ≠ 0 then
    let moved := turned.updateObject object fun actor => actor.setPosition locomotion.goalPosition
    match moved.objects object with
    | none => moved
    | some actor => moved.event (.objectTeleport object actor.position actor.orientation)
  else
    (turned.updateObject object fun actor =>
      actor.setPosition locomotion.partialGoalPosition).event (.objectPlayerMove object locomotion)

def useAbility (object : UInt32) (combatData : CombatData) : Scene Address :=
  match scene.objects object with
  | none => scene
  | some actor =>
    if actor.cooldowns.hasCooldown scene.time combatData.abilityId then scene
    else if scene.abilities combatData.abilityId then
      scene.event (.abilityTick combatData.abilityId object
        ((scene.objects combatData.targetId).map fun _ => combatData.targetId)
        combatData.cursorPosition combatData.abilityRank)
    else scene

def swapCharacter (player : PlayerPtr) (creatureIndex : UInt32) : Scene Address :=
  ((scene.updateHero player fun hero => { hero with currentDeckIndex := creatureIndex }).event
    (.playerCharacterDeploy player creatureIndex)).event (.labsPlayerUpdate player)

def pickupLoot (player : PlayerPtr) (object : UInt32) : Scene Address :=
  match scene.objects object with
  | none => scene
  | some actor =>
    let picked := scene.updateObject object Actor.markForDeletion
    match actor.lootData with
    | none => picked
    | some _ => picked.event (.lootPickup player object)

def pickupCatalyst (player : PlayerPtr) (object : UInt32) : Scene Address :=
  match scene.objects object with
  | none => scene
  | some actor =>
    match (scene.heroes player).catalysts.findIdx? (· = 0) with
    | none => scene.event (.catalystPickup player)
    | some slot =>
      let picked := scene.updateObject object Actor.markForDeletion
      match actor.lootData with
      | none => picked
      | some nounId =>
        (picked.updateHero player fun hero =>
          { hero with catalysts := hero.catalysts.set slot nounId }).event
            (.crystalMessage player slot nounId)

def dropLoot (player : PlayerPtr) : Scene Address :=
  let hero := scene.heroes player
  match hero.characterObjects[hero.currentDeckIndex.toNat]?.join with
  | none => scene
  | some character => scene.event (.dropLoot player character)

def interactWithObject (player : PlayerPtr) (object : UInt32) : Scene Address :=
  match scene.objects object with
  | none => scene
  | some actor =>
    if actor.record.markedForDeletion then scene
    else
      let used := scene.updateObject object Actor.use
      match actor.noun with
      | some .loot => used.pickupLoot player object
      | some .crystal => used.pickupCatalyst player object
      | some .other | none => used.dropLoot player

/-- The script that the object's thread runs is dropped. The thread stays. -/
def cancelAction (object : UInt32) : Scene Address :=
  scene.updateObject object fun actor => { actor with luaThread := actor.luaThread.map fun _ => none }

def sendAnimationState (object state : UInt32) : Scene Address :=
  (scene.updateObject object fun actor =>
    { actor with lastAnimationState := state, lastAnimationPlayTime := scene.time }).event
      (.animationState object state scene.time)

end Scene

/-! ## The handlers -/

/-- A command on its way through its handler, with what is left of its message. -/
structure Turn (Address : Type) where
  scene : Scene Address
  client : Address
  player : PlayerPtr
  command : ActionCommandData
  stream : List UInt8

namespace Turn

variable {Address : Type} (turn : Turn Address) (quat : Vec3f → Quatf)

/-- The object that acts. -/
def objectId : UInt32 := turn.command.common.objectId

/-- Reads a payload into the union, whatever that holds already. -/
def readPayload (size : Nat) : Turn Address :=
  let (payload, stream) := readOver size turn.stream turn.command.payload
  { turn with command := { turn.command with payload := payload }, stream := stream }

def movement : Turn Address :=
  match (turn.scene.objects turn.objectId).bind Actor.locomotion with
  | none => turn
  | some locomotion =>
    let turn := turn.readPayload 24
    let goalFlags :=
      if turn.scene.teleportMovement then 0x020 else turn.command.movement.goalFlags
    let goal := (locomotion.setGoalPosition turn.command.movement.goalPosition).setPartialGoalPosition
      turn.command.common.position
    let goal := goal.setGoalFlags (goal.goalFlags ||| goalFlags)
    { turn with
      scene := (turn.scene.updateObject turn.objectId fun actor =>
        actor.setLocomotion goal).moveObject quat turn.objectId goal }

def stopMovement : Turn Address :=
  match (turn.scene.objects turn.objectId).bind Actor.locomotion with
  | none => turn
  | some locomotion =>
    let turn := turn.readPayload 24
    { turn with
      scene := turn.scene.updateObject turn.objectId fun actor =>
        actor.setLocomotion locomotion.stop }

def switchCharacter : Turn Address :=
  let turn := turn.readPayload 4
  { turn with scene := turn.scene.swapCharacter turn.player turn.command.value }

def useCharacterAbility : Turn Address :=
  let turn := turn.readPayload 44
  let ability := turn.command.ability
  let hero := turn.scene.heroes turn.player
  let creatureIndex := hero.currentDeckIndex
  -- Both indices are passed on in eight bits.
  let found := hero.abilityIds creatureIndex.toUInt8 ability.index.toUInt8
  let abilityId := if found = 0 then hero.templateAbilities creatureIndex ability.index else found
  let scene := turn.scene.useAbility turn.objectId
    ⟨ability.targetId, ability.cursorPosition, abilityId, ability.rank⟩
  match scene.objects ability.targetId with
  | none => { turn with scene := scene }
  | some _ =>
    { turn with
      scene := scene.event (.actionCommandResponse turn.client abilityId 0 ability.userData) }

def useSquadAbility : Turn Address :=
  let turn := turn.readPayload 44
  let scene := turn.scene.updateObject turn.objectId fun actor =>
    actor.setOrientation turn.command.common.orientation
  let abilityId := (scene.heroes turn.player).abilityIds 0xFF turn.command.ability.index.toUInt8
  { turn with scene := scene.event (.actionCommandResponse turn.client abilityId 2000 0x4321) }

def catalystPickup : Turn Address :=
  let turn := turn.readPayload 20
  { turn with scene := turn.scene.interactWithObject turn.player turn.command.catalyst.objectId }

def cancel : Turn Address :=
  let turn := turn.readPayload 24
  { turn with scene := turn.scene.cancelAction turn.objectId }

def useInteractableObject : Turn Address :=
  let turn := turn.readPayload 4
  { turn with scene := turn.scene.interactWithObject turn.player turn.command.value }

def dance : Turn Address :=
  { turn with scene := turn.scene.sendAnimationState turn.objectId (hashId (ascii "emote_dance_all")) }

def taunt : Turn Address :=
  { turn with scene := turn.scene.sendAnimationState turn.objectId (hashId (ascii "emote_taunt_all")) }

/-- What a case of the switch does. -/
def handle : ActionCommandType → Turn Address
  | .movement => turn.movement quat
  | .stopMovement => turn.stopMovement
  | .switchCharacter => turn.switchCharacter
  | .useCharacterAbility => turn.useCharacterAbility
  | .useSquadAbility => turn.useSquadAbility
  | .catalystPickup => turn.catalystPickup
  | .cancel => turn.cancel
  | .useInteractableObject => turn.useInteractableObject
  | .dance => turn.dance
  | .taunt => turn.taunt

end Turn

/-- The cases that the switch runs through. No break ends the one of the squad abilities. -/
def ActionCommandType.cases : ActionCommandType → List ActionCommandType
  | .useSquadAbility => [.useSquadAbility, .catalystPickup]
  | type => [type]

namespace Scene

variable {Address : Type} (scene : Scene Address) (quat : Vec3f → Quatf)

/-- A message as it gets to the switch, if its sender has a player and its object is there. -/
def receive (client : Address) (message : List UInt8) : Option (Turn Address) :=
  match scene.players client with
  | none => none
  | some player =>
    let (data, stream) := readOver 40 message ActionCommandData.zero.data
    let command : ActionCommandData := { ActionCommandData.zero with data := data }
    match scene.objects command.common.objectId with
    | none => none
    | some _ => some ⟨scene, client, player, command, stream⟩

/-- The cases that are run for a message, in their order, and what is left behind by them. -/
def onActionCommandMsgs (client : Address) (message : List UInt8) :
    List ActionCommandType × Scene Address :=
  match scene.receive client message with
  | none => ([], scene)
  | some turn =>
    match ActionCommandType.ofByte turn.command.common.type with
    | none => ([], turn.scene)
    | some type =>
      (type.cases, (type.cases.foldl (fun turn case => turn.handle quat case) turn).scene)

end Scene
end Recap.RakNet
