import Recap.RakNet.ServerLaws

/-! The game instance's objects, and the packets that tell its clients about them. -/

namespace Recap.Game

open Recap.RakNet

/-- An object of the instance, by its place among all that were ever made. -/
abbrev ObjectPtr := Nat

/-- The parts of an object that are updated by packets of their own. -/
inductive UpdateFlag where
  | combatant | attributes | lootData | agentBlackboardData | interactableData | locomotion
deriving DecidableEq

/-- What the announcement of an object depends on. -/
structure GameObject where
  active : Bool
  markedForDeletion : Bool
  created : Bool
  dataBits : Bool
  updateFlags : Finset UpdateFlag
deriving DecidableEq

namespace GameObject

/-- An object as its initialisation leaves it, with whatever that has marked for update. -/
def new (dataBits : Bool) (updateFlags : Finset UpdateFlag) : GameObject where
  active := true
  markedForDeletion := false
  created := false
  dataBits := dataBits
  updateFlags := updateFlags

def needUpdate (object : GameObject) : Bool :=
  object.updateFlags ≠ ∅ ∨ object.dataBits

def mark (object : GameObject) (dataBits : Bool) (updateFlags : Finset UpdateFlag) : GameObject :=
  { object with
    dataBits := object.dataBits || dataBits
    updateFlags := object.updateFlags ∪ updateFlags }

/-- The update packets that are due: the object's own data, and one for each flag. -/
def pending (object : GameObject) : List (Option UpdateFlag) :=
  (if object.dataBits then [none] else []) ++
    (([.combatant, .attributes, .lootData, .agentBlackboardData, .interactableData,
      .locomotion] : List UpdateFlag).filter (· ∈ object.updateFlags)).map some

end GameObject

/-- The packets about objects that a client is sent, and the ends of connections. -/
inductive ObjectEvent (Address : Type) where
  | create (address : Address) (object : ObjectPtr)
  | update (address : Address) (object : ObjectPtr) (flag : Option UpdateFlag)
  | delete (address : Address) (object : ObjectPtr)
  | disconnected (address : Address)

/-- The game instance and its server, with what was sent about objects, newest first. -/
structure Instance (Address : Type) [LinearOrder Address] where
  server : Server Address
  gameStarted : Bool
  levelLoaded : Bool
  objects : List GameObject
  joined : List Address
  history : List (ObjectEvent Address)

namespace Instance

variable {Address : Type} [LinearOrder Address]

def initial : Instance Address where
  server := Server.initial
  gameStarted := false
  levelLoaded := false
  objects := []
  joined := []
  history := []

/-- A change of an object, which whoever points to it sees. -/
def updateObject (game : Instance Address) (object : ObjectPtr) (change : GameObject → GameObject) :
    Instance Address :=
  { game with objects := game.objects.modify object change }

/-- The object manager makes a new object, which is active from now on. -/
def createObject (game : Instance Address) (dataBits : Bool) (updateFlags : Finset UpdateFlag) :
    ObjectPtr × Instance Address :=
  (game.objects.length,
    { game with objects := game.objects ++ [GameObject.new dataBits updateFlags] })

/-- The active objects. The set that holds them has no order of its own. -/
def activeObjects (game : Instance Address) : List ObjectPtr :=
  (List.range game.objects.length).filter fun object =>
    (game.objects[object]?.map GameObject.active).getD false

/-- Announces an object to every client, once, and tells whether it is announced. -/
def sendObjectCreate (game : Instance Address) (object : ObjectPtr) : Instance Address × Bool :=
  match game.objects[object]? with
  | none => (game, false)
  | some record =>
    if !game.gameStarted then (game, false)
    else if record.created then (game, true)
    else
      ({ game with
          objects := game.objects.modify object fun record =>
            { record with created := true, dataBits := false }
          history := (game.server.clients.keys.map fun address =>
            ObjectEvent.create address object).reverse ++ game.history }, true)

/-- The flags are taken back while looping over the clients, so without clients they stay. -/
def clearUpdates (game : Instance Address) (object : ObjectPtr) : Instance Address :=
  game.updateObject object fun record =>
    { record with
      dataBits := false
      updateFlags := if game.server.clients.isEmpty then record.updateFlags else ∅ }

/-- Sends update packets of an object to every client. -/
def sendUpdates (game : Instance Address) (object : ObjectPtr) (flags : List (Option UpdateFlag)) :
    Instance Address :=
  { game with
    history := (game.server.clients.keys.flatMap fun address =>
      flags.map fun flag => ObjectEvent.update address object flag).reverse ++ game.history }

/--
Announces an object if that has not been done, and sends its updates to every client.

Each client's player is looked at, so a client without one makes it undefined.
-/
def sendObjectUpdate (game : Instance Address) (object : ObjectPtr) : Option (Instance Address) :=
  let (game, announced) := game.sendObjectCreate object
  if !announced then some game
  else
    if game.server.clients.toList.all fun entry => entry.2.player.isSome then
      let pending := (game.objects[object]?.map GameObject.pending).getD []
      some ((game.sendUpdates object pending).clearUpdates object)
    else none

/-- A script makes an object, which is created and updated in the clients. -/
def createObjectByScript (game : Instance Address) (dataBits : Bool)
    (updateFlags : Finset UpdateFlag) : Option (Instance Address) :=
  let (object, game) := game.createObject dataBits updateFlags
  game.sendObjectUpdate object

/-- Drops loot or a catalyst: a new object is announced, and some drops send its data at once. -/
def drop (game : Instance Address) (dataBits : Bool) (updateFlags : Finset UpdateFlag)
    (sends : Bool) : Instance Address :=
  let (object, game) := game.createObject dataBits updateFlags
  let (game, announced) := game.sendObjectCreate object
  if announced && sends then
    game.sendUpdates object [some .lootData, some .interactableData]
  else game

/-- One round of the object manager's tick, after the object's own tick. -/
def tickObject (game : Instance Address) (object : ObjectPtr) : Option (Instance Address) :=
  match game.objects[object]? with
  | none => some game
  | some record =>
    if record.active && record.needUpdate then game.sendObjectUpdate object else some game

/-- The end of the object manager's tick: what is marked is deleted, for every client. -/
def deleteMarked (game : Instance Address) : Instance Address :=
  let marked := game.activeObjects.filter fun object =>
    (game.objects[object]?.map GameObject.markedForDeletion).getD false
  { game with
    objects := game.objects.map fun record =>
      { record with active := record.active && !record.markedForDeletion }
    history := (game.server.clients.keys.flatMap fun address =>
      marked.map fun object => ObjectEvent.delete address object).reverse ++ game.history }

/-- A level has been loaded, now or before. -/
def loadLevel (game : Instance Address) (loads : Bool) : Instance Address :=
  let loaded := game.levelLoaded || loads
  { game with levelLoaded := loaded, gameStarted := loaded }

/-- Objects that the level's markers place. -/
def spawn (game : Instance Address) (spawned : List (Bool × Finset UpdateFlag)) : Instance Address :=
  spawned.foldl (fun game marks => (game.createObject marks.1 marks.2).2) game

/-- Creates all existing objects in the client. -/
def createAll (game : Instance Address) : Instance Address :=
  game.activeObjects.foldl (fun game object => (game.sendObjectCreate object).1) game

/-- A player's character is placed and made visible, and sent to every client. -/
def sendCharacter (game : Instance Address) (character : ObjectPtr) : Option (Instance Address) :=
  (game.updateObject character fun record =>
    record.mark true {UpdateFlag.attributes}).sendObjectUpdate character

/-- A player starts: the level is loaded and filled, and every object is announced. -/
def onPlayerStart (game : Instance Address) (index : UInt8) (loads : Bool)
    (spawned : List (Bool × Finset UpdateFlag)) (characters : List ObjectPtr) :
    Option (Instance Address) :=
  let game := game.loadLevel loads
  let game := if game.gameStarted then game.spawn spawned else game
  let game := if (game.server.getClientById index).isSome then game.createAll else game
  characters.foldlM (fun game character => game.sendCharacter character) game

/-- The ping of a client in the dungeon starts its player, with which it has joined. -/
def onDebugPing (game : Instance Address) (address : Address) (loads : Bool)
    (spawned : List (Bool × Finset UpdateFlag)) (characters : List ObjectPtr) :
    Option (Instance Address) :=
  match ((game.server.getClient address).bind Client.player).bind game.server.indexOf with
  | none => some game
  | some index =>
    (game.onPlayerStart index loads spawned characters).map fun game =>
      if game.gameStarted then { game with joined := address :: game.joined } else game

/-- The queued client task that updates an object of the first client for that client only. -/
def objectUpdateTask (game : Instance Address) (character : ObjectPtr) : Option (Instance Address) :=
  match game.server.clients.toList.head? with
  | none => none
  | some (address, client) =>
    if client.player.isSome && game.objects[character]?.isSome then
      some
        { game.updateObject character fun record => record.mark true ∅ with
          history := .update address character none :: game.history }
    else some game

/-- What happens to the instance. -/
inductive Input (Address : Type) where
  | server (input : Server.Input Address)
  | debugPing (address : Address) (loads : Bool) (spawned : List (Bool × Finset UpdateFlag))
      (characters : List ObjectPtr)
  | create (dataBits : Bool) (updateFlags : Finset UpdateFlag)
  | drop (dataBits : Bool) (updateFlags : Finset UpdateFlag) (sends : Bool)
  | createObject (dataBits : Bool) (updateFlags : Finset UpdateFlag)
  | change (object : ObjectPtr) (dataBits : Bool) (updateFlags : Finset UpdateFlag)
  | markForDeletion (object : ObjectPtr)
  | tick (object : ObjectPtr)
  | deleteMarked
  | objectUpdateTask (character : ObjectPtr)

/--
One input. Creation comes in three kinds: by the object manager alone, as a drop, which is announced,
and by a script, which is announced and updated.
-/
def step (game : Instance Address) : Input Address → Option (Instance Address)
  | .server (.disconnect address) =>
    some
      { game with
        server := game.server.step (.disconnect address)
        joined := game.joined.filter (· ≠ address)
        history := .disconnected address :: game.history }
  | .server input => some { game with server := game.server.step input }
  | .debugPing address loads spawned characters =>
    game.onDebugPing address loads spawned characters
  | .create dataBits updateFlags => some (game.createObject dataBits updateFlags).2
  | .drop dataBits updateFlags sends => some (game.drop dataBits updateFlags sends)
  | .createObject dataBits updateFlags => game.createObjectByScript dataBits updateFlags
  | .change object dataBits updateFlags =>
    some (game.updateObject object fun record => record.mark dataBits updateFlags)
  | .markForDeletion object =>
    some (game.updateObject object fun record => { record with markedForDeletion := true })
  | .tick object => game.tickObject object
  | .deleteMarked => some game.deleteMarked
  | .objectUpdateTask character => game.objectUpdateTask character

end Instance
end Recap.Game
