import Recap.Game.Instance

/-! The game server's message handlers and queued tasks, and the pointers that they follow. -/

namespace Recap.RakNet

open Recap.Game

/-- Where a client is in the game. -/
inductive GameState where
  | invalid | boot | login | spaceship | editor | levelEditor | preDungeon | dungeon | observer
  | cinematic | spectator | replay | chainVoting | chainCashOut | gameOver | quit | arenaLobby
  | arenaRoundResults | juggernautLobby | juggernautResults | killRaceLobby | killRaceResults
deriving DecidableEq

def isValidStateChange (fromState toState : GameState) : Bool :=
  if toState = .login ∧ fromState ≠ .login then true
  else if toState = .spaceship ∧ fromState ≠ .spaceship then true
  else
    match fromState with
    | .login | .dungeon | .observer | .cinematic | .spectator => true
    | .editor | .chainCashOut | .gameOver | .juggernautResults | .killRaceResults =>
      toState = .spaceship
    | .levelEditor | .replay | .arenaLobby | .juggernautLobby | .killRaceLobby =>
      toState ∈ [GameState.spaceship, .preDungeon]
    | .boot => toState ∈ [GameState.login, .spaceship]
    | .spaceship =>
      toState ∈ [GameState.editor, .levelEditor, .preDungeon, .replay, .chainVoting, .arenaLobby]
    | .preDungeon => toState ∈ [GameState.spaceship, .dungeon, .spectator, .replay]
    | .chainVoting => toState ∈ [GameState.spaceship, .preDungeon, .chainCashOut]
    | .arenaRoundResults => toState ∈ [GameState.spaceship, .arenaLobby]
    | _ => false

/-- The creature ids of a squad. -/
abbrev Squad := List UInt32

/-- What a player takes into the dungeon. -/
structure Loadout where
  squad : Option Squad
  currentDeckIndex : Nat
  characters : List (Option ObjectPtr)

namespace Loadout

def empty : Loadout where
  squad := none
  currentDeckIndex := 0
  characters := [none, none, none]

def getCharacterObject (loadout : Loadout) (index : Nat) : Option ObjectPtr :=
  loadout.characters[index]?.join

def getDeployedCharacterObject (loadout : Loadout) : Option ObjectPtr :=
  loadout.getCharacterObject loadout.currentDeckIndex

end Loadout

/-- A pointer that was followed although it was null, or past the end of the map of clients. -/
inductive NullDeref where
  | client | player | squad | object
deriving DecidableEq

/-- The game server with all that its handlers look at. -/
structure Play (Address : Type) [LinearOrder Address] where
  game : Instance Address
  states : Std.TreeMap Address GameState
  loadouts : Std.TreeMap PlayerPtr Loadout

/-- The marks that the initialisation of a new object leaves. -/
abbrev Marks := Bool × Finset UpdateFlag

/-- What an object turns out to be that a player interacts with. -/
inductive Interaction where
  | loot
  | crystal (openSlot hasLootData : Bool)
  | other (orb catalyst : Marks)

/-- An action that a client asks for. A script makes objects, with the marks that they are given. -/
inductive ActionCommand where
  | movement | stopMovement | cancel | dance | taunt | unknown
  | switchCharacter (index : Nat)
  | useCharacterAbility (index : Nat) (script : List Marks)
  | useSquadAbility (index : Nat) (target : ObjectPtr) (found : Interaction)
  | catalystPickup (target : ObjectPtr) (found : Interaction)
  | useInteractableObject (target : ObjectPtr) (found : Interaction)

/-- A message of a client, with what the game data holds for it. -/
inductive Message where
  | helloPlayerRequest (blazeId : BitVec 64)
  | playerStatusUpdate (status : Nat)
  | actionCommandMsgs (object : ObjectPtr) (command : ActionCommand)
  | chainVote (value : Nat)
  | prepareGameStart (squad : Option Squad) (nouns : List (Option Marks))
  | crystalDragMessage (moveType : Nat) (catalyst : Option Marks)
  | lootDropMessage
  | debugPing (loads : Bool) (spawned : List Marks)

/-- A queued client task. -/
inductive ClientTask where
  | reloadLevel | physicsChanged | serverEvent | labsPlayerUpdate | objectUpdate | directorState
  | modifierCreated | debugPing | other
  | objectCreate (drops : List Marks)

namespace Play

variable {Address : Type} [LinearOrder Address]

def initial : Play Address where
  game := Instance.initial
  states := {}
  loadouts := {}

def loadout (play : Play Address) (player : PlayerPtr) : Loadout :=
  (play.loadouts[player]?).getD Loadout.empty

/-- The player of the client at an address. -/
def playerOf (play : Play Address) (address : Address) : Option PlayerPtr :=
  (play.game.server.getClient address).bind Client.player

def stateOf (play : Play Address) (address : Address) : GameState :=
  (play.states[address]?).getD .invalid

def setGameState (play : Play Address) (address : Address) (newState : GameState) :
    Bool × Play Address :=
  let oldState := play.stateOf address
  if oldState = .invalid ∨ isValidStateChange oldState newState then
    (true, { play with states := play.states.insert address newState })
  else (false, play)

/-- An object of the instance that is there. -/
def get (play : Play Address) (object : ObjectPtr) : Option GameObject :=
  (play.game.objects[object]?).bind fun record => if record.active then some record else none

/-- What the instance leaves undefined is an update with a client that has no player. -/
def withGame (play : Play Address) (game : Option (Instance Address)) :
    Except NullDeref (Play Address) :=
  match game with
  | some game => .ok { play with game := game }
  | none => .error .player

/-- The creature whose ability is used, if there is one. It is looked up in the player's squad. -/
def getAbilityId (loadout : Loadout) (creatureIndex abilityIndex : Nat) :
    Except NullDeref (Option UInt32) :=
  if abilityIndex ∈ [0, 2, 3] then
    match loadout.squad with
    | none => .error .squad
    | some creatureIds => .ok creatureIds[if creatureIndex ≥ 3 then 0 else creatureIndex]?
  else if abilityIndex ∈ [6, 7, 8] then
    match loadout.squad with
    | none => .error .squad
    | some creatureIds => .ok creatureIds[abilityIndex - 6]?
  else .ok none

/-- A script creates objects, each of which is announced and updated at once. -/
def runScript (play : Play Address) (script : List Marks) : Except NullDeref (Play Address) :=
  play.withGame
    (script.foldlM (fun game marks => game.createObjectByScript marks.1 marks.2) play.game)

def dropLoot (play : Play Address) (drops : List Marks) (sends : Bool) : Play Address :=
  { play with
    game := drops.foldl (fun game marks => game.drop marks.1 marks.2 sends) play.game }

/-- Picks up what is left of a catalyst. The message about it goes to the client of the slot. -/
def pickupCatalyst (play : Play Address) (player : PlayerPtr) (object : ObjectPtr)
    (openSlot hasLootData : Bool) : Except NullDeref (Play Address) :=
  if openSlot then
    let play := { play with
      game := play.game.updateObject object fun record => { record with markedForDeletion := true } }
    if hasLootData then
      match (play.game.server.indexOf player).bind play.game.server.getClientById with
      | none => .error .client
      | some _ => .ok play
    else .ok play
  else .ok play

def interactWithObject (play : Play Address) (player : PlayerPtr) (target : ObjectPtr)
    (found : Interaction) : Except NullDeref (Play Address) :=
  match play.get target with
  | none => .ok play
  | some record =>
    if record.markedForDeletion then .ok play
    else
      match found with
      | .loot =>
        .ok { play with
          game := play.game.updateObject target fun record =>
            { record with markedForDeletion := true } }
      | .crystal openSlot hasLootData => play.pickupCatalyst player target openSlot hasLootData
      | .other orb catalyst =>
        match (play.loadout player).getDeployedCharacterObject with
        | none => .ok play
        | some _ => .ok (play.dropLoot [orb, catalyst] false)

def swapCharacter (play : Play Address) (player : PlayerPtr) (index : Nat) : Play Address :=
  { play with
    loadouts := play.loadouts.insert player
      { play.loadout player with currentDeckIndex := index } }

/-- The using of a squad ability goes on into the case behind it, the pickup of a catalyst. -/
def onActionCommandMsgs (play : Play Address) (address : Address) (object : ObjectPtr)
    (command : ActionCommand) : Except NullDeref (Play Address) :=
  match play.playerOf address with
  | none => .ok play
  | some player =>
    match play.get object with
    | none => .ok play
    | some _ =>
      match command with
      | .movement | .stopMovement | .cancel | .dance | .taunt | .unknown => .ok play
      | .switchCharacter index => .ok (play.swapCharacter player index)
      | .useCharacterAbility index script => do
        -- The deck index is passed on in eight bits.
        let deckIndex := (play.loadout player).currentDeckIndex % 2 ^ 8
        let _ ← getAbilityId (play.loadout player) deckIndex index
        play.runScript script
      | .useSquadAbility index target found => do
        let _ ← getAbilityId (play.loadout player) 0xFF index
        play.interactWithObject player target found
      | .catalystPickup target found => play.interactWithObject player target found
      | .useInteractableObject target found => play.interactWithObject player target found

/-- A game start makes a character object for each creature of the squad that has a noun. -/
def setSquad (play : Play Address) (player : PlayerPtr) (squad : Squad)
    (nouns : List (Option Marks)) : Play Address :=
  let made := nouns.foldl (fun (characters, game) marks =>
    match marks with
    | none => (characters ++ [none], game)
    | some marks =>
      let (object, game) := Instance.createObject game marks.1 marks.2
      (characters ++ [some object], game)) (([] : List (Option ObjectPtr)), play.game)
  { play with
    game := made.2
    loadouts := play.loadouts.insert player
      { squad := some squad, currentDeckIndex := 0, characters := made.1 } }

def prepareGameStart (play : Play Address) (address : Address) (squad : Option Squad)
    (nouns : List (Option Marks)) : Play Address :=
  match play.playerOf address, (play.game.server.getClient address).bind Client.user, squad with
  | some player, some _, some squad =>
    ((play.setSquad player squad nouns).setGameState address .preDungeon).2
  | _, _, _ => play

/-- The beam sends the client of the player's slot to the vote. -/
def beamOut (play : Play Address) (player : PlayerPtr) : Play Address :=
  match (play.game.server.indexOf player).bind play.game.server.getClientById with
  | none => play
  | some (address, _) => (play.setGameState address .chainVoting).2

def sendGameStart (play : Play Address) (address : Address) : Play Address :=
  if play.stateOf address ≠ .preDungeon then play
  else (play.setGameState address .dungeon).2

/-- The reply that ends a status message leaves nothing marked in the player. -/
def onPlayerStatusUpdate (play : Play Address) (address : Address) (status : Nat) : Play Address :=
  match play.playerOf address with
  | none => play
  | some player =>
    let play :=
      if status = 0x08 then play.sendGameStart address
      else if status = 0x20 then play.beamOut player
      else play
    { play with
      game := { play.game with
        server := play.game.server.updatePlayer player fun record =>
          record.setStatus.resetUpdateBits } }

def onCrystalDragMessage (play : Play Address) (address : Address) (moveType : Nat)
    (catalyst : Option Marks) : Play Address :=
  match play.playerOf address with
  | none => play
  | some player =>
    match (play.loadout player).getDeployedCharacterObject, catalyst with
    | some _, some marks => if moveType = 0 then play.dropLoot [marks] false else play
    | _, _ => play

def onDebugPing (play : Play Address) (address : Address) (loads : Bool) (spawned : List Marks) :
    Except NullDeref (Play Address) :=
  match play.playerOf address with
  | none => .ok play
  | some player =>
    if play.stateOf address = .dungeon then do
      let play ← play.withGame (play.game.onDebugPing address loads spawned
        (play.loadout player).characters.reduceOption)
      pure (play.swapCharacter player 1)
    else .ok play

def onMessage (play : Play Address) (address : Address) :
    Message → Except NullDeref (Play Address)
  | .helloPlayerRequest blazeId =>
    .ok { play with
      game := { play.game with
        server := play.game.server.onHelloPlayerRequest address blazeId } }
  | .playerStatusUpdate status => .ok (play.onPlayerStatusUpdate address status)
  | .actionCommandMsgs object command => play.onActionCommandMsgs address object command
  | .chainVote _ => .ok play
  | .prepareGameStart squad nouns => .ok (play.prepareGameStart address squad nouns)
  | .crystalDragMessage moveType catalyst => .ok (play.onCrystalDragMessage address moveType catalyst)
  | .lootDropMessage => .ok play
  | .debugPing loads spawned => play.onDebugPing address loads spawned

/-- A queued task takes the first client, whoever that is, and does nothing without its player. -/
def clientTask (play : Play Address) (task : ClientTask) : Except NullDeref (Play Address) :=
  match play.game.server.clients.toList.head? with
  | none => .error .client
  | some (_, client) =>
    match client.player with
    | none => .ok play
    | some player =>
      match task with
      | .labsPlayerUpdate =>
        .ok { play with
          game := { play.game with
            server := play.game.server.updatePlayer player Player.resetUpdateBits } }
      | .objectCreate drops =>
        match (play.loadout player).getCharacterObject 0,
          (play.loadout player).getDeployedCharacterObject with
        | some _, some _ => .ok (play.dropLoot drops true)
        | _, _ => .ok play
      | .objectUpdate =>
        match (play.loadout player).getCharacterObject 0 with
        | none => .ok play
        | some object => play.withGame (play.game.objectUpdateTask object)
      | .directorState =>
        match (play.loadout player).getCharacterObject 0 with
        | none => .error .object
        | some _ => .ok play
      | .reloadLevel | .physicsChanged | .serverEvent | .modifierCreated | .debugPing | .other =>
        .ok play

/-- What happens to the game server. -/
inductive Input (Address : Type) where
  | connect (address : Address)
  | disconnect (address : Address)
  | login (mail : String) (id : Int)
  | logout (mail : String)
  | message (address : Address) (message : Message)
  | clientTask (task : ClientTask)
  | tick (object : ObjectPtr)
  | deleteMarked
  | change (object : ObjectPtr) (marks : Marks)

/-- A message counts only if its sender is connected. -/
def step (play : Play Address) : Input Address → Except NullDeref (Play Address)
  | .connect address =>
    .ok (({ play with
      game := { play.game with server := play.game.server.addClient address } } :
        Play Address).setGameState address .spaceship).2
  | .disconnect address =>
    (({ play with states := play.states.erase address } : Play Address).withGame
      (play.game.step (.server (.disconnect address))))
  | .login mail id => play.withGame (play.game.step (.server (.login mail id)))
  | .logout mail => play.withGame (play.game.step (.server (.logout mail)))
  | .message address message =>
    match play.game.server.getClient address with
    | none => .ok play
    | some _ => play.onMessage address message
  | .clientTask task => play.clientTask task
  | .tick object => play.withGame (play.game.tickObject object)
  | .deleteMarked => .ok { play with game := play.game.deleteMarked }
  | .change object marks =>
    .ok { play with
      game := play.game.updateObject object fun record => record.mark marks.1 marks.2 }

end Play
end Recap.RakNet
