import Recap.RakNet.NullSafety

/-! The game state that a client is told, next to the states that its machine has been in. -/

namespace Recap.RakNet

open Recap.Game Recap.Runs

/-- The game server, with what its clients are told and where they have been. -/
structure Reporting (Address : Type) [LinearOrder Address] where
  play : Play Address
  /-- The state in every client's `mGameStateData`, from the first time that it is written. -/
  reported : Std.TreeMap Address GameState
  /-- Every state that a client's `mGameState` has had since the client connected. -/
  reached : Address → List GameState

namespace Reporting

variable {Address : Type} [LinearOrder Address]

/-- The loop tells the clients their states after every update of the game. -/
inductive Input (Address : Type) where
  | play (input : Play.Input Address)
  | update

def initial : Reporting Address where
  play := Play.initial
  reported := {}
  reached := fun _ => []

/-- The preparation of a game start needs a player, a user and a squad. -/
def prepares (play : Play Address) (address : Address) (squad : Option Squad) : Bool :=
  (play.playerOf address).isSome ∧
    ((play.game.server.getClient address).bind Client.user).isSome ∧ squad.isSome

/-- What the handler of a message writes, which it does whether the machine follows or not. -/
def written (play next : Play Address) (address : Address) : Message → Option GameState
  | .helloPlayerRequest _ => if (next.playerOf address).isSome then some .spaceship else none
  | .playerStatusUpdate status =>
    if (play.playerOf address).isSome ∧ status = 0x08 then some .dungeon else none
  | .prepareGameStart squad _ => if prepares play address squad then some .preDungeon else none
  | .debugPing _ _ =>
    if (play.playerOf address).isSome ∧ play.stateOf address = .spaceship then some .chainVoting
    else none
  | _ => none

/-- The states that the clients are told after a step. -/
def write (s : Reporting Address) (next : Play Address) :
    Play.Input Address → Std.TreeMap Address GameState
  | .disconnect address => s.reported.erase address
  | .message address message =>
    match written s.play next address message with
    | none => s.reported
    | some state => s.reported.insert address state
  | _ => s.reported

/-- The states that the machines have been in after a step, none of which moves a machine twice. -/
def record (s : Reporting Address) (next : Play Address) (address : Address) : List GameState :=
  match next.states[address]? with
  | none => []
  | some state => state :: s.reached address

def step (s : Reporting Address) : Input Address → Option (Reporting Address)
  | .play input =>
    match s.play.step input with
    | .error _ => none
    | .ok next => some { play := next, reported := s.write next input, reached := s.record next }
  | .update => some s

/-- The machine that an input asks to move, and whether the check of its state lets it. -/
def transition (play : Play Address) : Play.Input Address → Option (Address × Bool)
  | .connect address => some (address, (play.setGameState address .spaceship).1)
  | .message address (.playerStatusUpdate status) =>
    match play.playerOf address with
    | none => none
    | some player =>
      if status = 0x08 then
        some (address, play.stateOf address = .preDungeon ∧ (play.setGameState address .dungeon).1)
      else if status = 0x20 then
        ((play.game.server.indexOf player).bind play.game.server.getClientById).map
          fun (other, _) => (other, (play.setGameState other .chainVoting).1)
      else none
  | .message address (.prepareGameStart squad _) =>
    if prepares play address squad then
      some (address, (play.setGameState address .preDungeon).1)
    else none
  | _ => none

/-- The clients are told states that their machines have been in. -/
def Consistent (s : Reporting Address) : Prop :=
  ∀ address state, s.reported[address]? = some state → state ∈ s.reached address

/--
A step tells nobody a state that the client's machine has not been in.

What is told has been written before, and a refused transition leaves it as it was.
-/
def Faithful (s : Reporting Address) (input : Input Address) : Prop :=
  ∀ next, s.step input = some next →
    next.Consistent ∧
      match input with
      | .play input => ∀ address, transition s.play input = some (address, false) →
        next.reported[address]? = s.reported[address]?
      | .update => ∀ address ∈ s.play.game.server.clients, address ∈ s.reported

/--
The inputs that a report survives.

Nothing is told while somebody has no player. The status that starts the game comes from a client
that waits for it, the game start is prepared by a client that may go there, and a ping from the
spaceship follows a vote. A client that has been told the state before may be told it again.
-/
def Allowed (s : Reporting Address) : Input Address → Prop
  | .play (.message address (.playerStatusUpdate status)) =>
    (s.play.playerOf address).isSome → status = 0x08 → s.play.stateOf address ≠ .preDungeon →
      s.reported[address]? = some .dungeon
  | .play (.message address (.prepareGameStart squad _)) =>
    prepares s.play address squad → (s.play.setGameState address .preDungeon).1 = false →
      s.reported[address]? = some .preDungeon
  | .play (.message address (.debugPing _ _)) =>
    (s.play.playerOf address).isSome → s.play.stateOf address = .spaceship →
      .chainVoting ∈ s.reached address
  | .update => Play.EveryonePlays s.play.game.server
  | _ => True

/-- What holds in every state: every client has a machine that has been to the spaceship. -/
structure Sound (s : Reporting Address) : Prop where
  machine : ∀ address, address ∈ s.play.game.server.clients ↔ address ∈ s.play.states
  landed : ∀ address, address ∈ s.play.states → .spaceship ∈ s.reached address
  told : ∀ address, address ∈ s.reported ↔ (s.play.playerOf address).isSome

end Reporting

/-! ### The inputs that leave clients and machines alone -/

namespace Play

variable {Address : Type} [LinearOrder Address] {play next : Play Address}

/-- Nobody comes or goes, and no machine moves. -/
structure Calm (play next : Play Address) : Prop where
  states : next.states = play.states
  clients : next.game.server.clients = play.game.server.clients

theorem Calm.refl (play : Play Address) : Calm play play :=
  ⟨rfl, rfl⟩

theorem Calm.trans {last : Play Address} (first : Calm play next) (second : Calm next last) :
    Calm play last :=
  ⟨second.states.trans first.states, second.clients.trans first.clients⟩

theorem Calm.playerOf (calm : Calm play next) (address : Address) :
    next.playerOf address = play.playerOf address := by
  -- A player is found through the clients alone.
  unfold Play.playerOf Server.getClient
  rw [calm.clients]

/-- The instance works on its objects without looking at the machines. -/
theorem Calm.grow {game : Instance Address} (grows : play.game.Grows game) :
    Calm play { play with game := game } :=
  ⟨rfl, congrArg Server.clients grows.server⟩

theorem Calm.updatePlayer (play : Play Address) (player : PlayerPtr) (change : Player → Player) :
    Calm play { play with
      game := { play.game with server := play.game.server.updatePlayer player change } } :=
  ⟨rfl, rfl⟩

theorem Calm.dropLoot (play : Play Address) (drops : List Marks) (sends : Bool) :
    Calm play (play.dropLoot drops sends) := by
  unfold Play.dropLoot
  apply Calm.grow
  -- Every drop makes an object, and the next one falls into what it left.
  generalize play.game = game
  induction drops generalizing game with
  | nil => exact Instance.Grows.refl game
  | cons marks rest ih => exact (Instance.drop_grows game marks.1 marks.2 sends).1.trans (ih _)

theorem Calm.pickupCatalyst {player : PlayerPtr} {object : ObjectPtr} {openSlot hasLootData : Bool}
    (moved : play.pickupCatalyst player object openSlot hasLootData = .ok next) :
    Calm play next := by
  -- The pickup fails only where it follows a loot pointer that is not there.
  unfold Play.pickupCatalyst at moved
  split at moved
  · simp only at moved
    -- Whether there is loot data or not, the object is all that is marked.
    split at moved
    · split at moved
      · cases moved
      · cases moved
        exact ⟨rfl, rfl⟩
    · cases moved
      exact ⟨rfl, rfl⟩
  · cases moved
    exact Calm.refl play

theorem Calm.interactWithObject {player : PlayerPtr} {target : ObjectPtr} {found : Interaction}
    (moved : play.interactWithObject player target found = .ok next) : Calm play next := by
  -- What the target is found to be decides what is done with it.
  unfold Play.interactWithObject at moved
  split at moved
  · cases moved
    exact Calm.refl play
  · split at moved
    · cases moved
      exact Calm.refl play
    · cases found with
      | loot =>
        cases moved
        exact ⟨rfl, rfl⟩
      | crystal openSlot hasLootData => exact Calm.pickupCatalyst moved
      | other orb catalyst =>
        simp only at moved
        split at moved
        · cases moved
          exact Calm.refl play
        · cases moved
          apply Calm.dropLoot

theorem Calm.runScript {script : List Marks} (moved : play.runScript script = .ok next) :
    Calm play next := by
  -- A script makes objects one after the other, and each of them leaves the server alone.
  obtain ⟨last, ran, rfl⟩ := withGame_eq_ok moved
  exact Calm.grow (Instance.grows_foldlM (fun _ _ _ => grows_createObjectByScript) ran)

theorem Calm.onActionCommandMsgs {address : Address} {object : ObjectPtr} {command : ActionCommand}
    (moved : play.onActionCommandMsgs address object command = .ok next) : Calm play next := by
  -- Without a player or an object the command is dropped, and each command is one branch.
  unfold Play.onActionCommandMsgs at moved
  cases whose : play.playerOf address with
  | none =>
    simp only [whose] at moved
    cases moved
    exact Calm.refl play
  | some player =>
    cases found : play.get object with
    | none =>
      simp only [whose, found] at moved
      cases moved
      exact Calm.refl play
    | some record =>
      simp only [whose, found] at moved
      cases command with
      | movement | stopMovement | cancel | dance | taunt | unknown | switchCharacter =>
        cases moved
        exact ⟨rfl, rfl⟩
      | useCharacterAbility index script =>
        obtain ⟨-, -, ran⟩ := bind_eq_ok moved
        exact Calm.runScript ran
      | useSquadAbility index target found =>
        -- The case of the pickup follows without a break.
        obtain ⟨-, -, ran⟩ := bind_eq_ok moved
        exact Calm.interactWithObject ran
      | catalystPickup target found => exact Calm.interactWithObject moved
      | useInteractableObject target found => exact Calm.interactWithObject moved

theorem Calm.onCrystalDragMessage (play : Play Address) (address : Address) (moveType : Nat)
    (catalyst : Option Marks) :
    Calm play (play.onCrystalDragMessage address moveType catalyst) := by
  -- Only a catalyst that is thrown out does anything to the instance.
  unfold Play.onCrystalDragMessage
  split
  · exact Calm.refl play
  · split
    · split
      · apply Calm.dropLoot
      · exact Calm.refl play
    · exact Calm.refl play

theorem Calm.onDebugPing {address : Address} {loads : Bool} {spawned : List Marks}
    (moved : play.onDebugPing address loads spawned = .ok next) : Calm play next := by
  -- The ping loads a level, starts the players, or does nothing, by the state of the machine.
  unfold Play.onDebugPing at moved
  split at moved
  · cases moved
    exact Calm.refl play
  · split at moved
    · obtain ⟨middle, pinged, last⟩ := bind_eq_ok moved
      cases last
      obtain ⟨game, started, rfl⟩ := withGame_eq_ok pinged
      unfold Instance.onDebugPing at started
      split at started
      · cases started
        exact ⟨rfl, rfl⟩
      · obtain ⟨last, begun, rfl⟩ := Option.map_eq_some_iff.mp started
        -- The level is loaded first, which the server does not notice.
        have server := (Instance.grows_onPlayerStart begun).server
        constructor
        · rfl
        · split <;> exact congrArg Server.clients server
    · cases moved
      exact Calm.refl play

theorem Calm.clientTask {task : ClientTask} (moved : play.clientTask task = .ok next) :
    Calm play next := by
  -- A task is run for a client that may have gone since, and changes at most its own player.
  unfold Play.clientTask at moved
  split at moved
  · cases moved
  · split at moved
    · cases moved
      exact Calm.refl play
    · cases task with
      | labsPlayerUpdate =>
        cases moved
        apply Calm.updatePlayer
      | objectCreate drops =>
        simp only at moved
        split at moved
        · cases moved
          apply Calm.dropLoot
        · cases moved
          exact Calm.refl play
      | objectUpdate =>
        simp only at moved
        split at moved
        · cases moved
          exact Calm.refl play
        · obtain ⟨game, sent, rfl⟩ := withGame_eq_ok moved
          unfold Instance.objectUpdateTask at sent
          split at sent
          · cases sent
          · split at sent
            · cases sent
              exact ⟨rfl, rfl⟩
            · cases sent
              exact ⟨rfl, rfl⟩
      | directorState =>
        simp only at moved
        split at moved
        · cases moved
        · cases moved
          exact Calm.refl play
      | reloadLevel | physicsChanged | serverEvent | modifierCreated | debugPing | other =>
        cases moved
        exact Calm.refl play

theorem Calm.tick {object : ObjectPtr} (moved : play.step (.tick object) = .ok next) :
    Calm play next := by
  -- An object that is ticked may send its update, which reads the server only.
  obtain ⟨game, ticked, rfl⟩ := withGame_eq_ok moved
  unfold Instance.tickObject at ticked
  split at ticked
  · cases ticked
    exact ⟨rfl, rfl⟩
  · split at ticked
    · exact Calm.grow (Instance.grows_sendObjectUpdate ticked)
    · cases ticked
      exact ⟨rfl, rfl⟩

/-- A machine moves where its check lets it, and stays where it is otherwise. -/
theorem setGameState_states (play : Play Address) (address : Address) (newState : GameState) :
    (play.setGameState address newState).2.states =
      if (play.setGameState address newState).1 then play.states.insert address newState
      else play.states := by
  -- The machine writes its state exactly where its check has let it through.
  unfold setGameState
  dsimp only
  split <;> rfl

theorem setGameState_game (play : Play Address) (address : Address) (newState : GameState) :
    (play.setGameState address newState).2.game = play.game := by
  -- Either way the instance is handed on as it was.
  unfold setGameState
  dsimp only
  split <;> rfl

/-- A greeting leaves everybody connected, and nobody loses a player by it. -/
theorem helloPlayer_clients (server : Server Address) (sender : Address) (blazeId : BitVec 64)
    (address : Address) :
    (address ∈ (server.onHelloPlayerRequest sender blazeId).clients ↔ address ∈ server.clients) ∧
      ((server.onHelloPlayerRequest sender blazeId).getClient address =
          server.getClient address ∨
        address = sender ∧
          (((server.onHelloPlayerRequest sender blazeId).getClient address).bind
            Client.player).isSome) := by
  -- Nothing is known of a client that is not there, and the frame of a greeting says the rest.
  cases found : server.getClient sender with
  | none =>
    unfold Server.onHelloPlayerRequest
    rw [found]
    exact ⟨Iff.rfl, Or.inl rfl⟩
  | some client =>
    have clients := (Server.onHelloPlayerRequest_frame found blazeId).1
    unfold Server.getClient at found ⊢
    rw [clients]
    cases server.getUserById blazeId.toInt with
    | none => exact ⟨Iff.rfl, Or.inl rfl⟩
    | some user =>
      have present : sender ∈ server.clients := by
        rw [Std.TreeMap.mem_iff_isSome_getElem?, found]
        rfl
      rw [Std.TreeMap.mem_iff_isSome_getElem?, Server.setUser_client]
      by_cases same : sender = address
      · subst same
        rw [if_pos rfl]
        exact ⟨iff_of_true rfl present, Or.inr ⟨rfl, rfl⟩⟩
      · rw [if_neg same, ← Std.TreeMap.mem_iff_isSome_getElem?]
        exact ⟨Iff.rfl, Or.inl rfl⟩

/-- A machine that is there stays there, wherever it moves. -/
theorem mem_setGameState {address : Address} (present : address ∈ play.states)
    (newState : GameState) (other : Address) :
    other ∈ (play.setGameState address newState).2.states ↔ other ∈ play.states := by
  -- A state is written over the one that was there, so no machine is added.
  rw [setGameState_states]
  split
  · rw [Std.TreeMap.mem_insert, compare_eq_iff_eq]
    exact or_iff_right_of_imp fun same => same ▸ present
  · exact Iff.rfl

/-- The player of a connected client is a player of a client. -/
theorem mem_of_playerOf {address : Address} (plays : (play.playerOf address).isSome) :
    address ∈ play.game.server.clients := by
  -- The client has been found at the address before its player is read.
  obtain ⟨player, found⟩ := Option.isSome_iff_exists.mp plays
  obtain ⟨client, present, -⟩ := Option.bind_eq_some_iff.mp found
  rw [Std.TreeMap.mem_iff_isSome_getElem?]
  exact Option.isSome_of_mem present

/-- A message of a client with a player reaches its handler. -/
theorem step_message {address : Address} (plays : (play.playerOf address).isSome)
    (message : Message) : play.step (.message address message) = play.onMessage address message := by
  -- The packet is read for a client that is connected, which one with a player is.
  have connected := mem_of_playerOf plays
  obtain ⟨client, present⟩ := Option.isSome_iff_exists.mp
    (Std.TreeMap.mem_iff_isSome_getElem?.mp connected)
  simp only [Play.step, Server.getClient, present]

/-- The clients and the machines of a play are the ones of another. -/
structure Settled (play next : Play Address) : Prop where
  clients : next.game.server.clients = play.game.server.clients
  machines : ∀ address, address ∈ next.states ↔ address ∈ play.states

theorem Calm.settled (calm : Calm play next) : Settled play next :=
  ⟨calm.clients, fun address => by rw [calm.states]⟩

theorem Settled.setGameState {address : Address} (present : address ∈ play.states)
    (newState : GameState) : Settled play (play.setGameState address newState).2 :=
  ⟨by rw [setGameState_game], mem_setGameState present newState⟩

/-- A status may move the machine of the client or the one of a client with the same id. -/
theorem Settled.onPlayerStatusUpdate (machine : ∀ address, address ∈ play.game.server.clients →
    address ∈ play.states) (address : Address) (status : Nat) :
    Settled play (play.onPlayerStatusUpdate address status) := by
  -- The status of the player is written last, and it is no part of clients or machines.
  unfold Play.onPlayerStatusUpdate
  cases whose : play.playerOf address with
  | none => exact (Calm.refl play).settled
  | some player =>
    have present : address ∈ play.states := by
      apply machine
      apply mem_of_playerOf
      rw [whose]
      rfl
    have moved : Settled play (if status = 0x08 then play.sendGameStart address
        else if status = 0x20 then play.beamOut player else play) := by
      split
      · unfold Play.sendGameStart
        split
        · exact (Calm.refl play).settled
        · exact Settled.setGameState present .dungeon
      · split
        · unfold Play.beamOut
          split
          · exact (Calm.refl play).settled
          · -- The client of the slot is connected, so it has a machine as well.
            rename_i other client found
            obtain ⟨index, -, first⟩ := Option.bind_eq_some_iff.mp found
            have listed := (OrderedMap.first_eq_some_iff.mp first).1
            apply Settled.setGameState
            apply machine
            rw [Std.TreeMap.mem_iff_isSome_getElem?, listed]
            rfl
        · exact (Calm.refl play).settled
    exact ⟨moved.clients, moved.machines⟩

theorem Calm.setSquad (play : Play Address) (player : PlayerPtr) (squad : Squad)
    (nouns : List (Option Marks)) : Calm play (play.setSquad player squad nouns) := by
  obtain ⟨grows, -⟩ := setSquad_fold nouns [] play.game (fun _ member => by cases member)
  exact ⟨rfl, congrArg Server.clients grows.server⟩

theorem Settled.prepareGameStart (machine : ∀ address, address ∈ play.game.server.clients →
    address ∈ play.states) (address : Address) (squad : Option Squad)
    (nouns : List (Option Marks)) : Settled play (play.prepareGameStart address squad nouns) := by
  -- The squad is set first, then the machine of the same client is asked to move.
  unfold Play.prepareGameStart
  split
  · rename_i player user squad whose holds
    have calm := Calm.setSquad play player squad nouns
    have present : address ∈ (play.setSquad player squad nouns).states := by
      rw [calm.states]
      apply machine
      apply mem_of_playerOf
      rw [whose]
      rfl
    have moved := Settled.setGameState present .preDungeon
    refine ⟨moved.clients.trans calm.clients, fun other => ?_⟩
    rw [moved.machines, calm.states]
  · exact (Calm.refl play).settled

end Play

namespace Reporting

variable {Address : Type} [LinearOrder Address]

/-! ### What a message does to those who are connected -/

/-- Nobody comes or goes with a message, and a state is written for a client that has a player. -/
structure Heard (play next : Play Address) (address : Address) (message : Message) : Prop where
  clients : ∀ other, other ∈ next.game.server.clients ↔ other ∈ play.game.server.clients
  machines : ∀ other, other ∈ next.states ↔ other ∈ play.states
  players : ∀ other, (next.playerOf other).isSome ↔
    (play.playerOf other).isSome ∨ other = address ∧ (written play next address message).isSome

/-- What is written is written for a client that has a player, if only since its greeting. -/
theorem playerOf_of_written {play next : Play Address} {address : Address} {message : Message}
    (told : (written play next address message).isSome) :
    (play.playerOf address).isSome ∨ (next.playerOf address).isSome := by
  -- Each handler writes under a guard that asks for the player.
  cases message with
  | helloPlayerRequest blazeId =>
    simp only [written] at told
    split at told
    · rename_i plays
      exact Or.inr plays
    · cases told
  | playerStatusUpdate status =>
    simp only [written] at told
    split at told
    · rename_i both
      exact Or.inl both.1
    · cases told
  | prepareGameStart squad nouns =>
    simp only [written] at told
    split at told
    · rename_i prepared
      exact Or.inl (of_decide_eq_true prepared).1
    · cases told
  | debugPing loads spawned =>
    simp only [written] at told
    split at told
    · rename_i both
      exact Or.inl both.1
    · cases told
  | actionCommandMsgs | chainVote | crystalDragMessage | lootDropMessage => cases told

/-- Where the clients stay as they are, the one that is written for has had its player before. -/
theorem Heard.of_settled {play next : Play Address} (settled : Play.Settled play next)
    (address : Address) (message : Message) : Heard play next address message where
  clients := fun other => by rw [settled.clients]
  machines := settled.machines
  players := by
    intro other
    have same : next.playerOf other = play.playerOf other := by
      unfold Play.playerOf Server.getClient
      rw [settled.clients]
    refine Iff.trans (by rw [same]) (or_iff_left_of_imp fun told => ?_).symm
    obtain ⟨rfl, told⟩ := told
    have either := playerOf_of_written told
    rwa [same, or_self] at either

theorem Heard.onMessage {play next : Play Address} {address : Address} {message : Message}
    (machine : ∀ other, other ∈ play.game.server.clients → other ∈ play.states)
    (moved : play.onMessage address message = .ok next) : Heard play next address message := by
  -- A greeting may give its sender a player, and no other message changes the clients.
  cases message with
  | helloPlayerRequest blazeId =>
    cases moved
    have greeted := Play.helloPlayer_clients play.game.server address blazeId
    refine ⟨fun other => (greeted other).1, fun other => Iff.rfl, fun other => ?_⟩
    simp only [written]
    rcases (greeted other).2 with same | ⟨rfl, plays⟩
    · -- Nothing has changed for this client, and what is written for the sender shows its player.
      unfold Play.playerOf
      dsimp only
      rw [same]
      refine (or_iff_left_of_imp fun told => ?_).symm
      obtain ⟨rfl, told⟩ := told
      split at told
      · rename_i plays
        rwa [same] at plays
      · cases told
    · refine iff_of_true plays (Or.inr ⟨rfl, ?_⟩)
      exact congrArg Option.isSome (if_pos plays)
  | playerStatusUpdate status =>
    cases moved
    exact Heard.of_settled (Play.Settled.onPlayerStatusUpdate machine address status) _ _
  | actionCommandMsgs object command =>
    exact Heard.of_settled (Play.Calm.onActionCommandMsgs moved).settled _ _
  | chainVote value =>
    cases moved
    exact Heard.of_settled (Play.Calm.refl play).settled _ _
  | prepareGameStart squad nouns =>
    cases moved
    exact Heard.of_settled (Play.Settled.prepareGameStart machine address squad nouns) _ _
  | crystalDragMessage moveType catalyst =>
    cases moved
    exact Heard.of_settled (Play.Calm.onCrystalDragMessage play address moveType catalyst).settled
      _ _
  | lootDropMessage =>
    cases moved
    exact Heard.of_settled (Play.Calm.refl play).settled _ _
  | debugPing loads spawned =>
    exact Heard.of_settled (Play.Calm.onDebugPing moved).settled _ _

/-! ### Every step -/

theorem sound_initial : (initial : Reporting Address).Sound where
  machine := fun address => by simp [initial, Play.initial, Instance.initial, Server.initial]
  landed := fun address present => by simp [initial, Play.initial] at present
  told := fun address => by
    simp [initial, Play.initial, Instance.initial, Server.initial, Play.playerOf, Server.getClient]

/-- What a machine has been in after a step is where it is then, or where it has been before. -/
theorem mem_record {s : Reporting Address} {next : Play Address} {address : Address}
    (present : address ∈ next.states) (state : GameState) :
    state ∈ s.record next address ↔
      next.states[address]? = some state ∨ state ∈ s.reached address := by
  -- A machine that is there puts its state in front of the ones it has been in.
  obtain ⟨current, found⟩ := Option.isSome_iff_exists.mp
    (Std.TreeMap.mem_iff_isSome_getElem?.mp present)
  unfold record
  rw [found]
  simp only [List.mem_cons, Option.some.injEq, eq_comm]

/-- A step leads to a play, and to what is written and recorded on the way. -/
theorem step_play {s next : Reporting Address} {input : Play.Input Address} :
    s.step (.play input) = some next ↔
      ∃ after, s.play.step input = .ok after ∧
        next = ⟨after, s.write after input, s.record after⟩ := by
  -- The step is refused exactly where the play reads through a null pointer.
  simp only [step]
  cases moved : s.play.step input with
  | error followed => simp
  | ok after => simp [eq_comm]

/-- Machines that stay have still been where they have been. -/
theorem Sound.landed_record {s : Reporting Address} (sound : s.Sound) {after : Play Address}
    {address : Address} (before : address ∈ s.play.states) (present : address ∈ after.states) :
    .spaceship ∈ s.record after address :=
  (mem_record present .spaceship).mpr (Or.inr (sound.landed address before))

/-- The ones that are told something after a message are the ones that have been, and its sender. -/
theorem mem_write_message (s : Reporting Address) (after : Play Address) (sender : Address)
    (message : Message) (address : Address) :
    address ∈ s.write after (.message sender message) ↔
      address ∈ s.reported ∨
        address = sender ∧ (written s.play after sender message).isSome := by
  simp only [write]
  cases written s.play after sender message with
  | none => simp
  | some state =>
    rw [Std.TreeMap.mem_insert, compare_eq_iff_eq]
    simp only [Option.isSome_some, and_true]
    exact ⟨fun either => either.symm.imp_right Eq.symm,
      fun either => either.symm.imp_left Eq.symm⟩

theorem Sound.heard {s : Reporting Address} (sound : s.Sound) {after : Play Address}
    {sender : Address} {message : Message} (heard : Heard s.play after sender message) :
    (⟨after, s.write after (.message sender message), s.record after⟩ : Reporting Address).Sound where
  machine := fun address => by rw [heard.clients, heard.machines, sound.machine]
  landed := fun address present => sound.landed_record ((heard.machines address).mp present) present
  told := fun address => by rw [mem_write_message, heard.players, sound.told]

/-- Where nobody comes or goes and nothing is written, nothing changes. -/
theorem Sound.calm {s : Reporting Address} (sound : s.Sound) {after : Play Address}
    (calm : Play.Calm s.play after) :
    (⟨after, s.reported, s.record after⟩ : Reporting Address).Sound where
  machine := fun address => by rw [calm.clients, calm.states, sound.machine]
  landed := by
    intro address present
    refine sound.landed_record ?_ present
    rwa [calm.states] at present
  told := fun address => by rw [calm.playerOf, sound.told]

/-- A new client starts in the spaceship, and one that is there already may stay where it is. -/
theorem Sound.connect {s : Reporting Address} (sound : s.Sound) {address : Address}
    {after : Play Address} (moved : s.play.step (.connect address) = .ok after) :
    (⟨after, s.reported, s.record after⟩ : Reporting Address).Sound := by
  -- The client is added before its machine is asked to move, both only if it is new.
  cases moved
  have mem_clients : ∀ other, other ∈ (s.play.game.server.addClient address).clients ↔
      other = address ∨ other ∈ s.play.game.server.clients := by
    intro other
    unfold Server.addClient
    split
    · rename_i present
      exact (or_iff_right_of_imp fun same => same ▸ present).symm
    · rw [Std.TreeMap.mem_insert, compare_eq_iff_eq, eq_comm]
  generalize joined_eq : ({ s.play with
      game := { s.play.game with server := s.play.game.server.addClient address } } :
        Play Address) = joined
  have states : joined.states = s.play.states := joined_eq ▸ rfl
  have clients : joined.game.server.clients = (s.play.game.server.addClient address).clients :=
    joined_eq ▸ rfl
  -- The machine of a client that is not there yet may go anywhere.
  have arrives : address ∉ s.play.states → (joined.setGameState address .spaceship).2.states =
      s.play.states.insert address .spaceship := by
    intro absent
    have nowhere : s.play.states[address]? = none := Std.TreeMap.getElem?_eq_none absent
    rw [Play.setGameState_states, if_pos (by simp [Play.setGameState, Play.stateOf, states, nowhere]),
      states]
  have mem_states : ∀ other, other ∈ (joined.setGameState address .spaceship).2.states ↔
      other = address ∨ other ∈ s.play.states := by
    intro other
    by_cases present : address ∈ s.play.states
    · rw [Play.mem_setGameState (states ▸ present), states]
      exact (or_iff_right_of_imp fun same => same ▸ present).symm
    · rw [arrives present, Std.TreeMap.mem_insert, compare_eq_iff_eq, eq_comm]
  constructor
  · intro other
    rw [mem_states, ← sound.machine, Play.setGameState_game, clients]
    exact mem_clients other
  · intro other present
    by_cases before : other ∈ s.play.states
    · exact sound.landed_record before present
    · obtain rfl : other = address := ((mem_states other).mp present).resolve_right before
      refine (mem_record present .spaceship).mpr (Or.inl ?_)
      rw [arrives before]
      simp
  · intro other
    rw [sound.told]
    unfold Play.playerOf Server.getClient
    rw [Play.setGameState_game, clients]
    unfold Server.addClient
    split
    · exact Iff.rfl
    · rename_i absent
      rw [OrderedMap.lookup_insert]
      split
      · rename_i same
        subst same
        rw [Std.TreeMap.getElem?_eq_none absent]
        exact Iff.rfl
      · exact Iff.rfl

theorem Sound.disconnect {s : Reporting Address} (sound : s.Sound) {address : Address}
    {after : Play Address} (moved : s.play.step (.disconnect address) = .ok after) :
    (⟨after, s.reported.erase address, s.record after⟩ : Reporting Address).Sound := by
  cases moved
  constructor
  · intro other
    show other ∈ s.play.game.server.clients.erase address ↔ other ∈ s.play.states.erase address
    rw [Std.TreeMap.mem_erase, Std.TreeMap.mem_erase, sound.machine]
  · intro other present
    exact sound.landed_record (Std.TreeMap.mem_erase.mp present).2 present
  · intro other
    show other ∈ s.reported.erase address ↔
      ((s.play.game.server.clients.erase address)[other]?.bind Client.player).isSome
    rw [Std.TreeMap.mem_erase, OrderedMap.lookup_erase, sound.told]
    by_cases same : address = other
    · simp [same]
    · rw [if_neg same]
      exact and_iff_right (by simpa using same)

theorem Sound.step {s next : Reporting Address} (sound : s.Sound) {input : Input Address}
    (taken : s.step input = some next) : next.Sound := by
  cases input with
  | update =>
    cases taken
    exact sound
  | play input =>
    obtain ⟨after, moved, rfl⟩ := step_play.mp taken
    cases input with
    | connect address => exact sound.connect moved
    | disconnect address => exact sound.disconnect moved
    | login mail id =>
      cases moved
      exact sound.calm ⟨rfl, rfl⟩
    | logout mail =>
      cases moved
      exact sound.calm ⟨rfl, rfl⟩
    | message sender message =>
      apply sound.heard
      simp only [Play.step] at moved
      split at moved
      · -- A message from nowhere is not looked at.
        cases moved
        exact Heard.of_settled (Play.Calm.refl s.play).settled _ _
      · exact Heard.onMessage (fun other => (sound.machine other).mp) moved
    | clientTask task => exact sound.calm (Play.Calm.clientTask moved)
    | tick object => exact sound.calm (Play.Calm.tick moved)
    | deleteMarked =>
      cases moved
      exact sound.calm ⟨rfl, rfl⟩
    | change object marks =>
      cases moved
      exact sound.calm ⟨rfl, rfl⟩

/-! ### Which steps tell the clients where their machines have been -/

/-- Whoever is told something has a machine. -/
theorem Sound.mem_states {s : Reporting Address} (sound : s.Sound) {address : Address}
    {state : GameState} (told : s.reported[address]? = some state) : address ∈ s.play.states := by
  rw [← sound.machine]
  apply Play.mem_of_playerOf
  rw [← sound.told, Std.TreeMap.mem_iff_isSome_getElem?, told]
  rfl

/-- What has been told before stays true, so only what is told anew matters. -/
theorem consistent_of_told {s : Reporting Address} (consistent : s.Consistent) {after : Play Address}
    {told : Std.TreeMap Address GameState}
    (sound : (⟨after, told, s.record after⟩ : Reporting Address).Sound)
    (before : ∀ address state, told[address]? = some state →
      s.reported[address]? = some state ∨ state ∈ s.record after address) :
    (⟨after, told, s.record after⟩ : Reporting Address).Consistent := by
  intro address state tells
  rcases before address state tells with old | new
  · exact (mem_record (sound.mem_states tells) state).mpr (Or.inr (consistent address state old))
  · exact new

/-- A step that writes nothing tells nobody anything new. -/
theorem faithful_of_unwritten {s : Reporting Address} (sound : s.Sound) (consistent : s.Consistent)
    {input : Play.Input Address}
    (same : ∀ after, s.play.step input = .ok after → s.write after input = s.reported) :
    s.Faithful (.play input) := by
  -- Everything that is told afterwards has been told before.
  intro next taken
  have sound' := sound.step taken
  obtain ⟨after, moved, rfl⟩ := step_play.mp taken
  have kept := same after moved
  constructor
  · refine consistent_of_told consistent sound' fun address state tells => Or.inl ?_
    rwa [kept] at tells
  · intro address _
    exact congrArg (fun told => told[address]?) kept

/-- Whoever leaves is not told anything. -/
theorem faithful_disconnect {s : Reporting Address} (sound : s.Sound) (consistent : s.Consistent)
    (address : Address) : s.Faithful (.play (.disconnect address)) := by
  -- The entry of the client goes with it, and the others stay.
  intro next taken
  have sound' := sound.step taken
  obtain ⟨after, -, rfl⟩ := step_play.mp taken
  constructor
  · refine consistent_of_told consistent sound' fun other state tells => Or.inl ?_
    simp only [write, OrderedMap.lookup_erase] at tells
    split at tells
    · cases tells
    · exact tells
  · exact fun other refused => by cases refused

/-- A step that writes a state has to lead there, and has to let the machine move. -/
theorem faithful_written_iff {s : Reporting Address} (sound : s.Sound) (consistent : s.Consistent)
    {sender : Address} {message : Message} {after : Play Address} {state : GameState}
    (moved : s.play.step (.message sender message) = .ok after)
    (tells : written s.play after sender message = some state) :
    s.Faithful (.play (.message sender message)) ↔
      state ∈ s.record after sender ∧
        (transition s.play (.message sender message) = some (sender, false) →
          s.reported[sender]? = some state) := by
  -- The insertion is the only change, so only the sender's entry has to be looked at.
  have taken : s.step (.play (.message sender message)) =
      some ⟨after, s.write after (.message sender message), s.record after⟩ :=
    step_play.mpr ⟨after, moved, rfl⟩
  have sound' := sound.step taken
  have writes : s.write after (.message sender message) = s.reported.insert sender state := by
    simp only [write, tells]
  constructor
  · intro faithful
    obtain ⟨told, kept⟩ := faithful _ taken
    refine ⟨told sender state (by simp [writes]), fun refused => ?_⟩
    have same := kept sender refused
    simpa [writes] using same.symm
  · intro both next taken'
    obtain rfl := Option.some_inj.mp (taken.symm.trans taken')
    constructor
    · refine consistent_of_told consistent sound' fun address other told => ?_
      rw [writes, OrderedMap.lookup_insert] at told
      split at told
      · rename_i same
        subst same
        obtain rfl := Option.some_inj.mp told
        exact Or.inr both.1
      · exact Or.inl told
    · intro address refused
      show (s.write after _)[address]? = _
      rw [writes, OrderedMap.lookup_insert]
      -- Only the sender is told something else than before.
      split
      · rename_i same
        subst same
        exact (both.2 refused).symm
      · rfl

/-- The game starts from the preparation only, and what is told is true if it has been before. -/
theorem faithful_status_iff {s : Reporting Address} (sound : s.Sound) (consistent : s.Consistent)
    (address : Address) (status : Nat) :
    s.Faithful (.play (.message address (.playerStatusUpdate status))) ↔
      s.Allowed (.play (.message address (.playerStatusUpdate status))) := by
  -- Only the status that starts the game, from a client with a player, is told to anybody.
  unfold Allowed
  by_cases starts : (s.play.playerOf address).isSome ∧ status = 0x08
  · obtain ⟨plays, rfl⟩ := starts
    obtain ⟨player, whose⟩ := Option.isSome_iff_exists.mp plays
    have connected := Play.mem_of_playerOf plays
    have moved : s.play.step (.message address (.playerStatusUpdate 0x08)) =
        .ok (s.play.onPlayerStatusUpdate address 0x08) := Play.step_message plays _
    rw [faithful_written_iff sound consistent moved (if_pos ⟨plays, rfl⟩)]
    have states : (s.play.onPlayerStatusUpdate address 0x08).states =
        (s.play.sendGameStart address).states := by
      simp only [Play.onPlayerStatusUpdate, whose, if_true]
    have inside : address ∈ (s.play.onPlayerStatusUpdate address 0x08).states := by
      rw [(Play.Settled.onPlayerStatusUpdate (fun other => (sound.machine other).mp)
        address 0x08).machines, ← sound.machine]
      exact connected
    rw [mem_record inside, states]
    simp only [transition, whose, if_true, Option.isSome_some, true_implies]
    by_cases waits : s.play.stateOf address = .preDungeon
    · -- From the preparation the machine may go into the dungeon.
      have lets : (s.play.setGameState address .dungeon).1 = true := by
        simp [Play.setGameState, waits, isValidStateChange]
      refine iff_of_true ⟨Or.inl ?_, fun refused => ?_⟩ fun elsewhere => absurd waits elsewhere
      · unfold Play.sendGameStart
        rw [if_neg (not_not.mpr waits), Play.setGameState_states, if_pos lets]
        simp
      · simp [waits, lets] at refused
    · constructor
      · exact fun both _ => both.2 (by simp [waits])
      · intro told
        have before := told waits
        exact ⟨Or.inr (consistent address .dungeon before), fun _ => before⟩
  · refine iff_of_true ?_ fun plays same => absurd ⟨plays, same⟩ starts
    refine faithful_of_unwritten sound consistent fun after _ => ?_
    simp only [write, written, if_neg starts]

/-- Whether a machine may move is up to the machines alone. -/
theorem setGameState_fst_congr {play other : Play Address} (states : other.states = play.states)
    (address : Address) (newState : GameState) :
    (other.setGameState address newState).1 = (play.setGameState address newState).1 := by
  -- The check reads the state of the machine and the table of changes.
  unfold Play.setGameState Play.stateOf
  rw [states]
  dsimp only
  split <;> rfl

/-- The preparation is told truly if the machine follows, or if it has been told before. -/
theorem faithful_prepare_iff {s : Reporting Address} (sound : s.Sound) (consistent : s.Consistent)
    (address : Address) (squad : Option Squad) (nouns : List (Option Marks)) :
    s.Faithful (.play (.message address (.prepareGameStart squad nouns))) ↔
      s.Allowed (.play (.message address (.prepareGameStart squad nouns))) := by
  -- Without a player, a user and a squad the handler returns before it writes.
  unfold Allowed
  by_cases prepared : prepares s.play address squad
  · obtain ⟨plays, logged, given⟩ := of_decide_eq_true prepared
    obtain ⟨player, whose⟩ := Option.isSome_iff_exists.mp plays
    obtain ⟨user, holds⟩ := Option.isSome_iff_exists.mp logged
    obtain ⟨creatures, rfl⟩ := Option.isSome_iff_exists.mp given
    have connected := Play.mem_of_playerOf plays
    have moved : s.play.step (.message address (.prepareGameStart (some creatures) nouns)) =
        .ok (s.play.prepareGameStart address (some creatures) nouns) := Play.step_message plays _
    rw [faithful_written_iff sound consistent moved (if_pos prepared)]
    have inside : address ∈ (s.play.prepareGameStart address (some creatures) nouns).states := by
      rw [(Play.Settled.prepareGameStart (fun other => (sound.machine other).mp) address
        (some creatures) nouns).machines, ← sound.machine]
      exact connected
    have prepares_eq : s.play.prepareGameStart address (some creatures) nouns =
        ((s.play.setSquad player creatures nouns).setGameState address .preDungeon).2 := by
      unfold Play.prepareGameStart
      simp only [whose, holds]
    -- The squad is set before the machine moves, which it does not notice.
    have lets := setGameState_fst_congr (Play.Calm.setSquad s.play player creatures nouns).states
      address .preDungeon
    rw [mem_record inside, prepares_eq, Play.setGameState_states, lets]
    simp only [transition, prepared, if_true, true_implies]
    cases allowed : (s.play.setGameState address .preDungeon).1 with
    | true =>
      refine iff_of_true ⟨Or.inl ?_, fun refused => ?_⟩ fun refused => by cases refused
      · simp
      · simp at refused
    | false =>
      constructor
      · exact fun both _ => both.2 rfl
      · intro told
        have before := told rfl
        exact ⟨Or.inr (consistent address .preDungeon before), fun _ => before⟩
  · refine iff_of_true ?_ fun does => absurd does prepared
    refine faithful_of_unwritten sound consistent fun after _ => ?_
    simp only [write, written, if_neg prepared]

/-- A ping from the spaceship tells of a vote, to which the machine does not go. -/
theorem faithful_debugPing_iff {s : Reporting Address} (sound : s.Sound) (consistent : s.Consistent)
    (address : Address) (loads : Bool) (spawned : List Marks) :
    s.Faithful (.play (.message address (.debugPing loads spawned))) ↔
      s.Allowed (.play (.message address (.debugPing loads spawned))) := by
  -- From another state than the spaceship the ping writes no state.
  unfold Allowed
  by_cases votes : (s.play.playerOf address).isSome ∧ s.play.stateOf address = .spaceship
  · obtain ⟨plays, lands⟩ := votes
    obtain ⟨player, whose⟩ := Option.isSome_iff_exists.mp plays
    have connected := Play.mem_of_playerOf plays
    have moved : s.play.step (.message address (.debugPing loads spawned)) = .ok s.play := by
      rw [Play.step_message plays]
      simp [Play.onMessage, Play.onDebugPing, whose, lands]
    rw [faithful_written_iff sound consistent moved (if_pos ⟨plays, lands⟩)]
    have inside : address ∈ s.play.states := (sound.machine address).mp connected
    rw [mem_record inside]
    simp only [plays, lands, true_implies, transition, reduceCtorEq, false_implies, and_true]
    refine or_iff_right fun stays => ?_
    -- The machine is in the spaceship, and nowhere else.
    unfold Play.stateOf at lands
    rw [stays] at lands
    cases lands
  · refine iff_of_true ?_ fun plays lands => absurd ⟨plays, lands⟩ votes
    refine faithful_of_unwritten sound consistent fun after _ => ?_
    simp only [write, written, if_neg votes]

/-- A greeting tells of the spaceship, where every machine has been. -/
theorem faithful_helloPlayer {s : Reporting Address} (sound : s.Sound) (consistent : s.Consistent)
    (address : Address) (blazeId : BitVec 64) :
    s.Faithful (.play (.message address (.helloPlayerRequest blazeId))) := by
  -- What is written is the spaceship, and a greeting asks no machine to move.
  intro next taken
  have sound' := sound.step taken
  obtain ⟨after, moved, rfl⟩ := step_play.mp taken
  by_cases greeted : (after.playerOf address).isSome
  · have tells : written s.play after address (.helloPlayerRequest blazeId) = some .spaceship :=
      if_pos greeted
    refine (faithful_written_iff sound consistent moved tells).mpr ⟨?_, fun refused => ?_⟩ _ taken
    · apply sound'.landed
      rw [← sound'.machine]
      exact Play.mem_of_playerOf greeted
    · cases refused
  · refine faithful_of_unwritten sound consistent (fun after' moved' => ?_) _ taken
    obtain rfl := Except.ok.inj (moved.symm.trans moved')
    simp only [write, written, if_neg greeted]

theorem faithful_iff {s : Reporting Address} (sound : s.Sound) (consistent : s.Consistent)
    (input : Input Address) : s.Faithful input ↔ s.Allowed input := by
  -- Three messages may tell too much, and the update may tell too little.
  cases input with
  | update =>
    -- What is sent has been written exactly for those who have a player.
    constructor
    · intro faithful address client present
      have told := (faithful s rfl).2 address (by
        rw [Std.TreeMap.mem_iff_isSome_getElem?, present]
        rfl)
      rw [sound.told] at told
      unfold Play.playerOf Server.getClient at told
      rwa [present] at told
    · intro everyone next taken
      cases taken
      refine ⟨consistent, fun address connected => ?_⟩
      obtain ⟨client, present⟩ := Option.isSome_iff_exists.mp
        (Std.TreeMap.mem_iff_isSome_getElem?.mp connected)
      rw [sound.told]
      unfold Play.playerOf Server.getClient
      rw [present]
      exact everyone address client present
  | play input =>
    have quiet : ∀ other : Play.Input Address, (∀ after, s.write after other = s.reported) →
        s.Faithful (.play other) :=
      fun _ same => faithful_of_unwritten sound consistent fun after _ => same after
    cases input with
    | message address message =>
      cases message with
      | helloPlayerRequest blazeId =>
        exact iff_of_true (faithful_helloPlayer sound consistent address blazeId) trivial
      | playerStatusUpdate status => exact faithful_status_iff sound consistent address status
      | prepareGameStart squad nouns =>
        exact faithful_prepare_iff sound consistent address squad nouns
      | debugPing loads spawned =>
        exact faithful_debugPing_iff sound consistent address loads spawned
      | actionCommandMsgs | chainVote | crystalDragMessage | lootDropMessage =>
        exact iff_of_true (quiet _ fun _ => rfl) trivial
    | disconnect address =>
      exact iff_of_true (faithful_disconnect sound consistent address) trivial
    | connect | login | logout | clientTask | tick | deleteMarked | change =>
      exact iff_of_true (quiet _ fun _ => rfl) trivial

/-! ### Runs -/

/--
The clients are told states that their machines have been in, and a refused transition tells them
nothing new, in exactly the runs whose inputs are all allowed.
-/
theorem faithful_iff_allowed (inputs : List (Input Address)) :
    Along step Faithful initial inputs ↔ Along step Allowed initial inputs := by
  -- A step that is faithful hands on that nobody is told wrong, which the next one needs.
  have kept : ∀ (s : Reporting Address) (input : Input Address) (next : Reporting Address),
      s.Sound ∧ s.Consistent → s.Faithful input → s.step input = some next →
        next.Sound ∧ next.Consistent := by
    intro s input next holds faithful taken
    exact ⟨holds.1.step taken, (faithful next taken).1⟩
  apply Along.congr kept fun s input holds => faithful_iff holds.1 holds.2 input
  refine ⟨sound_initial, fun address state told => ?_⟩
  simp [initial] at told

/-- A client says hello and asks at once to start the game, which it is told has started. -/
theorem not_faithful : ¬ ∀ inputs : List (Input Nat), Along step Faithful initial inputs := by
  -- The fourth input is the first one that tells a state.
  intro always
  have along := always [.play (.connect 0), .play (.login "mail" 7),
    .play (.message 0 (.helloPlayerRequest 7)), .play (.message 0 (.playerStatusUpdate 8))]
  have starts := (((along.2 _ rfl).2 _ rfl).2 _ rfl).1
  -- The machine has been in the spaceship only.
  have told := (starts _ rfl).1 0 .dungeon (by decide)
  exact absurd told (by decide)

end Reporting

end Recap.RakNet
