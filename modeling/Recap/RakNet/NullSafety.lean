import Recap.RakNet.Handlers
import Recap.Game.InstanceLaws

/-! When the handlers and the queued tasks follow no null client, player or squad. -/

namespace Recap.RakNet.Play

open Recap.Game Recap.Runs

variable {Address : Type} [LinearOrder Address]

/-- Every connected client has said hello and has a player. -/
def EveryonePlays (server : Server Address) : Prop :=
  ∀ (address : Address) (client : Client), server.clients[address]? = some client →
    client.player.isSome

/-- Nothing null was followed on the way to a result, but for a character that is not there. -/
def Clean (result : Except NullDeref (Play Address)) : Prop :=
  ∀ followed, result = .error followed → followed = .object

/-- What holds in every state: clients sit in their slots, and characters are real objects. -/
structure Ready (play : Play Address) : Prop where
  wellFormed : play.game.server.WellFormed
  seated : play.game.server.Seated
  dressed : ∀ player object, some object ∈ (play.loadout player).characters →
    object < play.game.objects.length

/-! ### When the instance's updates are defined -/

theorem grows_createObjectByScript {game next : Instance Address} {marks : Marks}
    (sent : game.createObjectByScript marks.1 marks.2 = some next) : game.Grows next :=
  (game.grows_createObject marks.1 marks.2).trans (Instance.grows_sendObjectUpdate sent)

/-- Where nobody changes clothes, the server and the number of objects decide. -/
theorem Ready.of_loadouts {play next : Play Address} (ready : play.Ready)
    (loadouts : next.loadouts = play.loadouts) (wellFormed : next.game.server.WellFormed)
    (seated : next.game.server.Seated)
    (length : play.game.objects.length ≤ next.game.objects.length) : next.Ready where
  wellFormed := wellFormed
  seated := seated
  dressed := by
    intro player object member
    rw [loadout, loadouts] at member
    exact lt_of_lt_of_le (ready.dressed player object member) length

/-- An operation of the instance on its objects. -/
theorem Ready.grow {play : Play Address} (ready : play.Ready) {game : Instance Address}
    (grows : play.game.Grows game) : ({ play with game := game } : Play Address).Ready :=
  ready.of_loadouts rfl (grows.server ▸ ready.wellFormed) (grows.server ▸ ready.seated) grows.length

/-- What a server step does to the play. -/
theorem Ready.server {play : Play Address} (ready : play.Ready) (input : Server.Input Address) :
    ({ play with
      game := { play.game with server := play.game.server.step input } } : Play Address).Ready :=
  ready.of_loadouts rfl (ready.wellFormed.step input) (ready.seated.step ready.wellFormed input)
    le_rfl

/-- Where a client is in the game does not matter here. -/
theorem Ready.setGameState {play : Play Address} (ready : play.Ready) (address : Address)
    (newState : GameState) : (play.setGameState address newState).2.Ready := by
  unfold Play.setGameState
  simp only
  split
  · exact ready.of_loadouts rfl ready.wellFormed ready.seated le_rfl
  · exact ready

/-- A change of clothes needs real objects to wear. -/
theorem Ready.wear {play : Play Address} (ready : play.Ready) (player : PlayerPtr)
    {worn : Loadout} (real : ∀ object, some object ∈ worn.characters →
      object < play.game.objects.length) :
    ({ play with loadouts := play.loadouts.insert player worn } : Play Address).Ready where
  -- Only one player wears something else, and all of it is real.
  wellFormed := ready.wellFormed
  seated := ready.seated
  dressed := by
    intro other object member
    simp only [loadout, OrderedMap.lookup_insert] at member
    split at member
    · exact real object member
    · exact ready.dressed other object member

theorem Ready.swapCharacter {play : Play Address} (ready : play.Ready) (player : PlayerPtr)
    (index : Nat) : (play.swapCharacter player index).Ready :=
  ready.wear player fun object member => ready.dressed player object member

theorem withGame_eq_ok {play next : Play Address} {game : Option (Instance Address)}
    (moved : play.withGame game = .ok next) :
    ∃ last, game = some last ∧ next = { play with game := last } := by
  cases game with
  | none => cases moved
  | some last =>
    cases moved
    exact ⟨last, rfl, rfl⟩

theorem Ready.dropLoot {play : Play Address} (ready : play.Ready) (drops : List Marks)
    (sends : Bool) : (play.dropLoot drops sends).Ready := by
  unfold Play.dropLoot
  apply ready.grow
  generalize play.game = game
  induction drops generalizing game with
  | nil => exact Instance.Grows.refl game
  | cons marks rest ih => exact (Instance.drop_grows game marks.1 marks.2 sends).1.trans (ih _)

/-- Marking an object for deletion makes no object and takes none away. -/
theorem Ready.markForDeletion {play : Play Address} (ready : play.Ready) (object : ObjectPtr) :
    ({ play with
      game := play.game.updateObject object fun record =>
        { record with markedForDeletion := true } } : Play Address).Ready :=
  ready.grow (play.game.grows_updateObject object (fun _ => rfl) fun _ => rfl)

theorem Ready.pickupCatalyst {play next : Play Address} (ready : play.Ready) {player : PlayerPtr}
    {object : ObjectPtr} {openSlot hasLootData : Bool}
    (moved : play.pickupCatalyst player object openSlot hasLootData = .ok next) : next.Ready := by
  -- What is picked up is marked for deletion, and nothing else is changed.
  unfold Play.pickupCatalyst at moved
  have marked := ready.markForDeletion object
  split at moved
  · simp only at moved
    split at moved
    · split at moved
      · cases moved
      · cases moved
        exact marked
    · cases moved
      exact marked
  · cases moved
    exact ready

theorem Ready.interactWithObject {play next : Play Address} (ready : play.Ready)
    {player : PlayerPtr} {target : ObjectPtr} {found : Interaction}
    (moved : play.interactWithObject player target found = .ok next) : next.Ready := by
  -- The three kinds of objects mark, pick up or drop, all of which keep the play ready.
  unfold Play.interactWithObject at moved
  split at moved
  · cases moved
    exact ready
  · split at moved
    · cases moved
      exact ready
    · cases found with
      | loot =>
        cases moved
        exact ready.markForDeletion target
      | crystal openSlot hasLootData => exact ready.pickupCatalyst moved
      | other orb catalyst =>
        simp only at moved
        split at moved
        · cases moved
          exact ready
        · cases moved
          exact ready.dropLoot _ _

theorem Ready.runScript {play next : Play Address} (ready : play.Ready) {script : List Marks}
    (moved : play.runScript script = .ok next) : next.Ready := by
  obtain ⟨last, ran, rfl⟩ := withGame_eq_ok moved
  exact ready.grow (Instance.grows_foldlM (fun _ _ _ => grows_createObjectByScript) ran)

/-- A sequence of two succeeds when both parts do. -/
theorem bind_eq_ok {First Second : Type} {first : Except NullDeref First}
    {second : First → Except NullDeref Second} {value : Second}
    (ran : (first >>= second) = .ok value) :
    ∃ middle, first = .ok middle ∧ second middle = .ok value := by
  cases first with
  | error followed => cases ran
  | ok middle => exact ⟨middle, rfl, ran⟩

theorem Ready.onActionCommandMsgs {play next : Play Address} (ready : play.Ready)
    {address : Address} {object : ObjectPtr} {command : ActionCommand}
    (moved : play.onActionCommandMsgs address object command = .ok next) : next.Ready := by
  -- Commands for nobody or for no object are ignored, and most others change nothing here.
  unfold Play.onActionCommandMsgs at moved
  cases whose : play.playerOf address with
  | none =>
    simp only [whose] at moved
    cases moved
    exact ready
  | some player =>
    cases found : play.get object with
    | none =>
      simp only [whose, found] at moved
      cases moved
      exact ready
    | some record =>
      simp only [whose, found] at moved
      cases command with
      | movement | stopMovement | cancel | dance | taunt | unknown =>
        cases moved
        exact ready
      | switchCharacter index =>
        cases moved
        exact ready.swapCharacter player index
      | useCharacterAbility index script =>
        obtain ⟨-, -, ran⟩ := bind_eq_ok moved
        exact ready.runScript ran
      | useSquadAbility index target found =>
        obtain ⟨-, -, ran⟩ := bind_eq_ok moved
        exact ready.interactWithObject ran
      | catalystPickup target found => exact ready.interactWithObject moved
      | useInteractableObject target found => exact ready.interactWithObject moved

/-- The characters that are made from the nouns are the objects that are made for them. -/
theorem setSquad_fold (nouns : List (Option Marks)) (worn : List (Option ObjectPtr))
    (game : Instance Address) (real : ∀ object, some object ∈ worn → object < game.objects.length) :
    let made := nouns.foldl (fun (characters, game) marks =>
      match marks with
      | none => (characters ++ [none], game)
      | some marks =>
        let (object, game) := Instance.createObject game marks.1 marks.2
        (characters ++ [some object], game)) (worn, game)
    game.Grows made.2 ∧ ∀ object, some object ∈ made.1 → object < made.2.objects.length := by
  induction nouns generalizing worn game with
  | nil => exact ⟨Instance.Grows.refl game, real⟩
  | cons marks rest ih =>
    cases marks with
    | none =>
      refine ih (worn ++ [none]) game fun object member => ?_
      rcases List.mem_append.mp member with before | added
      · exact real object before
      · simp at added
    | some marks =>
      have makes := game.grows_createObject marks.1 marks.2
      have length : (game.createObject marks.1 marks.2).2.objects.length =
          game.objects.length + 1 := by
        simp [Instance.createObject]
      obtain ⟨grows, kept⟩ := ih (worn ++ [some game.objects.length])
        (game.createObject marks.1 marks.2).2 (by
          intro object member
          rw [length]
          rcases List.mem_append.mp member with before | added
          · exact Nat.lt_succ_of_lt (real object before)
          · -- The new object comes last.
            simp only [List.mem_singleton, Option.some.injEq] at added
            rw [added]
            exact Nat.lt_succ_self _)
      exact ⟨makes.trans grows, kept⟩

theorem Ready.setSquad {play : Play Address} (ready : play.Ready) (player : PlayerPtr)
    (squad : Squad) (nouns : List (Option Marks)) : (play.setSquad player squad nouns).Ready := by
  obtain ⟨grows, real⟩ := setSquad_fold nouns [] play.game (fun _ member => by cases member)
  exact (ready.grow grows).wear player real

theorem Ready.prepareGameStart {play : Play Address} (ready : play.Ready) (address : Address)
    (squad : Option Squad) (nouns : List (Option Marks)) :
    (play.prepareGameStart address squad nouns).Ready := by
  unfold Play.prepareGameStart
  split
  · exact (ready.setSquad _ _ nouns).setGameState address .preDungeon
  · exact ready

/-- A change of a player's marks leaves its owner and its slot. -/
theorem Ready.updatePlayer {play : Play Address} (ready : play.Ready) (player : PlayerPtr)
    {change : Player → Player} (user : ∀ record, (change record).user = record.user)
    (index : ∀ record, (change record).playerIndex = record.playerIndex) :
    ({ play with
      game := { play.game with
        server := play.game.server.updatePlayer player change } } : Play Address).Ready := by
  refine ready.of_loadouts rfl ?_ ?_ le_rfl
  · exact ready.wellFormed.of_owners rfl rfl (Server.map_updatePlayer user _ player)
  · exact ready.seated.of_indices rfl (Server.map_updatePlayer index _ player)

theorem Ready.sendGameStart {play : Play Address} (ready : play.Ready) (address : Address) :
    (play.sendGameStart address).Ready := by
  unfold Play.sendGameStart
  split
  · exact ready
  · exact ready.setGameState address .dungeon

theorem Ready.beamOut {play : Play Address} (ready : play.Ready) (player : PlayerPtr) :
    (play.beamOut player).Ready := by
  unfold Play.beamOut
  split
  · exact ready
  · exact ready.setGameState _ .chainVoting

theorem Ready.onPlayerStatusUpdate {play : Play Address} (ready : play.Ready) (address : Address)
    (status : Nat) : (play.onPlayerStatusUpdate address status).Ready := by
  -- Two of the states start or end the game for the player, and all of them are noted.
  unfold Play.onPlayerStatusUpdate
  split
  · exact ready
  · rename_i player _
    have moved : (if status = 0x08 then play.sendGameStart address
        else if status = 0x20 then play.beamOut player else play).Ready := by
      split_ifs
      · exact ready.sendGameStart address
      · exact ready.beamOut player
      · exact ready
    exact moved.updatePlayer player (fun _ => rfl) fun _ => rfl

theorem Ready.onCrystalDragMessage {play : Play Address} (ready : play.Ready) (address : Address)
    (moveType : Nat) (catalyst : Option Marks) :
    (play.onCrystalDragMessage address moveType catalyst).Ready := by
  -- Only a catalyst that is dragged out of its slot drops something.
  unfold Play.onCrystalDragMessage
  split
  · exact ready
  · split
    · split
      · exact ready.dropLoot _ _
      · exact ready
    · exact ready

theorem Ready.onDebugPing {play next : Play Address} (ready : play.Ready) {address : Address}
    {loads : Bool} {spawned : List Marks}
    (moved : play.onDebugPing address loads spawned = .ok next) : next.Ready := by
  unfold Play.onDebugPing at moved
  split at moved
  · cases moved
    exact ready
  · rename_i player _
    split at moved
    · obtain ⟨middle, pinged, last⟩ := bind_eq_ok moved
      cases last
      obtain ⟨game, started, rfl⟩ := withGame_eq_ok pinged
      refine Ready.swapCharacter ?_ player 1
      unfold Instance.onDebugPing at started
      split at started
      · cases started
        exact ready
      · obtain ⟨last, begun, rfl⟩ := Option.map_eq_some_iff.mp started
        -- The level is loaded first, and then objects are made and sent.
        have loaded : ({ play with game := play.game.loadLevel loads } : Play Address).Ready :=
          ready.of_loadouts rfl ready.wellFormed ready.seated le_rfl
        have grown := loaded.grow (Instance.grows_onPlayerStart begun)
        split
        · exact grown.of_loadouts rfl grown.wellFormed grown.seated le_rfl
        · exact grown
    · cases moved
      exact ready

theorem Ready.onMessage {play next : Play Address} (ready : play.Ready) {address : Address}
    {message : Message} (moved : play.onMessage address message = .ok next) : next.Ready := by
  -- Each message is left to its own handler.
  cases message with
  | helloPlayerRequest blazeId =>
    cases moved
    exact ready.server (.helloPlayer address blazeId)
  | playerStatusUpdate status =>
    cases moved
    exact ready.onPlayerStatusUpdate address status
  | actionCommandMsgs object command => exact ready.onActionCommandMsgs moved
  | chainVote value =>
    cases moved
    exact ready
  | prepareGameStart squad nouns =>
    cases moved
    exact ready.prepareGameStart address squad nouns
  | crystalDragMessage moveType catalyst =>
    cases moved
    exact ready.onCrystalDragMessage address moveType catalyst
  | lootDropMessage =>
    cases moved
    exact ready
  | debugPing loads spawned => exact ready.onDebugPing moved

theorem Ready.clientTask {play next : Play Address} (ready : play.Ready) {task : ClientTask}
    (moved : play.clientTask task = .ok next) : next.Ready := by
  -- A task goes to the first client, and only if that one has a player.
  unfold Play.clientTask at moved
  split at moved
  · cases moved
  · split at moved
    · cases moved
      exact ready
    · rename_i player _
      cases task with
      | labsPlayerUpdate =>
        cases moved
        exact ready.updatePlayer player (fun _ => rfl) fun _ => rfl
      | objectCreate drops =>
        simp only at moved
        split at moved
        · cases moved
          exact ready.dropLoot _ _
        · cases moved
          exact ready
      | objectUpdate =>
        simp only at moved
        split at moved
        · cases moved
          exact ready
        · obtain ⟨game, sent, rfl⟩ := withGame_eq_ok moved
          unfold Instance.objectUpdateTask at sent
          split at sent
          · cases sent
          · split at sent
            · cases sent
              exact ready.of_loadouts rfl ready.wellFormed ready.seated (by
                simp [Instance.updateObject])
            · cases sent
              exact ready
      | directorState =>
        simp only at moved
        split at moved
        · cases moved
        · cases moved
          exact ready
      | reloadLevel | physicsChanged | serverEvent | modifierCreated | debugPing | other =>
        cases moved
        exact ready

/-- Every step leads to a state in which clients are seated and characters are real. -/
theorem Ready.step {play next : Play Address} (ready : play.Ready) {input : Input Address}
    (moved : play.step input = .ok next) : next.Ready := by
  -- There is one case for each input, and most of them only reach the server.
  cases input with
  | connect address =>
    cases moved
    exact (ready.server (.connect address)).setGameState address .spaceship
  | disconnect address =>
    cases moved
    have left := ready.server (.disconnect address)
    exact left.of_loadouts rfl left.wellFormed left.seated le_rfl
  | login mail id =>
    cases moved
    exact ready.server (.login mail id)
  | logout mail =>
    cases moved
    exact ready.server (.logout mail)
  | message address message =>
    simp only [Play.step] at moved
    split at moved
    · cases moved
      exact ready
    · exact ready.onMessage moved
  | clientTask task => exact ready.clientTask moved
  | tick object =>
    obtain ⟨game, ticked, rfl⟩ := withGame_eq_ok moved
    unfold Instance.tickObject at ticked
    split at ticked
    · cases ticked
      exact ready
    · split at ticked
      · exact ready.grow (Instance.grows_sendObjectUpdate ticked)
      · cases ticked
        exact ready
  | deleteMarked =>
    cases moved
    exact ready.of_loadouts rfl ready.wellFormed ready.seated (by simp [Instance.deleteMarked])
  | change object marks =>
    cases moved
    exact ready.grow (play.game.grows_updateObject object (fun _ => rfl) fun _ => rfl)

/-! ### Which steps follow nothing null -/

/-- The game server as a machine, which stops where a null pointer is followed. -/
def advance (play : Play Address) (input : Input Address) : Option (Play Address) :=
  (play.step input).toOption

end Recap.RakNet.Play
