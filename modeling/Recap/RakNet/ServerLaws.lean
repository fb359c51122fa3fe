import Recap.RakNet.Server
import Recap.Lib.Runs

/-! Laws of the server's operations, and the filing of the players that every run keeps. -/

namespace Recap.RakNet.Server

open Recap.Runs

variable {Address : Type} [LinearOrder Address]

/-- Every player of the instance exists and belongs to the user it is filed under. -/
structure WellFormed (server : Server Address) : Prop where
  owner : ∀ (id : Int) (player : PlayerPtr), server.players[id]? = some player →
    ∃ record : Player, server.allocated[player]? = some record ∧ record.user.id = id
  held : ∀ (address : Address) (client : Client) (player : PlayerPtr), server.clients[address]? = some client →
    client.player = some player → player < server.allocated.length

/-! ### The operations -/

/-- The client that a new connection is given. -/
def arrival (server : Server Address) : Client where
  id := UInt8.ofNat server.clients.size
  user := none
  player := none

theorem addClient_of_mem {server : Server Address} {address : Address}
    (present : address ∈ server.clients) : server.addClient address = server :=
  if_pos present

theorem addClient_of_not_mem {server : Server Address} {address : Address}
    (absent : address ∉ server.clients) :
    server.addClient address =
      { server with clients := server.clients.insert address server.arrival } :=
  if_neg absent

/-- The server after a client is bound to a user. -/
theorem setUser_eq (server : Server Address) (address : Address) (client : Client) (user : User) :
    server.setUser address client (some user) =
      { server with
        players := (server.players.erase user.id).insert user.id server.allocated.length
        allocated := server.allocated ++ [Player.new user client.id]
        clients := server.clients.insert address
          { client with user := some user, player := some server.allocated.length } } := by
  simp [setUser, removePlayer, addPlayer]

@[simp] theorem setUser_client (server : Server Address) (address other : Address) (client : Client)
    (user : User) :
    (server.setUser address client (some user)).clients[other]? =
      if address = other then
        some { client with user := some user, player := some server.allocated.length }
      else server.clients[other]? := by
  rw [setUser_eq]
  exact OrderedMap.lookup_insert _ _ _ _

@[simp] theorem setUser_player (server : Server Address) (address : Address) (client : Client)
    (user : User) (id : Int) :
    (server.setUser address client (some user)).players[id]? =
      if user.id = id then some server.allocated.length else server.players[id]? := by
  rw [setUser_eq]
  simp only [OrderedMap.lookup_insert, OrderedMap.lookup_erase]
  split <;> rfl

/-- The new player sits in the slot of its client. -/
theorem setUser_indexOf_new (server : Server Address) (address : Address) (client : Client)
    (user : User) :
    (server.setUser address client (some user)).indexOf server.allocated.length = some client.id := by
  rw [setUser_eq]
  simp [indexOf]

/-- The players made before keep their slots. -/
theorem setUser_indexOf {server : Server Address} {player : PlayerPtr}
    (exists_ : player < server.allocated.length) (address : Address) (client : Client) (user : User) :
    (server.setUser address client (some user)).indexOf player = server.indexOf player := by
  rw [setUser_eq]
  simp only [indexOf]
  rw [List.getElem?_append_left exists_]

theorem WellFormed.player_lt {server : Server Address} (wellFormed : server.WellFormed) {id : Int}
    {player : PlayerPtr} (found : server.players[id]? = some player) :
    player < server.allocated.length := by
  obtain ⟨record, present, -⟩ := wellFormed.owner id player found
  exact (List.getElem?_eq_some_iff.mp present).1

/-- A player of the instance is filed under one account only. -/
theorem WellFormed.player_unique {server : Server Address} (wellFormed : server.WellFormed)
    {id id' : Int} {player : PlayerPtr} (found : server.players[id]? = some player)
    (found' : server.players[id']? = some player) : id = id' := by
  obtain ⟨record, present, rfl⟩ := wellFormed.owner id player found
  obtain ⟨record', present', rfl⟩ := wellFormed.owner id' player found'
  rw [present] at present'
  cases present'
  rfl

/-- What a change keeps of every player is kept in the list of all players. -/
theorem map_updatePlayer {Part : Type} {part : Player → Part} {change : Player → Player}
    (keeps : ∀ player, part (change player) = part player) (server : Server Address)
    (player : PlayerPtr) :
    (server.updatePlayer player change).allocated.map part = server.allocated.map part := by
  apply List.ext_getElem?
  intro place
  simp only [updatePlayer, List.getElem?_map, List.getElem?_modify]
  cases server.allocated[place]? with
  | none => rfl
  | some record =>
    split
    · exact congrArg some (keeps record)
    · rfl

/-- The catalysts change no client, and nobody's place among the players. -/
theorem setCatalysts_frame (server : Server Address) (player : PlayerPtr) :
    (server.setCatalysts player).clients = server.clients ∧
      (server.setCatalysts player).players = server.players ∧
      (server.setCatalysts player).users = server.users ∧
      (server.setCatalysts player).allocated.map Player.playerIndex =
        server.allocated.map Player.playerIndex ∧
      (server.setCatalysts player).allocated.map Player.user = server.allocated.map Player.user := by
  unfold setCatalysts
  -- Every one of the eight catalysts marks one player and does no more.
  induction List.range 8 generalizing server with
  | nil => exact ⟨rfl, rfl, rfl, rfl, rfl⟩
  | cons slot rest ih =>
    obtain ⟨clients, players, users, indices, owners⟩ :=
      ih (server.updatePlayer player fun player => player.setCatalyst slot)
    exact ⟨clients, players, users,
      indices.trans (map_updatePlayer (fun player => player.setCatalyst_playerIndex slot) _ _),
      owners.trans (map_updatePlayer (fun player => player.setCatalyst_user slot) _ _)⟩

/-- The catalysts of a greeting are given to a player, so the rest is what the binding leaves. -/
theorem onHelloPlayerRequest_frame {server : Server Address} {sender : Address} {client : Client}
    (found : server.getClient sender = some client) (blazeId : BitVec 64) :
    let bound := server.setUser sender client (server.getUserById blazeId.toInt)
    (server.onHelloPlayerRequest sender blazeId).clients = bound.clients ∧
      (server.onHelloPlayerRequest sender blazeId).players = bound.players ∧
      (server.onHelloPlayerRequest sender blazeId).allocated.length = bound.allocated.length := by
  unfold onHelloPlayerRequest
  rw [found]
  dsimp only
  -- Without a player nothing is given.
  split
  · exact ⟨rfl, rfl, rfl⟩
  · obtain ⟨clients, players, -, indices, -⟩ := setCatalysts_frame
      (server.setUser sender client (server.getUserById blazeId.toInt)) ‹PlayerPtr›
    have length := congrArg List.length indices
    rw [List.length_map, List.length_map] at length
    exact ⟨clients, players, length⟩

/-! ### Runs -/

theorem wellFormed_initial : (initial : Server Address).WellFormed where
  owner := fun _ _ found => by simp [initial] at found
  held := fun _ _ _ found => by simp [initial] at found

theorem WellFormed.setUser {server : Server Address} (wellFormed : server.WellFormed)
    (address : Address) (client : Client) (user : User) :
    (server.setUser address client (some user)).WellFormed := by
  have longer : (server.setUser address client (some user)).allocated =
      server.allocated ++ [Player.new user client.id] := by
    rw [setUser_eq]
  constructor
  · intro id player found
    rw [longer]
    simp only [setUser_player] at found
    split at found
    · rename_i same
      cases found
      exact ⟨Player.new user client.id, by simp, same⟩
    · obtain ⟨record, present, owner⟩ := wellFormed.owner id player found
      exact ⟨record, by rw [List.getElem?_append_left (wellFormed.player_lt found), present], owner⟩
  · intro other client' player found holds
    rw [longer, List.length_append]
    simp only [setUser_client] at found
    split at found
    · cases found
      cases holds
      exact Nat.lt_succ_self _
    · exact Nat.lt_succ_of_lt (wellFormed.held other client' player found holds)

/-- The filing of the players depends on whose players they are and on nothing else in them. -/
theorem WellFormed.of_owners {server server' : Server Address} (wellFormed : server.WellFormed)
    (clients : server'.clients = server.clients) (players : server'.players = server.players)
    (owners : server'.allocated.map Player.user = server.allocated.map Player.user) :
    server'.WellFormed := by
  have length : server'.allocated.length = server.allocated.length := by
    simpa using congrArg List.length owners
  constructor
  · intro id other found
    rw [players] at found
    obtain ⟨record, present, owner⟩ := wellFormed.owner id other found
    -- The record may have other update bits now, but it is the record of the same user.
    have same : (server'.allocated.map Player.user)[other]? =
        (server.allocated.map Player.user)[other]? := by
      rw [owners]
    rw [List.getElem?_map, List.getElem?_map, present, Option.map_some,
      Option.map_eq_some_iff] at same
    obtain ⟨record', present', same⟩ := same
    exact ⟨record', present', by rw [same]; exact owner⟩
  · intro address client other found holds
    rw [clients] at found
    rw [length]
    exact wellFormed.held address client other found holds

theorem WellFormed.setCatalysts {server : Server Address} (wellFormed : server.WellFormed)
    (player : PlayerPtr) : (server.setCatalysts player).WellFormed := by
  obtain ⟨clients, players, -, -, owners⟩ := server.setCatalysts_frame player
  exact wellFormed.of_owners clients players owners

/-- No input breaks the filing of the players. -/
theorem WellFormed.step {server : Server Address} (wellFormed : server.WellFormed)
    (input : Input Address) : (server.step input).WellFormed := by
  cases input with
  | connect address =>
    by_cases present : address ∈ server.clients
    · simpa only [Server.step, addClient_of_mem present] using wellFormed
    · simp only [Server.step, addClient_of_not_mem present]
      refine ⟨wellFormed.owner, ?_⟩
      intro other client player found holds
      simp only [OrderedMap.lookup_insert] at found
      split at found
      · cases found
        cases holds
      · exact wellFormed.held other client player found holds
  | disconnect address =>
    refine ⟨wellFormed.owner, ?_⟩
    intro other client player found holds
    simp only [Server.step, removeClient, OrderedMap.lookup_erase] at found
    split at found
    · cases found
    · exact wellFormed.held other client player found holds
  | helloPlayer address blazeId =>
    simp only [Server.step, onHelloPlayerRequest]
    cases server.getClient address with
    | none => exact wellFormed
    | some client =>
      -- The binding comes first, whoever it is, and then the catalysts.
      have bound : (server.setUser address client
          (server.getUserById blazeId.toInt)).WellFormed := by
        cases server.getUserById blazeId.toInt with
        | none => exact wellFormed
        | some user => exact wellFormed.setUser address client user
      simp only
      split
      · exact bound
      · exact bound.setCatalysts _
  | login mail id => exact ⟨wellFormed.owner, wellFormed.held⟩
  | logout mail => exact ⟨wellFormed.owner, wellFormed.held⟩

/-- Every client's player sits in the slot of the client's id. -/
def Seated (server : Server Address) : Prop :=
  ∀ (address : Address) (client : Client) (player : PlayerPtr),
    server.clients[address]? = some client → client.player = some player →
    server.indexOf player = some client.id

theorem seated_initial : (initial : Server Address).Seated :=
  fun _ _ _ found => by simp [initial] at found

/-- A client of a slot is found by the id that its player has. -/
theorem getClientById_isSome {server : Server Address} (seated : server.Seated) {address : Address}
    {client : Client} {player : PlayerPtr} {index : UInt8}
    (present : server.clients[address]? = some client) (holds : client.player = some player)
    (sits : server.indexOf player = some index) : (server.getClientById index).isSome := by
  have same : client.id = index :=
    Option.some_inj.mp ((seated address client player present holds).symm.trans sits)
  rw [Option.isSome_iff_ne_none]
  intro missing
  refine OrderedMap.first_eq_none_iff.mp missing address client present ?_
  simpa using same

/-- A new player is made for the slot of its client, and the others stay where they are. -/
theorem Seated.setUser {server : Server Address} (wellFormed : server.WellFormed)
    (seated : server.Seated) (address : Address) (client : Client) (user : User) :
    (server.setUser address client (some user)).Seated := by
  intro other client' player found holds
  simp only [setUser_client] at found
  split at found
  · cases found
    cases holds
    exact setUser_indexOf_new server address client user
  · rw [setUser_indexOf (wellFormed.held other client' player found holds)]
    exact seated other client' player found holds

/-- Where the players sit depends on their slots and on nothing else in them. -/
theorem Seated.of_indices {server server' : Server Address} (seated : server.Seated)
    (clients : server'.clients = server.clients)
    (indices : server'.allocated.map Player.playerIndex =
      server.allocated.map Player.playerIndex) : server'.Seated := by
  intro address client other found holds
  rw [clients] at found
  have sits := seated address client other found holds
  simp only [indexOf, ← List.getElem?_map] at sits ⊢
  rw [indices]
  exact sits

theorem Seated.setCatalysts {server : Server Address} (seated : server.Seated) (player : PlayerPtr) :
    (server.setCatalysts player).Seated := by
  obtain ⟨clients, -, -, indices, -⟩ := server.setCatalysts_frame player
  exact seated.of_indices clients indices

/-- No input moves a client's player to another slot. -/
theorem Seated.step {server : Server Address} (wellFormed : server.WellFormed)
    (seated : server.Seated) (input : Input Address) : (server.step input).Seated := by
  -- Only a hello request gives a client a player.
  cases input with
  | connect address =>
    by_cases present : address ∈ server.clients
    · simpa only [Server.step, addClient_of_mem present] using seated
    · simp only [Server.step, addClient_of_not_mem present]
      intro other client player found holds
      simp only [OrderedMap.lookup_insert] at found
      split at found
      · cases found
        cases holds
      · exact seated other client player found holds
  | disconnect address =>
    intro other client player found holds
    simp only [Server.step, removeClient, OrderedMap.lookup_erase] at found
    split at found
    · cases found
    · exact seated other client player found holds
  | helloPlayer address blazeId =>
    simp only [Server.step, onHelloPlayerRequest]
    cases server.getClient address with
    | none => exact seated
    | some client =>
      have bound : (server.setUser address client
          (server.getUserById blazeId.toInt)).Seated := by
        cases server.getUserById blazeId.toInt with
        | none => exact seated
        | some user => exact seated.setUser wellFormed address client user
      simp only
      split
      · exact bound
      · exact bound.setCatalysts _
  | login mail id => exact seated
  | logout mail => exact seated

/-- The server as a machine, none of whose inputs is refused. -/
def advance (server : Server Address) (input : Input Address) : Option (Server Address) :=
  some (server.step input)

/-- Every run keeps the filing of the players. -/
theorem wellFormed_final (inputs : List (Input Address)) :
    (final advance (initial : Server Address) inputs).WellFormed := by
  refine Kept.final ?_ inputs wellFormed_initial
  intro server input next wellFormed taken
  cases taken
  exact wellFormed.step input

end Recap.RakNet.Server
