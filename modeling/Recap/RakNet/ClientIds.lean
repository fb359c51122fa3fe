import Recap.RakNet.ServerLaws

/-! Which client an id designates, through connections, disconnections and hello messages. -/

namespace Recap.RakNet.Server

open Recap.Runs

variable {Address : Type} [LinearOrder Address]

/--
The id of a connected client designates that one client.

It finds the client among the clients, and the client's own player among the players.
-/
structure Designated (server : Server Address) : Prop where
  distinct : ∀ (address other : Address) (client client' : Client), server.clients[address]? = some client →
    server.clients[other]? = some client' → client.id = client'.id → address = other
  client : ∀ (address : Address) (client : Client), server.clients[address]? = some client →
    server.getClientById client.id = some (address, client)
  player : ∀ (address : Address) (client : Client), server.clients[address]? = some client →
    server.getPlayerByIndex client.id = client.player

/-- Nobody has the id, and no player of the instance sits in the slot. -/
def FreeSlot (server : Server Address) (id : UInt8) : Prop :=
  (∀ (address : Address) (client : Client), server.clients[address]? = some client → client.id ≠ id) ∧
    ∀ (user : Int) (player : PlayerPtr), server.players[user]? = some player → server.indexOf player ≠ some id

/--
The inputs that leave every id with its one client.

A new client needs the slot that the number of clients names to be free.
A hello needs that no lower account sits in the client's slot, and that the player of the account it
names is not the player of another client.
-/
def Addressable (server : Server Address) : Input Address → Prop
  | .connect address =>
    address ∈ server.clients ∨ server.FreeSlot (UInt8.ofNat server.clients.size)
  | .helloPlayer address blazeId =>
    ∀ (client : Client) (user : User), server.clients[address]? = some client →
      server.getUserById blazeId.toInt = some user →
      (∀ (lower : Int) (player : PlayerPtr), lower < user.id → server.players[lower]? = some player →
        server.indexOf player ≠ some client.id) ∧
      ∀ (other : Address) (client' : Client) (player : PlayerPtr), server.clients[other]? = some client' →
        client'.player = some player → server.players[user.id]? = some player → other = address
  | _ => True

/-! ### Finding a player by its slot -/

/-- The player in a slot is the one of the lowest account that sits there. -/
theorem getPlayerByIndex_eq_some_iff {server : Server Address} {index : UInt8} {player : PlayerPtr} :
    server.getPlayerByIndex index = some player ↔
      ∃ id : Int, server.players[id]? = some player ∧ server.indexOf player = some index ∧
        ∀ (lower : Int) (other : PlayerPtr), lower < id → server.players[lower]? = some other →
          server.indexOf other ≠ some index := by
  unfold getPlayerByIndex
  rw [Option.map_eq_some_iff]
  constructor
  · rintro ⟨⟨id, found⟩, first, rfl⟩
    rw [OrderedMap.first_eq_some_iff] at first
    simp only [decide_eq_true_eq] at first
    exact ⟨id, first⟩
  · rintro ⟨id, first⟩
    refine ⟨(id, player), ?_, rfl⟩
    rw [OrderedMap.first_eq_some_iff]
    simpa only [decide_eq_true_eq] using first

theorem getPlayerByIndex_eq_none_iff {server : Server Address} {index : UInt8} :
    server.getPlayerByIndex index = none ↔
      ∀ (id : Int) (player : PlayerPtr), server.players[id]? = some player → server.indexOf player ≠ some index := by
  unfold getPlayerByIndex
  rw [Option.map_eq_none_iff, OrderedMap.first_eq_none_iff]
  simp only [decide_eq_true_eq, ne_eq]

/-- Two servers with the same players in a slot find the same player there. -/
theorem getPlayerByIndex_congr {server server' : Server Address} {index : UInt8}
    (agree : ∀ (id : Int) (player : PlayerPtr),
      server.players[id]? = some player ∧ server.indexOf player = some index ↔
        server'.players[id]? = some player ∧ server'.indexOf player = some index) :
    server.getPlayerByIndex index = server'.getPlayerByIndex index := by
  unfold getPlayerByIndex
  rw [OrderedMap.first_congr]
  simpa only [decide_eq_true_eq] using agree

/-- Distinct ids are all that finding a client by its id needs. -/
theorem getClientById_of_distinct {server : Server Address}
    (distinct : ∀ (address other : Address) (client client' : Client), server.clients[address]? = some client →
      server.clients[other]? = some client' → client.id = client'.id → address = other)
    {address : Address} {client : Client} (present : server.clients[address]? = some client) :
    server.getClientById client.id = some (address, client) := by
  unfold getClientById
  rw [OrderedMap.first_eq_some_iff]
  refine ⟨present, by simp, ?_⟩
  -- An earlier client of the same id would be this very client.
  intro earlier other below found same
  have : address = earlier := distinct _ _ _ _ present found (by simpa using (of_decide_eq_true same).symm)
  exact absurd below (by rw [this]; exact lt_irrefl _)

/-! ### Connections -/

/-- A new client is designated, and leaves the others so, exactly when its slot was free. -/
theorem Designated.addClient {server : Server Address} (designated : server.Designated)
    {address : Address} :
    (server.addClient address).Designated ↔
      address ∈ server.clients ∨ server.FreeSlot (UInt8.ofNat server.clients.size) := by
  by_cases present : address ∈ server.clients
  · simpa only [addClient_of_mem present, present, true_or, iff_true] using designated
  rw [addClient_of_not_mem present]
  simp only [present, false_or]
  -- Every address but the new one still has the client it had.
  have elsewhere : ∀ (other : Address) (client : Client), server.clients[other]? = some client →
      address ≠ other := by
    rintro other client found rfl
    simp [Std.TreeMap.getElem?_eq_none present] at found
  have arrived : (server.clients.insert address server.arrival)[address]? = some server.arrival := by
    simp
  constructor
  · intro after
    constructor
    · intro other client found same
      have apart := elsewhere other client found
      have still : (server.clients.insert address server.arrival)[other]? = some client := by
        simp [apart, found]
      exact apart (after.distinct _ _ _ _ arrived still same.symm)
    · exact getPlayerByIndex_eq_none_iff.mp (after.player _ _ arrived)
  · rintro ⟨unused, empty⟩
    have distinct : ∀ (other another : Address) (client client' : Client),
        (server.clients.insert address server.arrival)[other]? = some client →
        (server.clients.insert address server.arrival)[another]? = some client' →
        client.id = client'.id → other = another := by
      intro other another client client' found found' same
      simp only [OrderedMap.lookup_insert] at found found'
      split at found <;> split at found'
      · rename_i here here'
        exact here.symm.trans here'
      · cases found
        exact absurd same.symm (unused _ _ found')
      · cases found'
        exact absurd same (unused _ _ found)
      · exact designated.distinct _ _ _ _ found found' same
    refine ⟨distinct, fun _ _ found => getClientById_of_distinct distinct found, ?_⟩
    intro other client found
    simp only [OrderedMap.lookup_insert] at found
    split at found
    · cases found
      exact getPlayerByIndex_eq_none_iff.mpr empty
    · exact designated.player other client found

/-- A client that leaves takes nothing from the others. -/
theorem Designated.removeClient {server : Server Address} (designated : server.Designated)
    (address : Address) : (server.removeClient address).Designated := by
  have kept : ∀ {other : Address} {client : Client},
      (server.removeClient address).clients[other]? = some client →
      server.clients[other]? = some client := by
    intro other client found
    simp only [Server.removeClient, OrderedMap.lookup_erase] at found
    split at found
    · cases found
    · exact found
  have distinct : ∀ (other another : Address) (client client' : Client),
      (server.removeClient address).clients[other]? = some client →
      (server.removeClient address).clients[another]? = some client' →
      client.id = client'.id → other = another :=
    fun _ _ _ _ found found' same => designated.distinct _ _ _ _ (kept found) (kept found') same
  exact ⟨distinct, fun _ _ found => getClientById_of_distinct distinct found,
    fun _ _ found => designated.player _ _ (kept found)⟩

/-! ### Hello messages -/

/-- Binding a client to a user keeps all ids designated under exactly the condition on hellos. -/
theorem Designated.setUser {server : Server Address} (wellFormed : server.WellFormed)
    (designated : server.Designated) {address : Address} {client : Client}
    (present : server.clients[address]? = some client) (user : User) :
    (server.setUser address client (some user)).Designated ↔
      (∀ (lower : Int) (player : PlayerPtr), lower < user.id → server.players[lower]? = some player →
        server.indexOf player ≠ some client.id) ∧
      ∀ (other : Address) (client' : Client) (player : PlayerPtr),
        server.clients[other]? = some client' → client'.player = some player →
        server.players[user.id]? = some player → other = address := by
  have slot := setUser_indexOf_new server address client user
  constructor
  · intro after
    constructor
    · -- The client's own player is found, so nothing comes before it.
      intro lower player below found same
      have mine := after.player address
        { client with user := some user, player := some server.allocated.length } (by simp)
      obtain ⟨id, filed, -, first⟩ := getPlayerByIndex_eq_some_iff.mp mine
      have here : id = user.id := by
        simp only [setUser_player] at filed
        split at filed
        · rename_i same
          exact same.symm
        · exact absurd (wellFormed.player_lt filed) (lt_irrefl _)
      subst here
      refine first lower player below (by simp [below.ne', found]) ?_
      rw [setUser_indexOf (wellFormed.player_lt found)]
      exact same
    · -- Another client's player that is taken away is not found any more.
      intro other client' player found holds taken
      by_contra apart
      have theirs := after.player other client' (by simp [Ne.symm apart, found])
      rw [holds] at theirs
      obtain ⟨id, filed, -, -⟩ := getPlayerByIndex_eq_some_iff.mp theirs
      simp only [setUser_player] at filed
      split at filed
      · cases filed
        exact absurd (wellFormed.player_lt taken) (lt_irrefl _)
      · rename_i elsewhere
        exact elsewhere (wellFormed.player_unique taken filed)
  · rintro ⟨first, owned⟩
    have distinct : ∀ (other another : Address) (client' client'' : Client),
        (server.setUser address client (some user)).clients[other]? = some client' →
        (server.setUser address client (some user)).clients[another]? = some client'' →
        client'.id = client''.id → other = another := by
      intro other another client' client'' found found' same
      simp only [setUser_client] at found found'
      split at found <;> split at found'
      · rename_i here here'
        exact here.symm.trans here'
      · rename_i here elsewhere
        cases found
        exact here ▸ designated.distinct _ _ _ _ present found' same
      · rename_i elsewhere here
        cases found'
        exact here ▸ designated.distinct _ _ _ _ found present same
      · exact designated.distinct _ _ _ _ found found' same
    refine ⟨distinct, fun _ _ found => getClientById_of_distinct distinct found, ?_⟩
    intro other client' found
    simp only [setUser_client] at found
    split at found
    · -- The client of the hello is found under its new player.
      cases found
      refine getPlayerByIndex_eq_some_iff.mpr ⟨user.id, by simp, slot, ?_⟩
      intro lower player below filed
      simp only [setUser_player, below.ne', if_false] at filed
      rw [setUser_indexOf (wellFormed.player_lt filed)]
      exact first lower player below filed
    · -- The others are found as before: the new player is in a different slot.
      rename_i elsewhere
      have apart : client.id ≠ client'.id :=
        fun same => elsewhere (designated.distinct _ _ _ _ present found same)
      have before := designated.player other client' found
      cases held : client'.player with
      | none =>
        rw [held] at before
        refine getPlayerByIndex_eq_none_iff.mpr fun id player filed => ?_
        simp only [setUser_player] at filed
        split at filed
        · cases filed
          rw [slot]
          simpa using apart
        · rw [setUser_indexOf (wellFormed.player_lt filed)]
          exact getPlayerByIndex_eq_none_iff.mp before id player filed
      | some player =>
        rw [held] at before
        obtain ⟨id, filed, sits, least⟩ := getPlayerByIndex_eq_some_iff.mp before
        have other_user : user.id ≠ id := by
          rintro rfl
          exact elsewhere (owned other client' player found held filed).symm
        refine getPlayerByIndex_eq_some_iff.mpr ⟨id, by simp [other_user, filed], ?_, ?_⟩
        · rw [setUser_indexOf (wellFormed.player_lt filed)]
          exact sits
        · intro lower another below filed'
          simp only [setUser_player] at filed'
          split at filed'
          · cases filed'
            rw [slot]
            simpa using apart
          · rw [setUser_indexOf (wellFormed.player_lt filed')]
            exact least lower another below filed'

/-- The catalysts leave every id with the client it designates. -/
theorem setCatalysts_designated (server : Server Address) (player : PlayerPtr) :
    (server.setCatalysts player).Designated ↔ server.Designated := by
  obtain ⟨clients, players, -, indices, -⟩ := server.setCatalysts_frame player
  have slots : ∀ other, (server.setCatalysts player).indexOf other = server.indexOf other := by
    intro other
    simp only [indexOf, ← List.getElem?_map, indices]
  have found : ∀ index,
      (server.setCatalysts player).getPlayerByIndex index = server.getPlayerByIndex index := by
    intro index
    apply getPlayerByIndex_congr
    simp only [players, slots, implies_true]
  constructor
  · rintro ⟨distinct, client, slot⟩
    simp only [clients, found, getClientById] at distinct client slot
    exact ⟨distinct, client, slot⟩
  · rintro ⟨distinct, client, slot⟩
    refine ⟨?_, ?_, ?_⟩ <;> simp only [clients, found, getClientById]
    exacts [distinct, client, slot]

/-- A hello leaves every id designated exactly when it meets the condition on hellos. -/
theorem Designated.helloPlayer {server : Server Address} (wellFormed : server.WellFormed)
    (designated : server.Designated) (address : Address) (blazeId : BitVec 64) :
    (server.onHelloPlayerRequest address blazeId).Designated ↔
      server.Addressable (.helloPlayer address blazeId) := by
  unfold onHelloPlayerRequest getClient
  simp only [Addressable]
  cases present : server.clients[address]? with
  | none => simpa using designated
  | some client =>
    cases known : server.getUserById blazeId.toInt with
    | none =>
      -- An unknown account binds nothing, but an earlier player is given its catalysts again.
      simp only [reduceCtorEq, false_implies, implies_true, iff_true]
      split
      · exact designated
      · exact (setCatalysts_designated _ _).mpr designated
    | some user =>
      simp only [setUser_client, if_true, Option.bind_some, Option.some.injEq]
      rw [setCatalysts_designated, designated.setUser wellFormed present user]
      constructor
      · rintro condition _ _ rfl rfl
        exact condition
      · exact fun condition => condition client user rfl rfl

/-! ### Runs -/

/-- A step leaves every id designated exactly when its input is of the kind that does. -/
theorem Designated.step {server : Server Address} (wellFormed : server.WellFormed)
    (designated : server.Designated) (input : Input Address) :
    (server.step input).Designated ↔ server.Addressable input := by
  cases input with
  | connect address => exact designated.addClient
  | disconnect address => exact iff_of_true (designated.removeClient address) trivial
  | helloPlayer address blazeId => exact designated.helloPlayer wellFormed address blazeId
  | login mail id =>
    exact iff_of_true ⟨designated.distinct, designated.client, designated.player⟩ trivial
  | logout mail =>
    exact iff_of_true ⟨designated.distinct, designated.client, designated.player⟩ trivial

/--
Ids designate their clients throughout a run exactly when every connection finds its slot free and
no hello hides or takes away the player of another.
-/
theorem designated_iff_addressable (inputs : List (Input Address)) :
    (∀ front, front <+: inputs → (final advance (initial : Server Address) front).Designated) ↔
      Along advance Addressable (initial : Server Address) inputs := by
  symm
  have kept : ∀ (server : Server Address) (input : Input Address) (next : Server Address),
      server.WellFormed → server.Designated → server.advance input = some next →
      next.WellFormed := by
    rintro server input next wellFormed - taken
    cases taken
    exact wellFormed.step input
  refine Along.iff_final kept (fun _ _ refused => by cases refused) ?_ inputs wellFormed_initial ?_
  · intro server input next wellFormed designated taken
    cases taken
    exact designated.step wellFormed input
  · -- Nobody is connected at first.
    refine ⟨?_, ?_, ?_⟩ <;> simp [initial]

/-- The second of two clients gets company under its id when the first leaves and a third comes. -/
theorem not_designated :
    ¬ ∀ inputs : List (Input ℕ), (final advance (initial : Server ℕ) inputs).Designated := by
  intro always
  have ended := always [.connect 10, .connect 11, .disconnect 10, .connect 12]
  -- Both clients that are left have the id 1.
  have same : (11 : ℕ) = 12 := ended.distinct 11 12 ⟨1, none, none⟩ ⟨1, none, none⟩ (by decide)
    (by decide) rfl
  exact absurd same (by decide)

end Recap.RakNet.Server
