import Recap.RakNet.ServerLaws

/-! How a game client comes to be bound to a user. -/

namespace Recap.RakNet.Server

open Recap.Runs

variable {Address : Type} [LinearOrder Address]

/-- A client is bound to a user when it holds the user itself or a player of the user. -/
def BoundTo (server : Server Address) (address : Address) (user : User) : Prop :=
  ∃ client : Client, server.clients[address]? = some client ∧
    (client.user = some user ∨
      ∃ player, client.player = some player ∧ server.allocated[player]?.map Player.user = some user)

/--
A hello of the client named the user's account while the user was logged in.

The client has not disconnected since.
-/
def SaidHello (inputs : List (Input Address)) (address : Address) (user : User) : Prop :=
  ∃ front blazeId back, inputs = front ++ .helloPlayer address blazeId :: back ∧
    (final advance initial front).getUserById blazeId.toInt = some user ∧
    address ∈ (final advance initial front).clients ∧ .disconnect address ∉ back

/-- An input that is not a disconnection of the client leaves its hello the last word. -/
theorem SaidHello.concat {inputs : List (Input Address)} {address : Address} {user : User}
    (said : SaidHello inputs address user) {last : Input Address}
    (stays : last ≠ .disconnect address) : SaidHello (inputs ++ [last]) address user := by
  obtain ⟨front, blazeId, back, rfl, known, connected, kept⟩ := said
  refine ⟨front, blazeId, back ++ [last], by simp, known, connected, ?_⟩
  intro member
  rcases List.mem_append.mp member with before | here
  · exact kept before
  · exact stays (List.mem_singleton.mp here).symm

/-- The catalysts bind nobody. -/
theorem setCatalysts_boundTo (server : Server Address) (player : PlayerPtr) (address : Address)
    (user : User) : (server.setCatalysts player).BoundTo address user ↔ server.BoundTo address user := by
  obtain ⟨clients, -, -, -, owners⟩ := server.setCatalysts_frame player
  have same : ∀ other : PlayerPtr, (server.setCatalysts player).allocated[other]?.map Player.user =
      server.allocated[other]?.map Player.user := by
    intro other
    rw [← List.getElem?_map, ← List.getElem?_map, owners]
  simp only [BoundTo, clients, same]

/-- Binding a client to a user touches the binding of no other client. -/
theorem setUser_boundTo {server : Server Address} (wellFormed : server.WellFormed)
    {address other : Address} {client : Client} {named user : User}
    (bound : (server.setUser address client (some named)).BoundTo other user) :
    other = address ∧ user = named ∨ server.BoundTo other user := by
  obtain ⟨client', found, binding⟩ := bound
  have longer : (server.setUser address client (some named)).allocated =
      server.allocated ++ [Player.new named client.id] := by
    rw [setUser_eq]
  rw [longer] at binding
  simp only [setUser_client] at found
  split at found
  · rename_i here
    left
    cases found
    refine ⟨here.symm, ?_⟩
    rcases binding with same | ⟨player, holds, owner⟩
    · exact (Option.some_inj.mp same).symm
    · cases holds
      simpa using owner.symm
  · right
    refine ⟨client', found, binding.imp_right ?_⟩
    rintro ⟨player, holds, owner⟩
    refine ⟨player, holds, ?_⟩
    rwa [List.getElem?_append_left (wellFormed.held other client' player found holds)] at owner

/-- A step binds a client to a user only by a hello of that client which names the user. -/
theorem BoundTo.of_step {server : Server Address} (wellFormed : server.WellFormed)
    {input : Input Address} {address : Address} {user : User}
    (bound : (server.step input).BoundTo address user) :
    server.BoundTo address user ∧ input ≠ .disconnect address ∨
      ∃ blazeId, input = .helloPlayer address blazeId ∧
        server.getUserById blazeId.toInt = some user ∧ address ∈ server.clients := by
  cases input with
  | connect arriving =>
    left
    refine ⟨?_, by simp⟩
    by_cases present : arriving ∈ server.clients
    · simpa only [Server.step, addClient_of_mem present] using bound
    · simp only [Server.step, addClient_of_not_mem present] at bound
      obtain ⟨client, found, binding⟩ := bound
      simp only [OrderedMap.lookup_insert] at found
      split at found
      · -- A new client is bound to nobody.
        cases found
        simp [arrival] at binding
      · exact ⟨client, found, binding⟩
  | disconnect leaving =>
    obtain ⟨client, found, binding⟩ := bound
    simp only [Server.step, removeClient, OrderedMap.lookup_erase] at found
    split at found
    · cases found
    · rename_i apart
      exact Or.inl ⟨⟨client, found, binding⟩, by simpa using apart⟩
  | login mail id => exact Or.inl ⟨bound, by simp⟩
  | logout mail => exact Or.inl ⟨bound, by simp⟩
  | helloPlayer sender blazeId =>
    simp only [Server.step, onHelloPlayerRequest, getClient] at bound
    cases present : server.clients[sender]? with
    | none =>
      simp only [present] at bound
      exact Or.inl ⟨bound, by simp⟩
    | some client =>
      simp only [present] at bound
      -- The catalysts that follow change no binding.
      have set_ : (server.setUser sender client
          (server.getUserById blazeId.toInt)).BoundTo address user := by
        split at bound
        · exact bound
        · exact (setCatalysts_boundTo _ _ _ _).mp bound
      cases known : server.getUserById blazeId.toInt with
      | none =>
        rw [known] at set_
        exact Or.inl ⟨set_, by simp⟩
      | some named =>
        rw [known] at set_
        rcases setUser_boundTo wellFormed set_ with ⟨rfl, rfl⟩ | before
        · refine Or.inr ⟨blazeId, rfl, known, ?_⟩
          exact Std.TreeMap.mem_iff_isSome_getElem?.mpr (by simp [present])
        · exact Or.inl ⟨before, by simp⟩

/--
In every run a client is bound to a user only if it named the account of the user in a hello, while
the user was logged in, and has been connected ever since.
-/
theorem boundTo_saidHello (inputs : List (Input Address)) (address : Address) (user : User)
    (bound : (final advance initial inputs).BoundTo address user) :
    SaidHello inputs address user := by
  -- The last input either made the binding or left one that the run before it explains.
  induction inputs using List.reverseRecOn with
  | nil =>
    obtain ⟨client, found, -⟩ := bound
    simp [final, initial] at found
  | append_singleton inputs last ih =>
    have stepped : final advance initial (inputs ++ [last]) =
        (final advance (initial : Server Address) inputs).step last :=
      final_concat step initial inputs last
    rw [stepped] at bound
    rcases bound.of_step (wellFormed_final inputs) with ⟨before, stays⟩ | ⟨blazeId, rfl, known, here⟩
    · exact (ih before).concat stays
    · exact ⟨inputs, blazeId, [], rfl, known, here, by simp⟩

/-- A client at address 10 that names the account 5 is bound to the user who has it. -/
theorem boundTo_saidHello_login :
    SaidHello [.login "a" 5, .connect 10, .helloPlayer 10 5] 10 ⟨"a", 5⟩ :=
  boundTo_saidHello _ _ _ ⟨⟨0, some ⟨"a", 5⟩, some 0⟩, by decide, Or.inl rfl⟩

/-- After a run, no client can take over the user of another one by the id it puts in a hello. -/
def NoTakeover (inputs : List (Input Address)) : Prop :=
  ∀ address other user blazeId, address ≠ other →
    (final advance initial inputs).BoundTo other user →
    ¬ (final advance initial inputs).BoundTo address user →
    ¬ ((final advance initial inputs).step (.helloPlayer address blazeId)).BoundTo address user

/-- Of two clients bound to their own users, one takes over the user of the other by naming its id. -/
theorem not_noTakeover : ¬ ∀ inputs : List (Input ℕ), NoTakeover inputs := by
  intro safe
  have refused := safe [.login "a" 5, .login "b" 6, .connect 10, .connect 11, .helloPlayer 10 5,
    .helloPlayer 11 6] 10 11 ⟨"b", 6⟩ 6 (by decide)
  refine refused ⟨⟨1, some ⟨"b", 6⟩, some 1⟩, by decide, Or.inl rfl⟩ ?_
    ⟨⟨0, some ⟨"b", 6⟩, some 2⟩, by decide, Or.inl rfl⟩
  -- Before that hello the first client holds the first user and a player of the first user.
  rintro ⟨client, found, binding⟩
  have held : some client = some ⟨0, some ⟨"a", 5⟩, some 0⟩ := found.symm.trans (by decide)
  cases held
  rcases binding with same | ⟨player, holds, owner⟩
  · exact absurd same (by decide)
  · cases holds
    exact absurd owner (by decide)

end Recap.RakNet.Server
