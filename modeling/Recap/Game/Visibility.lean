import Recap.Game.InstanceLaws

/-! Which clients have been told of which objects, for every order of joins, creations and ticks. -/

namespace Recap.Game.Instance

open Recap.RakNet Recap.Runs

variable {Address : Type} [LinearOrder Address]

/--
Every client that has finished joining was sent the creation of every active object.

No update of the object went to it before that.
-/
def Visible (game : Instance Address) : Prop :=
  ∀ address ∈ game.joined, ∀ (object : ObjectPtr) (record : GameObject),
    game.objects[object]? = some record → record.active →
    Announced address object game.history ∧ UpdatesFollow address object game.history

/--
The inputs after which every client that has joined still knows every active object.

A client that finishes joining needs to have been there when the active objects were announced, and
the object manager alone makes no object while a client has joined.
-/
def InTime (game : Instance Address) : Input Address → Prop
  | .debugPing address loads spawned characters =>
    ((game.server.getClient address).bind Client.player).isSome → (game.levelLoaded || loads) →
      (game.onDebugPing address loads spawned characters).isSome → game.InStep address
  | .create _ _ => game.joined = []
  | _ => True

/-- What holds of the instance in every state, whoever has seen what. -/
structure Sound (game : Instance Address) : Prop where
  wellFormed : game.server.WellFormed
  seated : game.server.Seated
  recorded : game.Recorded
  connected : ∀ address ∈ game.joined, address ∈ game.server.clients
  started : game.joined ≠ [] → game.gameStarted
  loaded : game.gameStarted = game.levelLoaded

/-! ### Joining -/

/-- All is visible when everybody who has joined is in step and nothing waits to be announced. -/
theorem visible_iff {game : Instance Address} (recorded : game.Recorded) :
    game.Visible ↔
      (∀ address ∈ game.joined, game.InStep address) ∧ (game.joined ≠ [] → game.CreatedBut []) := by
  constructor
  · intro visible
    refine ⟨fun address member object record found live => ?_, fun some_ object record found live => ?_⟩
    · obtain ⟨known, follow⟩ := visible address member object record found live
      exact ⟨fun _ => known, follow⟩
    · -- What somebody was sent the creation of is marked as announced.
      obtain ⟨address, member⟩ := List.exists_mem_of_ne_nil _ some_
      obtain ⟨known, -⟩ := visible address member object record found live
      obtain ⟨other, present, marked⟩ := recorded.announced address object known
      cases Option.some_inj.mp (present.symm.trans found)
      exact Or.inl marked
  · rintro ⟨inStep, created⟩ address member object record found live
    obtain ⟨known, follow⟩ := inStep address member object record found live
    rcases created (List.ne_nil_of_mem member) object record found live with marked | waiting
    · exact ⟨known marked, follow⟩
    · cases waiting

/-- Nobody has joined before the game has started. -/
theorem Sound.joined_nil {game : Instance Address} (sound : game.Sound)
    (waiting : ¬ game.gameStarted) : game.joined = [] := by
  by_contra some_
  exact waiting (sound.started some_)

/-- An operation on objects keeps everything that holds in every state. -/
theorem Sound.grow {game next : Instance Address} (sound : game.Sound) (grows : game.Grows next) :
    next.Sound where
  wellFormed := grows.server ▸ sound.wellFormed
  seated := grows.server ▸ sound.seated
  recorded := grows.recorded sound.recorded
  connected := by
    rw [grows.joined, grows.server]
    exact sound.connected
  started := by
    rw [grows.joined, grows.gameStarted]
    exact sound.started
  loaded := by
    rw [grows.gameStarted, grows.levelLoaded]
    exact sound.loaded

/-- An operation that leaves nothing unannounced keeps all visible. -/
theorem Visible.grow {game next : Instance Address} (visible : game.Visible) (sound : game.Sound)
    (grows : game.Grows next)
    (created : game.gameStarted → game.CreatedBut [] → next.CreatedBut []) : next.Visible := by
  obtain ⟨inStep, before⟩ := (visible_iff sound.recorded).mp visible
  refine (visible_iff (grows.recorded sound.recorded)).mpr ⟨?_, ?_⟩
  · intro address member
    rw [grows.joined] at member
    exact grows.inStep sound.recorded address (sound.connected address member)
      (inStep address member)
  · intro some_
    rw [grows.joined] at some_
    exact created (sound.started some_) (before some_)

/-- After a start of a player in a game that has a level nothing waits to be announced. -/
theorem createdBut_onPlayerStart {game last : Instance Address} {index : UInt8} {loads : Bool}
    {spawned : List (Bool × Finset UpdateFlag)} {characters : List ObjectPtr}
    (loaded : game.levelLoaded || loads) (found : (game.server.getClientById index).isSome)
    (started : game.onPlayerStart index loads spawned characters = some last) :
    last.CreatedBut [] := by
  have running : (game.loadLevel loads).gameStarted := loaded
  have spawns := (game.loadLevel loads).grows_spawn spawned
  have still : ((game.loadLevel loads).spawn spawned).gameStarted := by
    rw [spawns.gameStarted]
    exact running
  have known : (((game.loadLevel loads).spawn spawned).server.getClientById index).isSome := by
    rw [spawns.server]
    exact found
  simp only [onPlayerStart, running, if_true, known] at started
  refine createdBut_sendCharacters ?_ (createdBut_createAll still) started
  rw [((game.loadLevel loads).spawn spawned).grows_createAll.gameStarted]
  exact still

/-- Loading a level changes no object and nothing that was sent. -/
theorem sound_loadLevel {game : Instance Address} (sound : game.Sound) (loads : Bool) :
    (game.loadLevel loads).Sound where
  wellFormed := sound.wellFormed
  seated := sound.seated
  recorded := ⟨sound.recorded.announced, sound.recorded.updated⟩
  connected := sound.connected
  started := by
    intro some_
    have running : game.levelLoaded := sound.loaded ▸ sound.started some_
    simp [loadLevel, running]
  loaded := rfl

/-- The index of the player of a client that is connected. -/
theorem index_eq_some_iff {game : Instance Address} {address : Address} {index : UInt8} :
    ((game.server.getClient address).bind Client.player).bind game.server.indexOf = some index ↔
      ∃ client player, game.server.clients[address]? = some client ∧
        client.player = some player ∧ game.server.indexOf player = some index := by
  unfold Server.getClient
  cases game.server.clients[address]? with
  | none => simp
  | some client => simp [Option.bind_eq_some_iff]

/-- A ping leaves what holds in every state, and all is visible if the one who joins is in step. -/
theorem debugPing_visible {game next : Instance Address} (sound : game.Sound)
    (visible : game.Visible) {address : Address} {loads : Bool}
    {spawned : List (Bool × Finset UpdateFlag)} {characters : List ObjectPtr}
    (taken : game.onDebugPing address loads spawned characters = some next) :
    next.Sound ∧ (next.Visible ↔ game.InTime (.debugPing address loads spawned characters)) := by
  have goes : (game.onDebugPing address loads spawned characters).isSome := by
    rw [taken]
    rfl
  simp only [InTime, goes, true_implies]
  unfold onDebugPing at taken
  cases sits : ((game.server.getClient address).bind Client.player).bind
      game.server.indexOf with
  | none =>
    -- A client without a player joins nothing.
    simp only [sits] at taken
    cases taken
    refine ⟨sound, iff_of_true visible ?_⟩
    intro plays
    obtain ⟨player, holds⟩ := Option.isSome_iff_exists.mp plays
    obtain ⟨client, present, holds'⟩ := Option.bind_eq_some_iff.mp holds
    have index := sound.seated address client player present holds'
    rw [holds, Option.bind_some, index] at sits
    cases sits
  | some index =>
    obtain ⟨client, player, present, holds, slot⟩ := index_eq_some_iff.mp sits
    have plays : ((game.server.getClient address).bind Client.player).isSome := by
      simp [Server.getClient, present, holds]
    have here : address ∈ game.server.clients :=
      Std.TreeMap.mem_iff_isSome_getElem?.mpr (by simp [present])
    simp only [sits, Option.map_eq_some_iff] at taken
    obtain ⟨last, started, rfl⟩ := taken
    simp only [plays, true_implies]
    have grows := grows_onPlayerStart started
    by_cases loaded : game.levelLoaded || loads
    · have created := createdBut_onPlayerStart loaded
        (Server.getClientById_isSome sound.seated present holds slot) started
      have sound' := (sound_loadLevel sound loads).grow grows
      have running : last.gameStarted := grows.gameStarted.trans loaded
      have result : (if last.gameStarted then { last with joined := address :: last.joined }
          else last) = { last with joined := address :: last.joined } := if_pos running
      rw [result]
      simp only [loaded, true_implies]
      have joins : ({ last with joined := address :: last.joined } : Instance Address).Sound := by
        refine ⟨sound'.wellFormed, sound'.seated, ⟨sound'.recorded.announced,
          sound'.recorded.updated⟩, ?_, fun _ => running, sound'.loaded⟩
        intro other member
        rcases List.mem_cons.mp member with rfl | before
        · exact grows.server ▸ here
        · exact sound'.connected other before
      refine ⟨joins, (visible_iff joins.recorded).trans ?_⟩
      obtain ⟨inStep, -⟩ := (visible_iff sound.recorded).mp visible
      constructor
      · rintro ⟨everybody, -⟩
        exact grows.before address (everybody address List.mem_cons_self)
      · intro inTime
        refine ⟨fun other member => ?_, fun _ => created⟩
        -- Those who had joined stay in step, and the one who joins has been so.
        have recorded := (sound_loadLevel sound loads).recorded
        rcases List.mem_cons.mp member with rfl | before
        · exact grows.inStep recorded other here inTime
        · rw [grows.joined] at before
          exact grows.inStep recorded other (sound.connected other before) (inStep other before)
    · have sound' := (sound_loadLevel sound loads).grow grows
      have idle : last.gameStarted = false := by
        rw [grows.gameStarted]
        simpa [loadLevel] using loaded
      simp only [idle, Bool.false_eq_true, if_false]
      refine ⟨sound', iff_of_true ?_ fun wrong => absurd wrong loaded⟩
      intro other member
      rw [sound'.joined_nil (by simp [idle])] at member
      cases member

/-! ### The other inputs -/

/-- Only its own disconnection takes a client away. -/
theorem mem_clients_step {server : Server Address} {address : Address}
    (connected : address ∈ server.clients) {input : Server.Input Address}
    (stays : input ≠ .disconnect address) : address ∈ (server.step input).clients := by
  -- Of the other inputs, two insert a client, and the rest leave the clients alone.
  have inserted : ∀ other client, address ∈ server.clients.insert other client := by
    intro other client
    exact Std.TreeMap.mem_insert.mpr (Or.inr connected)
  cases input with
  | connect arriving =>
    simp only [Server.step, Server.addClient]
    split
    · exact connected
    · exact inserted _ _
  | disconnect leaving =>
    have apart : leaving ≠ address := by simpa using stays
    simp only [Server.step, Server.removeClient]
    exact Std.TreeMap.mem_erase.mpr ⟨by simpa using apart, connected⟩
  | helloPlayer sender blazeId =>
    simp only [Server.step]
    cases found : server.getClient sender with
    | none =>
      unfold Server.onHelloPlayerRequest
      rw [found]
      exact connected
    | some client =>
      rw [(Server.onHelloPlayerRequest_frame found blazeId).1]
      cases server.getUserById blazeId.toInt with
      | none => exact connected
      | some user =>
        rw [Server.setUser_eq]
        exact inserted _ _
  | login mail id => exact connected
  | logout mail => exact connected

/-- A message to the server other than a disconnection changes no object. -/
theorem sound_server {game : Instance Address} (sound : game.Sound) {input : Server.Input Address}
    (stays : ∀ address, input ≠ .disconnect address) :
    ({ game with server := game.server.step input } : Instance Address).Sound where
  wellFormed := sound.wellFormed.step input
  seated := sound.seated.step sound.wellFormed input
  recorded := ⟨sound.recorded.announced, sound.recorded.updated⟩
  connected := fun address member =>
    mem_clients_step (sound.connected address member) (stays address)
  started := sound.started
  loaded := sound.loaded

/-- The others keep what they were sent when a client leaves. -/
theorem disconnect_visible {game next : Instance Address} (sound : game.Sound)
    (visible : game.Visible) {address : Address}
    (taken : game.step (.server (.disconnect address)) = some next) :
    next.Sound ∧ next.Visible := by
  -- Whoever has joined and stays is somebody else than the one who leaves.
  cases taken
  refine ⟨⟨sound.wellFormed.step (.disconnect address),
    sound.seated.step sound.wellFormed (.disconnect address), ?_, ?_, ?_, sound.loaded⟩, ?_⟩
  · constructor
    · exact fun other object known => sound.recorded.announced other object known.2
    · intro other object flag member
      rcases List.mem_cons.mp member with wrong | before
      · cases wrong
      · exact sound.recorded.updated other object flag before
  · intro other member
    obtain ⟨before, apart⟩ := List.mem_filter.mp member
    refine mem_clients_step (sound.connected other before) ?_
    rintro same
    cases same
    simp at apart
  · intro some_
    refine sound.started fun empty => some_ ?_
    rw [empty]
    rfl
  · intro other member object record found live
    obtain ⟨before, apart⟩ := List.mem_filter.mp member
    obtain ⟨known, follow⟩ := visible other before object record found live
    exact ⟨⟨fun same => by simp [same] at apart, known⟩, Or.inr follow⟩

/-- Deleting objects leaves the others known. -/
theorem deleteMarked_visible {game : Instance Address} (sound : game.Sound)
    (visible : game.Visible) : game.deleteMarked.Sound ∧ game.deleteMarked.Visible := by
  have deletes : ∀ event ∈ (game.server.clients.keys.flatMap fun address =>
      (game.activeObjects.filter fun object =>
        (game.objects[object]?.map GameObject.markedForDeletion).getD false).map fun object =>
          ObjectEvent.delete address object).reverse,
      ∃ receiver whose, event = .delete receiver whose := by
    intro event member
    simp only [List.mem_reverse, List.mem_flatMap, List.mem_map] at member
    obtain ⟨receiver, -, whose, -, rfl⟩ := member
    exact ⟨receiver, whose, rfl⟩
  have known : ∀ address object, Announced address object game.deleteMarked.history ↔
      Announced address object game.history :=
    fun address object => announced_quiet (fun event member => Or.inr (deletes event member)) _
  refine ⟨⟨sound.wellFormed, sound.seated, ?_, sound.connected, sound.started, sound.loaded⟩, ?_⟩
  · constructor
    · intro address object announced
      obtain ⟨record, present, marked⟩ :=
        sound.recorded.announced address object ((known _ _).mp announced)
      exact ⟨{ record with active := record.active && !record.markedForDeletion },
        by simp [deleteMarked, present], marked⟩
    · intro address object flag member
      simp only [deleteMarked, List.length_map]
      rcases List.mem_append.mp member with recent | before
      · obtain ⟨_, _, wrong⟩ := deletes _ recent
        cases wrong
      · exact sound.recorded.updated address object flag before
  · intro address member object record found live
    simp only [deleteMarked, List.getElem?_map] at found
    obtain ⟨before, present, rfl⟩ := Option.map_eq_some_iff.mp found
    -- What is active after the deletion has been so before.
    have lived : before.active := (Bool.and_eq_true_iff.mp live).1
    obtain ⟨announced, follow⟩ := visible address member object before present lived
    exact ⟨(known _ _).mpr announced, (updatesFollow_deletes deletes _).mpr follow⟩

/-- A change of an object that leaves it active and created as it was keeps what holds. -/
theorem updateObject_visible {game : Instance Address} (sound : game.Sound) (visible : game.Visible)
    (object : ObjectPtr) (change : GameObject → GameObject)
    (active : ∀ record, (change record).active = record.active)
    (created : ∀ record, (change record).created = record.created) :
    (game.updateObject object change).Sound ∧ (game.updateObject object change).Visible := by
  have grows := game.grows_updateObject object active created
  refine ⟨sound.grow grows, visible.grow sound grows fun _ before => ?_⟩
  exact createdBut_updateObject before object (fun record live => (active record).symm.trans live)
    fun record marked => (created record).trans marked

/-- The task that updates an object for the first client tells it of an object it knows. -/
theorem objectUpdateTask_visible {game next : Instance Address} (sound : game.Sound)
    (visible : game.Visible) {character : ObjectPtr}
    (taken : game.objectUpdateTask character = some next) : next.Sound ∧ next.Visible := by
  unfold objectUpdateTask at taken
  split at taken
  · cases taken
  rename_i address client _
  split at taken
  swap
  · cases taken
    exact ⟨sound, visible⟩
  rename_i allowed
  cases taken
  obtain ⟨marked, shown⟩ := updateObject_visible sound visible character
    (fun record => record.mark true ∅) (fun _ => rfl) fun _ => rfl
  refine ⟨⟨marked.wellFormed, marked.seated, ⟨marked.recorded.announced, ?_⟩, marked.connected,
    marked.started, marked.loaded⟩, ?_⟩
  · intro other object flag member
    rcases List.mem_cons.mp member with same | before
    · cases same
      have exists_ := (Bool.and_eq_true_iff.mp allowed).2
      simpa [updateObject, List.getElem?_eq_some_iff] using exists_
    · exact marked.recorded.updated other object flag before
  · intro other member object record found live
    obtain ⟨known, follow⟩ := shown other member object record found live
    exact ⟨known, fun _ same => same ▸ known, follow⟩

/-- An object that the manager makes alone is unknown to whoever has joined. -/
theorem createObject_visible {game : Instance Address} (sound : game.Sound) (dataBits : Bool)
    (updateFlags : Finset UpdateFlag) :
    (game.createObject dataBits updateFlags).2.Visible ↔ game.joined = [] := by
  have grows := game.grows_createObject dataBits updateFlags
  constructor
  · intro visible
    by_contra some_
    obtain ⟨address, member⟩ := List.exists_mem_of_ne_nil _ some_
    have present : (game.createObject dataBits updateFlags).2.objects[game.objects.length]? =
        some (GameObject.new dataBits updateFlags) := by
      simp [createObject]
    obtain ⟨known, -⟩ := visible address member game.objects.length _ present rfl
    obtain ⟨other, found, marked⟩ := (grows.recorded sound.recorded).announced _ _ known
    cases Option.some_inj.mp (present.symm.trans found)
    simp [GameObject.new] at marked
  · intro empty address member
    have nobody : address ∈ game.joined := member
    rw [empty] at nobody
    cases nobody

/--
One step: what holds in every state is kept, and all stays visible exactly when the input is in time.
-/
theorem visible_step {game next : Instance Address} (sound : game.Sound) (visible : game.Visible)
    {input : Input Address} (taken : game.step input = some next) :
    next.Sound ∧ (next.Visible ↔ game.InTime input) := by
  -- Only a ping, and an object that is made but not sent, can leave something unknown.
  cases input with
  | server input =>
    cases input with
    | disconnect address =>
      obtain ⟨sound', visible'⟩ := disconnect_visible sound visible taken
      exact ⟨sound', iff_of_true visible' trivial⟩
    | connect address =>
      cases taken
      exact ⟨sound_server sound (by simp), iff_of_true visible trivial⟩
    | helloPlayer address blazeId =>
      cases taken
      exact ⟨sound_server sound (by simp), iff_of_true visible trivial⟩
    | login mail id =>
      cases taken
      exact ⟨sound_server sound (by simp), iff_of_true visible trivial⟩
    | logout mail =>
      cases taken
      exact ⟨sound_server sound (by simp), iff_of_true visible trivial⟩
  | debugPing address loads spawned characters => exact debugPing_visible sound visible taken
  | create dataBits updateFlags =>
    cases taken
    exact ⟨sound.grow (game.grows_createObject dataBits updateFlags),
      createObject_visible sound dataBits updateFlags⟩
  | drop dataBits updateFlags sends =>
    cases taken
    obtain ⟨grows, created⟩ := drop_grows game dataBits updateFlags sends
    exact ⟨sound.grow grows, iff_of_true (visible.grow sound grows created) trivial⟩
  | createObject dataBits updateFlags =>
    have makes := game.grows_createObject dataBits updateFlags
    have grows := makes.trans (grows_sendObjectUpdate taken)
    have sent : (game.createObject dataBits updateFlags).2.sendObjectUpdate
        (game.createObject dataBits updateFlags).1 = some next := taken
    refine ⟨sound.grow grows, iff_of_true (visible.grow sound grows ?_) trivial⟩
    intro started created
    refine createdBut_sendObjectUpdate ?_ sent
      (createdBut_createObject created dataBits updateFlags)
    exact started
  | change object dataBits updateFlags =>
    cases taken
    obtain ⟨sound', visible'⟩ := updateObject_visible sound visible object
      (fun record => record.mark dataBits updateFlags) (fun _ => rfl) fun _ => rfl
    exact ⟨sound', iff_of_true visible' trivial⟩
  | markForDeletion object =>
    cases taken
    obtain ⟨sound', visible'⟩ := updateObject_visible sound visible object
      (fun record => { record with markedForDeletion := true }) (fun _ => rfl) fun _ => rfl
    exact ⟨sound', iff_of_true visible' trivial⟩
  | tick object =>
    simp only [step, tickObject] at taken
    split at taken
    · cases taken
      exact ⟨sound, iff_of_true visible trivial⟩
    split at taken
    · have grows := grows_sendObjectUpdate taken
      refine ⟨sound.grow grows, iff_of_true (visible.grow sound grows ?_) trivial⟩
      exact fun started created =>
        createdBut_sendObjectUpdate started taken (created.mono (List.nil_subset _))
    · cases taken
      exact ⟨sound, iff_of_true visible trivial⟩
  | deleteMarked =>
    cases taken
    obtain ⟨sound', visible'⟩ := deleteMarked_visible sound visible
    exact ⟨sound', iff_of_true visible' trivial⟩
  | objectUpdateTask character =>
    obtain ⟨sound', visible'⟩ := objectUpdateTask_visible sound visible taken
    exact ⟨sound', iff_of_true visible' trivial⟩

/-! ### Runs -/

theorem sound_initial : (initial : Instance Address).Sound where
  wellFormed := Server.wellFormed_initial
  seated := Server.seated_initial
  recorded := ⟨fun _ _ known => known.elim, fun _ _ _ member => by cases member⟩
  connected := fun _ member => by cases member
  started := fun some_ => absurd rfl some_
  loaded := rfl

/-- A refused input is in time: only an update or a task that is undefined is refused. -/
theorem inTime_of_refused {game : Instance Address} {input : Input Address}
    (refused : game.step input = none) : game.InTime input := by
  cases input with
  | create dataBits updateFlags => cases refused
  | debugPing address loads spawned characters =>
    intro _ _ goes
    have stops : game.onDebugPing address loads spawned characters = none := refused
    simp [stops] at goes
  | _ => trivial

/--
Throughout a run every joined client has been told of every active object before its updates, exactly
when every client that finishes joining has been there for the announcements of the active objects,
and the object manager alone makes no object while a client has joined.
-/
theorem visible_iff_inTime (inputs : List (Input Address)) :
    (∀ front, front <+: inputs → (final step (initial : Instance Address) front).Visible) ↔
      Along step InTime (initial : Instance Address) inputs := by
  symm
  have kept : ∀ (game : Instance Address) (input : Input Address) (next : Instance Address),
      game.Sound → game.Visible → game.step input = some next → next.Sound :=
    fun game input next sound visible taken => (visible_step sound visible taken).1
  have agree : ∀ (game : Instance Address) (input : Input Address) (next : Instance Address),
      game.Sound → game.Visible → game.step input = some next →
      (next.Visible ↔ game.InTime input) :=
    fun game input next sound visible taken => (visible_step sound visible taken).2
  -- Nobody has joined at first.
  have start : (initial : Instance Address).Visible := fun _ member => by cases member
  exact Along.iff_final kept (fun _ _ refused => inTime_of_refused refused) agree inputs sound_initial
    start

/-- Two clients join one after the other, and the second is told of no object that was there. -/
theorem not_visible :
    ¬ ∀ inputs : List (Input ℕ), (final step (initial : Instance ℕ) inputs).Visible := by
  intro always
  have shown := always [.server (.login "a" 5), .server (.login "b" 6), .server (.connect 10),
    .server (.helloPlayer 10 5), .debugPing 10 true [(true, ∅)] [], .server (.connect 11),
    .server (.helloPlayer 11 6), .debugPing 11 true [] []]
  -- The object was announced before the client at 11 connected, and never again.
  have known := (shown 11 (by decide) 0 ⟨true, false, true, false, ∅⟩ (by decide) rfl).1
  exact absurd known (by decide)

end Recap.Game.Instance
