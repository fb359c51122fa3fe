import Recap.Blaze.Reading

/-! What the handlers of two components read of their requests, and the requests that they can read. -/

namespace Recap.Blaze

/-- The handlers that the two components call. -/
inductive Handler where
  | createGame | destroyGame | setPlayerAttributes | joinGame | removePlayer | startMatchmaking
  | cancelMatchmaking | finalizeGameCreation | resetDedicatedServer | updateMeshConnection
  | selectViewUpdates | selectCategoryUpdates | joinRoom | selectPseudoRoomUpdates
deriving DecidableEq

/-- The components whose handlers these are. -/
inductive Component where
  | gameManager | rooms
deriving DecidableEq

/-- The handler that a component's switch calls for a command. -/
def Component.handler : Component → Nat → Option Handler
  | gameManager, 0x01 => some .createGame
  | gameManager, 0x02 => some .destroyGame
  | gameManager, 0x08 => some .setPlayerAttributes
  | gameManager, 0x09 => some .joinGame
  | gameManager, 0x0B => some .removePlayer
  | gameManager, 0x0D => some .startMatchmaking
  | gameManager, 0x0E => some .cancelMatchmaking
  | gameManager, 0x0F => some .finalizeGameCreation
  | gameManager, 0x19 => some .resetDedicatedServer
  | gameManager, 0x1D => some .updateMeshConnection
  | rooms, 0x0A => some .selectViewUpdates
  | rooms, 0x0B => some .selectCategoryUpdates
  | rooms, 0x14 => some .joinRoom
  | rooms, 0xA0 => some .selectPseudoRoomUpdates
  | _, _ => none

/-- What a handler starts from. -/
structure Session where
  /-- The user that the client has logged in as, if any. -/
  user : Option Int64
  /-- What the members of a request are before it is read. -/
  request : CreateGameRequest
  /-- What the members of a connection's status are before it is read. -/
  status : PlayerConnectionStatus

/-- What a handler has got out of its request when it goes on to answer it. -/
inductive Asked where
  | nothing
  | createGame (data : Option CreateGameRequest)
  | destroyGame (gameId reason : Nat)
  | joinGame (gameId : Nat)
  | removePlayer (gameId : Nat) (personaId : Int64) (reason : Nat)
  | cancelMatchmaking (matchmakingSessionId : Nat)
  | updateMeshConnection (gameId : Nat) (statuses : List PlayerConnectionStatus)
    (personaId playerState : Nat)
  | selectViewUpdates (update : Bool)
  | selectCategoryUpdates (viewId : Nat)
  | joinRoom (password pval : Bytes) (inviterId : Nat) (invited : Bool) (categoryId roomId : Nat)

/--
What each handler reads of its request, in the order in which it reads it.

Some handlers return at once where nobody is logged in, and some read nothing at all.
-/
def Handler.read (session : Session) (request : Json) : Handler → Except Fault Asked
  | createGame => do return .createGame (← session.request.read request)
  | destroyGame => do
    let gameId ← request.uintAt "GID"
    let reason ← request.uintAt "REAS"
    return .destroyGame gameId reason
  | joinGame =>
    match session.user with
    | none => .ok .nothing
    | some _ => do return .joinGame (← request.uintAt "GID")
  | removePlayer => do
    let gameId ← request.uintAt "GID"
    let personaId ← request.int64At "PID"
    let reason ← request.uintAt "REAS"
    return .removePlayer gameId personaId reason
  | cancelMatchmaking => do return .cancelMatchmaking (← request.uintAt "MSID")
  | resetDedicatedServer =>
    match session.user with
    | none => .ok .nothing
    | some _ => do return .createGame (← session.request.read request)
  | updateMeshConnection => do
    let targetList ← (← request.named "TARG").named "_Content"
    let gameId ← request.uintAt "GID"
    let targets ← targetList.getArray
    let statuses ← targets.mapM session.status.read
    let personaId ← (← targetList.item 0).uintAt "PID"
    let playerState ← (← targetList.item 0).uintAt "STAT"
    return .updateMeshConnection gameId statuses personaId playerState
  | selectViewUpdates =>
    match session.user with
    | none => .ok .nothing
    | some _ => do return .selectViewUpdates ((← request.uintAt "UPDT") ≠ 0)
  | selectCategoryUpdates => do return .selectCategoryUpdates (← request.uintAt "VWID")
  | joinRoom =>
    match session.user with
    | none => .ok .nothing
    | some _ => do
      let password ← request.textAt "PASS"
      let pval ← request.textAt "PVAL"
      let inviterId ← request.uint64At "INID"
      let invited ← request.uintAt "INVT"
      let categoryId ← request.uintAt "CTID"
      let roomId ← request.uintAt "RMID"
      return .joinRoom password pval inviterId (invited ≠ 0) categoryId roomId
  | setPlayerAttributes | startMatchmaking | finalizeGameCreation | selectPseudoRoomUpdates =>
    .ok .nothing

/-- `ParsePacket`, as far as it reads the request: whether there is a handler for the command. -/
def Component.parsePacket (session : Session) (component : Component) (command : Nat) (request : Json) :
    Except Fault Bool :=
  match component.handler command with
  | some handler => do
    let _ ← handler.read session request
    return true
  | none => .ok false

/-! ## Requests that can be read -/

/-- What `CreateGameRequest::Read` can be given, which leaves alone what is no object. -/
def CreateGameRequest.Accepts (request : Json) : Prop :=
  ∀ members, request = .object members → CreateGameRequest.Readable members

/--
A list of connections that can be read.

Every one of them that is an object has its three members.
There is a first one, which is an object, and its persona is looked at as an unsigned number.
-/
def MeshFits (request targetList : Json) : Prop :=
  request.Has "GID" Json.IsUint ∧ ∃ targets, targetList = .array targets ∧
    (∀ target ∈ targets, PlayerConnectionStatus.Readable target) ∧
    targetList.HasItem 0 (·.Has "PID" Json.IsUint) ∧ targetList.HasItem 0 (·.Has "STAT" Json.IsUint)

/-- Whether a request has every member that a handler reads, each of the kind that it is read as. -/
def Handler.Fits (session : Session) (request : Json) : Handler → Prop
  | createGame => CreateGameRequest.Accepts request
  | destroyGame => request.Has "GID" Json.IsUint ∧ request.Has "REAS" Json.IsUint
  | joinGame => session.user.isSome → request.Has "GID" Json.IsUint
  | removePlayer => request.Has "GID" Json.IsUint ∧ request.Has "PID" Json.IsInt64 ∧
      request.Has "REAS" Json.IsUint
  | cancelMatchmaking => request.Has "MSID" Json.IsUint
  | resetDedicatedServer => session.user.isSome → CreateGameRequest.Accepts request
  | updateMeshConnection => request.Has "TARG" fun target => target.Has "_Content" (MeshFits request)
  | selectViewUpdates => session.user.isSome → request.Has "UPDT" Json.IsUint
  | selectCategoryUpdates => request.Has "VWID" Json.IsUint
  | joinRoom => session.user.isSome → request.Has "PASS" Json.IsText ∧ request.Has "PVAL" Json.IsText ∧
      request.Has "INID" Json.IsUint64 ∧ request.Has "INVT" Json.IsUint ∧
      request.Has "CTID" Json.IsUint ∧ request.Has "RMID" Json.IsUint
  | setPlayerAttributes | startMatchmaking | finalizeGameCreation | selectPseudoRoomUpdates => True

open Json

theorem CreateGameRequest.accepts_succeeds (data : CreateGameRequest) (request : Json) :
    Succeeds (data.read request) (CreateGameRequest.Accepts request) := by
  cases request with
  | object members => exact (data.read_succeeds members).iff (by simp [Accepts])
  | _ => exact (Succeeds.ok (some data)).iff (by simp [Accepts])

/-- Behind the loop over the connections, the first of them is looked at twice more. -/
theorem mesh_succeeds (session : Session) (request targetList : Json) :
    Succeeds (do
      let gameId ← request.uintAt "GID"
      let targets ← targetList.getArray
      let statuses ← targets.mapM session.status.read
      let personaId ← (← targetList.item 0).uintAt "PID"
      let playerState ← (← targetList.item 0).uintAt "STAT"
      return Asked.updateMeshConnection gameId statuses personaId playerState)
      (MeshFits request targetList) := by
  refine (request.uintAt_succeeds "GID").bind fun _ => targetList.getArray_succeeds fun targets => ?_
  refine (Succeeds.each session.status.read_succeeds).bind fun _ => ?_
  refine targetList.item_then 0 (fun first => first.uintAt_succeeds "PID") fun _ => ?_
  exact (targetList.item_then 0 (fun first => first.uintAt_succeeds "STAT") fun _ =>
    Succeeds.ok _).iff (iff_of_eq (and_true _))

/-- A handler that is only called where somebody is logged in asks nothing of its request elsewhere. -/
theorem Session.user_succeeds (session : Session) {read : Except Fault Asked} {fits : Prop}
    (succeeds : Succeeds read fits) :
    Succeeds (match session.user with | none => .ok .nothing | some _ => read)
      (session.user.isSome → fits) := by
  cases session.user with
  | none => exact (Succeeds.ok _).iff (by simp)
  | some id => exact succeeds.iff (by simp)

/-- A handler gets through what it reads exactly where its request fits. -/
theorem Handler.read_succeeds (session : Session) (request : Json) (handler : Handler) :
    Succeeds (handler.read session request) (handler.Fits session request) := by
  -- Each case follows what the handler reads, in that order. The handlers that are left read
  -- nothing.
  cases handler with
  | createGame => exact (session.request.accepts_succeeds request).map _
  | destroyGame =>
    exact (request.uintAt_succeeds "GID").bind fun _ => (request.uintAt_succeeds "REAS").map _
  | joinGame => exact session.user_succeeds ((request.uintAt_succeeds "GID").map _)
  | removePlayer =>
    exact (request.uintAt_succeeds "GID").bind fun _ => (request.int64At_succeeds "PID").bind fun _ =>
      (request.uintAt_succeeds "REAS").map _
  | cancelMatchmaking => exact (request.uintAt_succeeds "MSID").map _
  | resetDedicatedServer =>
    exact session.user_succeeds ((session.request.accepts_succeeds request).map _)
  | updateMeshConnection =>
    exact request.named_succeeds "TARG" fun target => target.named_succeeds "_Content" fun targetList =>
      mesh_succeeds session request targetList
  | selectViewUpdates => exact session.user_succeeds ((request.uintAt_succeeds "UPDT").map _)
  | selectCategoryUpdates => exact (request.uintAt_succeeds "VWID").map _
  | joinRoom =>
    refine session.user_succeeds ?_
    exact (request.textAt_succeeds "PASS").bind fun _ => (request.textAt_succeeds "PVAL").bind fun _ =>
      (request.uint64At_succeeds "INID").bind fun _ => (request.uintAt_succeeds "INVT").bind fun _ =>
        (request.uintAt_succeeds "CTID").bind fun _ => (request.uintAt_succeeds "RMID").map _
  | _ => exact Succeeds.ok _

/--
A component gets through a request exactly where the handler for its command finds what it looks for.

No handler checks the document that it is given before it looks into it.
-/
theorem Component.parsePacket_iff_fits (session : Session) (component : Component) (command : Nat)
    (request : Json) :
    (∃ known, component.parsePacket session command request = .ok known) ↔
      ∀ handler, component.handler command = some handler → handler.Fits session request := by
  rw [parsePacket]
  cases called : component.handler command with
  | none => exact iff_of_true ⟨false, rfl⟩ (by simp)
  | some handler =>
    have succeeds := (handler.read_succeeds session request).map fun _ => true
    refine succeeds.iff ⟨fun fits other same => ?_, fun all => all handler rfl⟩
    cases same
    exact fits

/-- A session of nobody, whose records are empty. -/
def Session.nobody : Session := ⟨none, .blank, ⟨0, 0, 0⟩⟩

/-- The document of an empty body has no member that says whom to remove. -/
theorem Component.not_robust :
    ¬ ∀ (session : Session) (component : Component) (command : Nat) (request : Json),
      ∃ known, component.parsePacket session command request = .ok known := by
  intro robust
  obtain ⟨known, returned⟩ := robust .nobody .gameManager 0x0B (.object [])
  cases returned

end Recap.Blaze
