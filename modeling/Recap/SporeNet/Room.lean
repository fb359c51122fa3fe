import Recap.Lib.OrderedMap
import Recap.Lib.Runs

/-! The rooms of the lobby: who is in which room, and which rooms the manager knows by their ids. -/

namespace Recap.SporeNet

/-- A room object: its id, which never changes, and its place among all rooms that were ever made. -/
structure RoomPtr where
  mId : UInt32
  address : Nat
deriving DecidableEq

/-- A user object: the id of its account, and its place among all that were ever made. -/
structure UserPtr where
  get_id : UInt64
  address : Nat
deriving DecidableEq

/-- The rooms that the manager has under their ids. -/
abbrev Registry := Std.TreeMap UInt32 Nat

/-- One removal: which room asked for it, and what was registered before and after. -/
structure Removal where
  room : RoomPtr
  before : Registry
  after : Registry

/-- The removal took away the entry of the room that asked for it, if there was one, and no other. -/
def Removal.Exact (removal : Removal) : Prop :=
  ∀ id : UInt32, removal.after[id]? =
    if id = removal.room.mId ∧ removal.before[id]? = some removal.room.address then none
    else removal.before[id]?

/--
The room manager, the rooms and what the users know of them.

A room holds its users weakly: the entry of a user object that is gone stays until the list is
written out. A user, the manager and whoever is in `held` hold their rooms.
-/
structure Rooms where
  mRooms : Registry
  mRoomCategories : Std.TreeSet UInt32
  mUsers : RoomPtr → Std.TreeMap UInt64 UserPtr
  mRoom : AList fun _ : UserPtr => RoomPtr
  /-- The references to rooms that are neither the manager's nor a user's. -/
  held : List RoomPtr
  /-- The user objects that were destroyed. -/
  gone : List UserPtr
  /-- Where the next room will be. -/
  next : Nat
  /-- The removals so far. -/
  removals : List Removal

namespace Rooms

/-- A room is there as long as somebody holds it. -/
def referenced (s : Rooms) (room : RoomPtr) : Bool :=
  s.mRooms[room.mId]? == some room.address || s.held.contains room ||
    s.mRoom.entries.any fun entry => entry.2 == room

/-- The list of the room has the user under its id. -/
def contains (s : Rooms) (room : RoomPtr) (user : UserPtr) : Prop :=
  (s.mUsers room)[user.get_id]? = some user

def logged (s : Rooms) (removal : Removal) : Rooms :=
  { s with removals := removal :: s.removals }

/-- `RoomManager::RemoveRoom` -/
def removeRoom (s : Rooms) (id : UInt32) : Rooms :=
  match s.mRooms[id]? with
  | none => s
  | some address =>
    let rest := { s with mRooms := s.mRooms.erase id }
    if rest.referenced ⟨id, address⟩ then rest
    -- The destructor of the removed room asks once more for its id, and finds nothing there.
    else rest.logged ⟨⟨id, address⟩, rest.mRooms, rest.mRooms.erase id⟩

/-- `Room::~Room` -/
def destroy (s : Rooms) (room : RoomPtr) : Rooms :=
  (s.removeRoom room.mId).logged ⟨room, s.mRooms, (s.removeRoom room.mId).mRooms⟩

/-- One reference to the room is gone, and with the last one the room. -/
def release (s : Rooms) (room : RoomPtr) : Rooms :=
  if s.referenced room then s else s.destroy room

/-- `RoomManager::GetRoom` -/
def getRoom (s : Rooms) (id : UInt32) : Option RoomPtr :=
  (s.mRooms[id]?).map fun address => ⟨id, address⟩

/-- `RoomManager::CreateRoom`, where the id 0 stands for the one behind the last. -/
def createRoom (s : Rooms) (id : UInt32) : Rooms × RoomPtr :=
  let id := if id = 0 then (s.mRooms.keys.getLast?.map (· + 1)).getD 1 else id
  match s.mRooms[id]? with
  | some address => (s, ⟨id, address⟩)
  | none =>
    ({ s with
        mRooms := s.mRooms.insert id s.next
        mUsers := Function.update s.mUsers ⟨id, s.next⟩ ∅
        next := s.next + 1 }, ⟨id, s.next⟩)

/-- `RoomManager::CreateRoomCategory`, of which only the id matters here. -/
def createRoomCategory (s : Rooms) (id : UInt32) : Rooms :=
  let id := if id = 0 then (s.mRoomCategories.toList.getLast?.map (· + 1)).getD 1 else id
  { s with mRoomCategories := s.mRoomCategories.insert id }

/-- The user's pointer alone, without what becomes of the room that it pointed to. -/
def assigned (s : Rooms) (user : UserPtr) (room : RoomPtr) : Rooms :=
  { s with mRoom := s.mRoom.insert user room }

/-- `User::SetRoom` -/
def setRoom (s : Rooms) (user : UserPtr) (room : RoomPtr) : Rooms :=
  match s.mRoom.lookup user with
  | none => s.assigned user room
  | some old => (s.assigned user room).release old

/-- `mUsers.emplace`, which leaves an entry alone that is there already. -/
def emplace (s : Rooms) (room : RoomPtr) (user : UserPtr) : Rooms :=
  { s with
    mUsers := Function.update s.mUsers room ((s.mUsers room).insertIfNew user.get_id user) }

/-- `Room::AddUser` -/
def addUser (s : Rooms) (room : RoomPtr) (user : UserPtr) : Rooms :=
  (s.setRoom user room).emplace room user

/-- The list of the room without whoever is in it under the user's id. -/
def without (s : Rooms) (room : RoomPtr) (user : UserPtr) : Rooms :=
  { s with mUsers := Function.update s.mUsers room ((s.mUsers room).erase user.get_id) }

/-- `Room::RemoveUser` -/
def removeUser (s : Rooms) (room : RoomPtr) (user : UserPtr) : Rooms :=
  let rest := s.without room user
  if (rest.mUsers room).isEmpty then
    (rest.removeRoom room.mId).logged ⟨room, rest.mRooms, (rest.removeRoom room.mId).mRooms⟩
  else rest

/-- `Room::WriteTo` drops the users from the list that are gone. -/
def writeTo (s : Rooms) (room : RoomPtr) : Rooms :=
  { s with
    mUsers := Function.update s.mUsers room
      ((s.mUsers room).filter fun _ user => !s.gone.contains user) }

/-- The room that a request asks for, which is made if it names none. -/
def requested (s : Rooms) (roomId : UInt32) : Rooms × Option RoomPtr :=
  if roomId = 0 then ((s.createRoom 0).1, some (s.createRoom 0).2) else (s, s.getRoom roomId)

/-- The category that a request asks for, which is made if it names none. -/
def categorized (s : Rooms) (categoryId : UInt32) : Rooms × Bool :=
  if categoryId = 0 then (s.createRoomCategory 0, true)
  else (s, s.mRoomCategories.contains categoryId)

/-- What a request to join comes to before the user is added to a room, and that room. -/
def prepared (s : Rooms) (roomId categoryId : UInt32) : Rooms × Option RoomPtr :=
  match s.requested roomId with
  | (s, none) => (s, none)
  | (s, some room) =>
    match s.categorized categoryId with
    | (s, false) => (s, none)
    | (s, true) => (s, some room)

/-- `RoomsComponent::JoinRoom` -/
def joinRoom (s : Rooms) (user : UserPtr) (roomId categoryId : UInt32) : Rooms :=
  match s.prepared roomId categoryId with
  | (s, none) => s
  | (s, some room) => (s.addUser room user).writeTo room

/-- A reference outside of the manager and the users is gone. -/
def letGo (s : Rooms) (room : RoomPtr) : Rooms :=
  { s with held := s.held.erase room }

/-- The user object is gone, and its pointer with it. -/
def expired (s : Rooms) (user : UserPtr) : Rooms :=
  { s with mRoom := s.mRoom.erase user, gone := user :: s.gone }

/-- `RoomManager::RoomManager`, with four rooms in four categories. -/
def initial : Rooms :=
  let bare : Rooms :=
    { mRooms := ∅, mRoomCategories := ∅, mUsers := fun _ => ∅, mRoom := ∅, held := [], gone := []
      next := 0, removals := [] }
  [1, 2, 3, 4].foldl (fun s id => ((s.createRoomCategory id).createRoom id).1) bare

/-- What is done to rooms and users. -/
inductive Input where
  | createRoom (id : UInt32)
  | removeRoom (id : UInt32)
  | joinRoom (user : UserPtr) (roomId categoryId : UInt32)
  | addUser (room : RoomPtr) (user : UserPtr)
  | removeUser (room : RoomPtr) (user : UserPtr)
  /-- Somebody takes a reference to a room. -/
  | hold (room : RoomPtr)
  /-- Somebody gives such a reference up. -/
  | release (room : RoomPtr)
  /-- A user object is destroyed. -/
  | expire (user : UserPtr)
deriving DecidableEq

/-- What is done is done to rooms and users that are there. -/
def possible (s : Rooms) : Input → Bool
  | .createRoom _ | .removeRoom _ => true
  | .joinRoom user _ _ => !s.gone.contains user
  | .addUser room user | .removeUser room user => s.referenced room && !s.gone.contains user
  | .hold room => s.referenced room
  | .release room => s.held.contains room
  | .expire user => !s.gone.contains user

/-- What an input does. -/
def act (s : Rooms) : Input → Rooms
  | .createRoom id => (s.createRoom id).1
  | .removeRoom id => s.removeRoom id
  | .joinRoom user roomId categoryId => s.joinRoom user roomId categoryId
  | .addUser room user => s.addUser room user
  | .removeUser room user => s.removeUser room user
  | .hold room => { s with held := room :: s.held }
  | .release room => (s.letGo room).release room
  | .expire user =>
    match s.mRoom.lookup user with
    | none => s.expired user
    | some old => (s.expired user).release old

def step (s : Rooms) (input : Input) : Option Rooms :=
  if s.possible input then some (s.act input) else none

theorem step_eq_some_iff {s next : Rooms} {input : Input} :
    s.step input = some next ↔ s.possible input ∧ s.act input = next := by
  unfold step
  split <;> simp [*]

/-- A room is held by the manager, by somebody else or by a user. -/
theorem referenced_iff {s : Rooms} {room : RoomPtr} :
    s.referenced room ↔ s.mRooms[room.mId]? = some room.address ∨ room ∈ s.held ∨
      ∃ user, s.mRoom.lookup user = some room := by
  -- The users' pointers are looked through entry by entry.
  have users : (s.mRoom.entries.any fun entry => entry.2 == room) ↔
      ∃ user, s.mRoom.lookup user = some room := by
    rw [List.any_eq_true]
    constructor
    · intro ⟨entry, member, same⟩
      refine ⟨entry.1, AList.mem_lookup_iff.mpr ?_⟩
      rw [← beq_iff_eq.mp same]
      exact member
    · intro ⟨user, found⟩
      exact ⟨⟨user, room⟩, AList.mem_lookup_iff.mp found, beq_self_eq_true room⟩
  unfold referenced
  rw [Bool.or_eq_true, Bool.or_eq_true, beq_iff_eq, List.contains_iff_mem, users, or_assoc]

end Rooms

end Recap.SporeNet
