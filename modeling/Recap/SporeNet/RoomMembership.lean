import Recap.SporeNet.Room

/-! When the rooms' lists of users and the users' pointers to their rooms agree. -/

namespace Recap.SporeNet.Rooms

variable {s s' : Rooms}

/--
What the users point to and the lists of the rooms say the same, and a user is in one list only.

Only rooms and users that are still there count.
-/
structure Consistent (s : Rooms) : Prop where
  once : ∀ user room other, user ∉ s.gone → s.referenced room → s.referenced other →
    s.contains room user → s.contains other user → room = other
  agree : ∀ user room, user ∉ s.gone → s.referenced room →
    (s.mRoom.lookup user = some room ↔ s.contains room user)

/-- That a user is in one list only follows from the rest. -/
theorem consistent_iff : s.Consistent ↔ ∀ user room, user ∉ s.gone → s.referenced room →
    (s.mRoom.lookup user = some room ↔ s.contains room user) := by
  constructor
  · exact fun consistent => consistent.agree
  · intro agree
    refine ⟨?_, agree⟩
    intro user room other there first second inFirst inSecond
    -- Both lists say where the user's only pointer leads.
    have here := (agree user room there first).mpr inFirst
    have elsewhere := (agree user other there second).mpr inSecond
    exact Option.some_inj.mp (here.symm.trans elsewhere)

/-- What holds in every state: nothing is known of rooms that are not made yet or of lost users. -/
structure Sound (s : Rooms) : Prop where
  made : ∀ room, s.referenced room → room.address < s.next
  pointing : ∀ user room, s.mRoom.lookup user = some room → user ∉ s.gone
  filed : ∀ room (id : UInt64) user, (s.mUsers room)[id]? = some user → user.get_id = id

/-- Rooms may have lost their entries in the registry, and everything else is as it was. -/
structure Narrows (s s' : Rooms) : Prop where
  users : s'.mUsers = s.mUsers
  pointers : s'.mRoom = s.mRoom
  held : s'.held = s.held
  gone : s'.gone = s.gone
  next : s'.next = s.next
  registered : ∀ (id : UInt32) address, s'.mRooms[id]? = some address → s.mRooms[id]? = some address

theorem Narrows.refl (s : Rooms) : s.Narrows s := ⟨rfl, rfl, rfl, rfl, rfl, fun _ _ found => found⟩

/-- A room is referenced if all that refers to it refers to a room that has been. -/
theorem referenced_of_parts {room : RoomPtr} (there : s'.referenced room)
    (registered : ∀ (id : UInt32) address, s'.mRooms[id]? = some address →
      s.mRooms[id]? = some address)
    (held : room ∈ s'.held → s.referenced room)
    (points : ∀ user, s'.mRoom.lookup user = some room → s.referenced room) :
    s.referenced room := by
  -- The registry, the references from outside and the users are the three that may refer to it.
  rcases referenced_iff.mp there with entry | outside | ⟨user, leads⟩
  · exact referenced_iff.mpr (.inl (registered _ _ entry))
  · exact held outside
  · exact points user leads

/-- A reference from outside keeps a room. -/
theorem referenced_of_held {room : RoomPtr} (held : room ∈ s.held) : s.referenced room :=
  referenced_iff.mpr (.inr (.inl held))

/-- A user's room is there whatever becomes of the registry. -/
theorem referenced_of_pointer {user : UserPtr} {room : RoomPtr}
    (points : s.mRoom.lookup user = some room) : s.referenced room :=
  referenced_iff.mpr (.inr (.inr ⟨user, points⟩))

theorem Narrows.referenced (narrows : s.Narrows s') {room : RoomPtr} (there : s'.referenced room) :
    s.referenced room := by
  -- Only entries of the registry may have gone.
  refine referenced_of_parts there narrows.registered ?_ ?_
  · rw [narrows.held]
    exact referenced_of_held
  · rw [narrows.pointers]
    exact fun user => referenced_of_pointer

theorem Narrows.sound (narrows : s.Narrows s') (sound : s.Sound) : s'.Sound := by
  -- Fewer rooms are referenced, and each of them has been made.
  constructor
  · intro room there
    rw [narrows.next]
    exact sound.made room (narrows.referenced there)
  · rw [narrows.pointers, narrows.gone]
    exact sound.pointing
  · rw [narrows.users]
    exact sound.filed

/-- Fewer rooms are in the registry, so fewer of them have to agree with the users. -/
theorem Narrows.consistent (narrows : s.Narrows s') (consistent : s.Consistent) :
    s'.Consistent := by
  rw [consistent_iff] at consistent ⊢
  unfold contains at consistent ⊢
  rw [narrows.users, narrows.pointers, narrows.gone]
  exact fun user room there present => consistent user room there (narrows.referenced present)

theorem narrows_removeRoom (s : Rooms) (id : UInt32) : s.Narrows (s.removeRoom id) := by
  -- The room that is unregistered may be destroyed by it, which is only noted.
  have fewer : ∀ (other : UInt32) address, (s.mRooms.erase id)[other]? = some address →
      s.mRooms[other]? = some address := by
    intro other address found
    rw [OrderedMap.lookup_erase] at found
    split at found
    · cases found
    · exact found
  unfold removeRoom
  split
  · exact Narrows.refl s
  · dsimp only
    split <;> exact ⟨rfl, rfl, rfl, rfl, rfl, fewer⟩

theorem narrows_release (s : Rooms) (room : RoomPtr) : s.Narrows (s.release room) := by
  -- A room that nobody refers to is destroyed, and unregisters itself on the way.
  unfold release
  split
  · exact Narrows.refl s
  · have removed := narrows_removeRoom s room.mId
    exact ⟨removed.users, removed.pointers, removed.held, removed.gone, removed.next,
      removed.registered⟩

/-- Besides the pointer of the user, assigning it may only cost rooms their registration. -/
theorem narrows_setRoom (s : Rooms) (user : UserPtr) (room : RoomPtr) :
    (s.assigned user room).Narrows (s.setRoom user room) := by
  -- The pointer is written first, and then the old room may go.
  unfold setRoom
  split
  · exact Narrows.refl _
  · exact narrows_release _ _

section Adding

variable {user : UserPtr} {room : RoomPtr}

/-- Giving a user a room brings nothing back that nobody holds. -/
theorem referenced_assigned (present : s.referenced room) {other : RoomPtr}
    (there : (s.assigned user room).referenced other) : s.referenced other := by
  refine referenced_of_parts there (fun _ _ found => found)
    (fun held => @referenced_of_held s other held) fun holder points => ?_
  by_cases same : holder = user
  · -- The user's new room is one that is there.
    subst same
    have target : room = other := Option.some_inj.mp ((AList.lookup_insert _).symm.trans points)
    exact target ▸ present
  · exact referenced_of_pointer ((AList.lookup_insert_ne same).symm.trans points)

theorem addUser_gone : (s.addUser room user).gone = s.gone := (narrows_setRoom s user room).gone

theorem addUser_pointer (holder : UserPtr) :
    (s.addUser room user).mRoom.lookup holder =
      if holder = user then some room else s.mRoom.lookup holder := by
  -- The room is assigned before the list is written, and the list has no part in it.
  have pointers : (s.addUser room user).mRoom = s.mRoom.insert user room :=
    (narrows_setRoom s user room).pointers
  rw [pointers]
  split
  · rename_i same
    rw [same, AList.lookup_insert]
  · rename_i different
    exact AList.lookup_insert_ne different

theorem addUser_listed (other : RoomPtr) (id : UInt64) :
    ((s.addUser room user).mUsers other)[id]? =
      if other = room ∧ user.get_id = id then some ((s.mUsers room)[id]?.getD user)
      else (s.mUsers other)[id]? := by
  -- The list of the room gets the user only if its id is not there yet.
  have lists : (s.setRoom user room).mUsers = s.mUsers := (narrows_setRoom s user room).users
  unfold addUser emplace
  rw [lists]
  by_cases same : other = room
  · subst same
    simp only [Function.update_self, OrderedMap.lookup_insertIfNew, true_and]
    split
    · rename_i filed
      rw [filed]
    · rfl
  · simp only [Function.update_of_ne same, same, false_and, if_false]

/-- A room that is there after a user was added was there before. -/
theorem referenced_addUser (present : s.referenced room) {other : RoomPtr}
    (there : (s.addUser room user).referenced other) :
    (s.assigned user room).referenced other ∧ s.referenced other := by
  -- What is there afterwards is there once the pointer is written, and that adds no room.
  have before : (s.assigned user room).referenced other :=
    (narrows_setRoom s user room).referenced there
  exact ⟨before, referenced_assigned present before⟩

theorem sound_addUser (sound : s.Sound) (present : s.referenced room) (there : user ∉ s.gone) :
    (s.addUser room user).Sound := by
  -- The user is a live one, and it is filed under its own id.
  constructor
  · intro other held
    exact lt_of_lt_of_eq (sound.made other (referenced_addUser present held).2)
      (narrows_setRoom s user room).next.symm
  · intro holder other points
    rw [addUser_pointer] at points
    rw [addUser_gone]
    split at points
    · rename_i same
      exact same ▸ there
    · exact sound.pointing holder other points
  · intro other id listed found
    rw [addUser_listed] at found
    split at found
    · rename_i added
      obtain ⟨rfl, rfl⟩ := added
      -- Either the user was added, or somebody was there already.
      cases before : (s.mUsers other)[user.get_id]? with
      | none =>
        rw [before] at found
        exact congrArg UserPtr.get_id (Option.some_inj.mp found).symm
      | some earlier =>
        rw [before] at found
        exact Option.some_inj.mp found ▸ sound.filed other user.get_id earlier before
    · exact sound.filed other id listed found

/--
Adding a user to a room leaves no trace of the user elsewhere and puts it into the list.

Nobody else is listed under the user's id, and the room that the user was in before is the same
one or is destroyed because nobody but the user held it.
-/
def Joins (s : Rooms) (room : RoomPtr) (user : UserPtr) : Prop :=
  (∀ other, (s.mUsers room)[user.get_id]? = some other → other = user) ∧
    ∀ old, s.mRoom.lookup user = some old → old = room ∨ (s.assigned user room).referenced old = false

theorem consistent_addUser (consistent : s.Consistent) (joins : s.Joins room user)
    (present : s.referenced room) (there : user ∉ s.gone) : (s.addUser room user).Consistent := by
  -- The user is compared apart from the others, and the room apart from the others too.
  rw [consistent_iff]
  intro holder other alive held
  rw [addUser_gone] at alive
  obtain ⟨kept, before⟩ := referenced_addUser present held
  have agreed := consistent.agree holder other alive before
  unfold contains at agreed ⊢
  rw [addUser_pointer, addUser_listed]
  by_cases same : holder = user
  · subst same
    rw [if_pos rfl]
    by_cases target : other = room
    · subst target
      rw [if_pos ⟨rfl, rfl⟩]
      -- Whoever is listed under the user's id is the user.
      cases found : (s.mUsers other)[holder.get_id]? with
      | none => exact iff_of_true rfl rfl
      | some listed => exact iff_of_true rfl (congrArg some (joins.1 listed found))
    · rw [if_neg fun both => target both.1]
      refine iff_of_false (fun leads => target (Option.some_inj.mp leads).symm) fun found => ?_
      -- The list of another room has the user only if that room is gone by now.
      rcases joins.2 other (agreed.mpr found) with reached | lost
      · exact target reached
      · rw [lost] at kept
        cases kept
  · rw [if_neg same]
    rw [agreed]
    by_cases hit : other = room ∧ user.get_id = holder.get_id
    · obtain ⟨rfl, equal⟩ := hit
      rw [if_pos ⟨rfl, equal⟩]
      cases found : (s.mUsers other)[holder.get_id]? with
      | none => exact iff_of_false nofun fun added => same (Option.some_inj.mp added).symm
      | some listed => exact Iff.rfl
    · rw [if_neg hit]

theorem joins_of_consistent (before : s.Consistent)
    (there : user ∉ s.gone) (after : (s.addUser room user).Consistent) : s.Joins room user := by
  -- The user points to the room afterwards, so all that agreement says is said of that room.
  have alive : user ∉ (s.addUser room user).gone := by rwa [addUser_gone]
  have points : (s.addUser room user).mRoom.lookup user = some room := by
    rw [addUser_pointer, if_pos rfl]
  constructor
  · intro other listed
    have found := (after.agree user room alive (referenced_of_pointer points)).mp points
    unfold contains at found
    rw [addUser_listed, if_pos ⟨rfl, rfl⟩, listed] at found
    exact Option.some_inj.mp found
  · intro old led
    by_cases same : old = room
    · exact .inl same
    · refine .inr (Bool.eq_false_iff.mpr fun held => ?_)
      -- A room that is still there keeps the user in its list, and the user points elsewhere.
      have kept : (s.addUser room user).referenced old := by
        change (s.setRoom user room).referenced old
        unfold setRoom release
        rw [led]
        simp only [held, if_true]
      have found := (before.agree user old there (referenced_of_pointer led)).mp led
      have listed : (s.addUser room user).contains old user := by
        unfold contains
        rw [addUser_listed, if_neg fun both => same both.1]
        exact found
      have leads := (after.agree user old alive kept).mpr listed
      exact same (Option.some_inj.mp (points.symm.trans leads)).symm

theorem consistent_addUser_iff (consistent : s.Consistent) (present : s.referenced room)
    (there : user ∉ s.gone) : (s.addUser room user).Consistent ↔ s.Joins room user :=
  ⟨joins_of_consistent consistent there,
    fun joins => consistent_addUser consistent joins present there⟩

end Adding

section Removing

variable {user : UserPtr} {room : RoomPtr}

/-- Without the removal of the room itself, only the list of the room changes. -/
theorem narrows_removeUser (s : Rooms) (room : RoomPtr) (user : UserPtr) :
    (s.without room user).Narrows (s.removeUser room user) := by
  -- An empty room is taken out of the registry.
  unfold removeUser
  dsimp only
  split
  · have removed := narrows_removeRoom (s.without room user) room.mId
    exact ⟨removed.users, removed.pointers, removed.held, removed.gone, removed.next,
      removed.registered⟩
  · exact Narrows.refl _

theorem removeUser_listed (other : RoomPtr) (id : UInt64) :
    ((s.removeUser room user).mUsers other)[id]? =
      if other = room ∧ user.get_id = id then none else (s.mUsers other)[id]? := by
  -- The entry is erased by the id, whoever it is of.
  rw [(narrows_removeUser s room user).users]
  unfold without
  by_cases same : other = room
  · subst same
    simp only [Function.update_self, OrderedMap.lookup_erase, true_and]
  · simp only [Function.update_of_ne same, same, false_and, if_false]

theorem removeUser_pointers : (s.removeUser room user).mRoom = s.mRoom :=
  (narrows_removeUser s room user).pointers

theorem removeUser_gone : (s.removeUser room user).gone = s.gone :=
  (narrows_removeUser s room user).gone

theorem sound_removeUser (sound : s.Sound) : (s.removeUser room user).Sound := by
  -- Nothing is filed or made by a removal.
  have narrows := narrows_removeUser s room user
  constructor
  · intro other held
    have before : (s.without room user).referenced other := narrows.referenced held
    exact lt_of_lt_of_eq (sound.made other before) narrows.next.symm
  · rw [removeUser_pointers, removeUser_gone]
    exact sound.pointing
  · intro other id listed found
    rw [removeUser_listed] at found
    split at found
    · cases found
    · exact sound.filed other id listed found

/-- Only a user that nobody in the list shares its id with may be removed, and it is not in it. -/
def Absent (s : Rooms) (room : RoomPtr) (user : UserPtr) : Prop :=
  ∀ other, other ∉ s.gone → (s.mUsers room)[user.get_id]? ≠ some other

theorem consistent_removeUser_iff (sound : s.Sound) (consistent : s.Consistent)
    (present : s.referenced room) :
    (s.removeUser room user).Consistent ↔ s.Absent room user := by
  -- The pointers stay, so nobody who is there may have been in the list under the id.
  constructor
  · intro after other alive listed
    have named := sound.filed room _ other listed
    have inList : s.contains room other := by
      unfold contains
      rwa [named]
    -- Its pointer still leads to the room, whose list has nobody under its id.
    have points := (consistent.agree other room alive present).mpr inList
    have unmoved : (s.removeUser room user).mRoom = s.mRoom := removeUser_pointers
    rw [← unmoved] at points
    have found := (after.agree other room (by rwa [removeUser_gone])
      (referenced_of_pointer points)).mp points
    unfold contains at found
    rw [removeUser_listed, if_pos ⟨rfl, named.symm⟩] at found
    cases found
  · intro absent
    rw [consistent_iff]
    intro holder other alive held
    rw [removeUser_gone] at alive
    have before : s.referenced other := (narrows_removeUser s room user).referenced held
    have agreed := consistent.agree holder other alive before
    rw [removeUser_pointers, agreed]
    unfold contains
    rw [removeUser_listed]
    by_cases hit : other = room ∧ user.get_id = holder.get_id
    · obtain ⟨rfl, equal⟩ := hit
      rw [if_pos ⟨rfl, equal⟩, ← equal]
      exact iff_of_false (absent holder alive) nofun
    · rw [if_neg hit]

end Removing

section Others

/-- A new room is registered, and its list is empty. -/
theorem createRoom_cases (s : Rooms) (id : UInt32) :
    (∃ address, s.mRooms[(s.createRoom id).2.mId]? = some address ∧
      (s.createRoom id).2.address = address ∧ (s.createRoom id).1 = s) ∨
    (s.mRooms[(s.createRoom id).2.mId]? = none ∧ (s.createRoom id).2.address = s.next ∧
      (s.createRoom id).1 = { s with
        mRooms := s.mRooms.insert (s.createRoom id).2.mId s.next
        mUsers := Function.update s.mUsers (s.createRoom id).2 ∅
        next := s.next + 1 }) := by
  -- The id is looked up before anything is made.
  unfold createRoom
  dsimp only
  split
  · rename_i address found
    exact .inl ⟨address, found, rfl, rfl⟩
  · rename_i missing
    exact .inr ⟨missing, rfl, rfl⟩

/-- The room that `CreateRoom` gives back is registered. -/
theorem referenced_createRoom (s : Rooms) (id : UInt32) :
    (s.createRoom id).1.referenced (s.createRoom id).2 := by
  refine referenced_iff.mpr (.inl ?_)
  rcases createRoom_cases s id with ⟨address, found, place, same⟩ | ⟨_, place, made⟩
  · rw [same, found, place]
  · rw [made, OrderedMap.lookup_insert, if_pos rfl, place]

/-- Whoever is there after a room was made was there before or is the new room. -/
theorem referenced_insert {id : UInt32} {lists : RoomPtr → Std.TreeMap UInt64 UserPtr} {next : Nat}
    {room : RoomPtr}
    (there : ({ s with mRooms := s.mRooms.insert id s.next, mUsers := lists, next := next } :
      Rooms).referenced room) : room = ⟨id, s.next⟩ ∨ s.referenced room := by
  -- The new entry of the registry is the only one that was not there.
  rw [referenced_iff] at there
  rcases there with registered | rest
  · rw [OrderedMap.lookup_insert] at registered
    split at registered
    · rename_i same
      left
      cases room
      cases same
      exact congrArg _ (Option.some_inj.mp registered).symm
    · exact .inr (referenced_iff.mpr (.inl registered))
  · exact .inr (referenced_iff.mpr (.inr rest))

theorem createRoom_kept (sound : s.Sound) (consistent : s.Consistent) (id : UInt32) :
    (s.createRoom id).1.Sound ∧ (s.createRoom id).1.Consistent := by
  -- A new room has an address that nobody has seen yet.
  rcases createRoom_cases s id with ⟨_, _, _, same⟩ | ⟨missing, place, made⟩
  · rw [same]
    exact ⟨sound, consistent⟩
  · generalize (s.createRoom id).2 = room at missing place made
    rw [made]
    obtain ⟨name, address⟩ := room
    obtain rfl : address = s.next := place
    refine ⟨⟨?_, sound.pointing, ?_⟩, ?_⟩
    · intro other there
      rcases referenced_insert there with rfl | before
      · exact Nat.lt_succ_self _
      · exact Nat.lt_succ_of_lt (sound.made other before)
    · intro other key user found
      by_cases same : other = ⟨name, s.next⟩
      · subst same
        simp [Function.update_self] at found
      · simp only [Function.update_of_ne same] at found
        exact sound.filed other key user found
    · rw [consistent_iff]
      intro user other alive there
      rcases referenced_insert there with rfl | before
      · -- Nobody can point to the new room yet, and its list is empty.
        refine iff_of_false (fun points => ?_) fun found => ?_
        · exact absurd (sound.made _ (referenced_of_pointer points)) (lt_irrefl _)
        · simp [contains, Function.update_self] at found
      · have older : other ≠ ⟨name, s.next⟩ := by
          intro same
          subst same
          exact absurd (sound.made _ before) (lt_irrefl _)
        unfold contains
        simp only [Function.update_of_ne older]
        exact consistent.agree user other alive before

/-- Writing a room out drops nobody who is still there. -/
theorem writeTo_listed (room other : RoomPtr) (id : UInt64) {user : UserPtr} (there : user ∉ s.gone) :
    ((s.writeTo room).mUsers other)[id]? = some user ↔ (s.mUsers other)[id]? = some user := by
  -- Only the entries of lost users are left out.
  unfold writeTo
  by_cases same : other = room
  · subst same
    simp only [Function.update_self, Std.TreeMap.getElem?_filter', Option.filter_eq_some_iff]
    simp [there]
  · simp only [Function.update_of_ne same]

theorem sound_writeTo (sound : s.Sound) (room : RoomPtr) : (s.writeTo room).Sound := by
  -- What is left of a list has been in it.
  refine ⟨sound.made, sound.pointing, ?_⟩
  intro other id user found
  by_cases same : other = room
  · subst same
    unfold writeTo at found
    simp only [Function.update_self, Std.TreeMap.getElem?_filter', Option.filter_eq_some_iff] at found
    exact sound.filed other id user found.1
  · unfold writeTo at found
    simp only [Function.update_of_ne same] at found
    exact sound.filed other id user found

theorem consistent_writeTo_iff (room : RoomPtr) : (s.writeTo room).Consistent ↔ s.Consistent := by
  -- The agreement looks only at users who are there, and their entries stay.
  rw [consistent_iff, consistent_iff]
  -- Who holds a room does not depend on the lists.
  have agree : ∀ (user : UserPtr) other, user ∉ s.gone →
      ((s.writeTo room).contains other user ↔ s.contains other user) :=
    fun user other there => writeTo_listed room other user.get_id there
  constructor
  · intro consistent user other there held
    rw [← agree user other there]
    exact consistent user other there held
  · intro consistent user other there held
    rw [agree user other there]
    exact consistent user other there held

/-- What the two steps of a preparation keep holds after it. -/
theorem prepared_of_steps {kept : Rooms → Prop} {roomId categoryId : UInt32}
    (asked : kept (s.requested roomId).1)
    (sorted : ∀ s : Rooms, kept s → kept (s.categorized categoryId).1) :
    kept (s.prepared roomId categoryId).1 := by
  -- The category is looked for only if there is a room, and the room is given up without one.
  unfold prepared
  revert asked
  cases s.requested roomId with
  | mk found wanted =>
    intro asked
    cases wanted with
    | none => exact asked
    | some room =>
      have later := sorted found asked
      revert later
      dsimp only
      cases found.categorized categoryId with
      | mk filed known =>
        intro later
        cases known with
        | false => exact later
        | true => exact later

/-- The room that a preparation comes to is the one that was asked for. -/
theorem requested_of_prepared {roomId categoryId : UInt32} {room : RoomPtr}
    (given : (s.prepared roomId categoryId).2 = some room) : (s.requested roomId).2 = some room := by
  -- A missing category gives up the room, and nothing else changes it.
  unfold prepared at given
  revert given
  cases s.requested roomId with
  | mk found wanted =>
    cases wanted with
    | none => exact id
    | some asked =>
      dsimp only
      cases found.categorized categoryId with
      | mk filed known =>
        cases known with
        | false => exact fun given => by cases given
        | true => exact id

/-- A category changes nothing that rooms and users depend on. -/
theorem categorized_kept {categoryId : UInt32} (sound : s.Sound) (consistent : s.Consistent) :
    (s.categorized categoryId).1.Sound ∧ (s.categorized categoryId).1.Consistent ∧
      (s.categorized categoryId).1.gone = s.gone ∧
      ∀ room, (s.categorized categoryId).1.referenced room = s.referenced room := by
  unfold categorized
  split
  · exact ⟨⟨sound.made, sound.pointing, sound.filed⟩, ⟨consistent.once, consistent.agree⟩, rfl,
      fun _ => rfl⟩
  · exact ⟨sound, consistent, rfl, fun _ => rfl⟩

/-- The room that is asked for is made if there is no name for it, and is there then. -/
theorem requested_kept (sound : s.Sound) (consistent : s.Consistent) (roomId : UInt32) :
    (s.requested roomId).1.Sound ∧ (s.requested roomId).1.Consistent ∧
      (s.requested roomId).1.gone = s.gone ∧
      ∀ room, (s.requested roomId).2 = some room → (s.requested roomId).1.referenced room := by
  unfold requested
  split
  · obtain ⟨sound', consistent'⟩ := createRoom_kept sound consistent 0
    refine ⟨sound', consistent', ?_, ?_⟩
    · rcases createRoom_cases s 0 with ⟨_, _, _, same⟩ | ⟨_, _, made⟩
      · rw [same]
      · rw [made]
    · intro room given
      exact Option.some_inj.mp given ▸ referenced_createRoom s 0
  · -- A room that is found is a registered one.
    refine ⟨sound, consistent, rfl, ?_⟩
    intro room given
    obtain ⟨address, found, rfl⟩ := Option.map_eq_some_iff.mp given
    exact referenced_iff.mpr (.inl found)

/-- Until the user is added, joining keeps everything in order and comes to a room that is there. -/
theorem prepared_kept (sound : s.Sound) (consistent : s.Consistent) (roomId categoryId : UInt32) :
    (s.prepared roomId categoryId).1.Sound ∧ (s.prepared roomId categoryId).1.Consistent ∧
      (s.prepared roomId categoryId).1.gone = s.gone ∧
      ∀ room, (s.prepared roomId categoryId).2 = some room →
        (s.prepared roomId categoryId).1.referenced room := by
  -- The room that was asked for is still there when the category has been looked for.
  have kept : (s.prepared roomId categoryId).1.Sound ∧
      (s.prepared roomId categoryId).1.Consistent ∧
      (s.prepared roomId categoryId).1.gone = s.gone ∧
      ∀ room, (s.requested roomId).2 = some room →
        (s.prepared roomId categoryId).1.referenced room := by
    apply @prepared_of_steps s fun s' => s'.Sound ∧ s'.Consistent ∧ s'.gone = s.gone ∧
      ∀ room, (s.requested roomId).2 = some room → s'.referenced room
    · exact requested_kept sound consistent roomId
    · intro found before
      obtain ⟨sound', consistent', gone, present⟩ := before
      obtain ⟨sound'', consistent'', gone', same⟩ :=
        @categorized_kept found categoryId sound' consistent'
      refine ⟨sound'', consistent'', gone'.trans gone, fun room given => ?_⟩
      rw [same]
      exact present room given
  obtain ⟨sound', consistent', gone, present⟩ := kept
  exact ⟨sound', consistent', gone, fun room given => present room (requested_of_prepared given)⟩

end Others

/-- A request to join adds its user to the room that it comes to. -/
theorem joinRoom_kept (sound : s.Sound) (consistent : s.Consistent) {user : UserPtr}
    (there : user ∉ s.gone) (roomId categoryId : UInt32) :
    (s.joinRoom user roomId categoryId).Sound ∧
      ((s.joinRoom user roomId categoryId).Consistent ↔
        ∀ room, (s.prepared roomId categoryId).2 = some room →
          (s.prepared roomId categoryId).1.Joins room user) := by
  -- Without a room the request ends with the preparation, and the list is written out at last.
  have kept := prepared_kept sound consistent roomId categoryId
  unfold joinRoom
  revert kept
  cases s.prepared roomId categoryId with
  | mk found wanted =>
    intro ⟨sound', consistent', gone, present⟩
    cases wanted with
    | none => exact ⟨sound', iff_of_true consistent' nofun⟩
    | some room =>
      have there : user ∉ found.gone := by rwa [gone]
      have held := present room rfl
      refine ⟨sound_writeTo (sound_addUser sound' held there) room, ?_⟩
      dsimp only
      rw [consistent_writeTo_iff, consistent_addUser_iff consistent' held there]
      constructor
      · intro joins room' given
        exact Option.some_inj.mp given ▸ joins
      · exact fun joins => joins room rfl

/-- When an input leaves the lists and the pointers in agreement. -/
def Listed (s : Rooms) : Input → Prop
  | .joinRoom user roomId categoryId => ∀ room, (s.prepared roomId categoryId).2 = some room →
      (s.prepared roomId categoryId).1.Joins room user
  | .addUser room user => s.Joins room user
  | .removeUser room user => s.Absent room user
  | .createRoom _ | .removeRoom _ | .hold _ | .release _ | .expire _ => True

/-- A destroyed user leaves its entry in the list, which does not count any more. -/
theorem expired_kept (sound : s.Sound) (consistent : s.Consistent) (user : UserPtr) :
    (s.expired user).Sound ∧ (s.expired user).Consistent := by
  -- No room gains a reference when a pointer goes away.
  have pointers : ∀ holder, (s.expired user).mRoom.lookup holder =
      if holder = user then none else s.mRoom.lookup holder := by
    intro holder
    unfold expired
    split
    · rename_i same
      rw [same]
      exact AList.lookup_erase _ _
    · rename_i different
      exact AList.lookup_erase_ne different
  have fewer : ∀ room, (s.expired user).referenced room → s.referenced room := by
    intro room there
    refine referenced_of_parts there (fun _ _ found => found)
      (fun held => @referenced_of_held s room held) fun holder points => ?_
    rw [pointers] at points
    split at points
    · cases points
    · exact referenced_of_pointer points
  constructor
  · refine ⟨fun room there => sound.made room (fewer room there), ?_, sound.filed⟩
    intro holder room points
    rw [pointers] at points
    split at points
    · cases points
    · rename_i different
      exact List.not_mem_cons_of_ne_of_not_mem different (sound.pointing holder room points)
  · rw [consistent_iff]
    intro holder room alive there
    have alive : holder ∉ user :: s.gone := alive
    rw [List.mem_cons, not_or] at alive
    rw [pointers, if_neg alive.1]
    exact consistent.agree holder room alive.2 (fewer room there)

/-- One input keeps the agreement exactly when it is of the kind that does. -/
theorem act_consistent_iff (sound : s.Sound) (consistent : s.Consistent) {input : Input}
    (possible : s.possible input) :
    (s.act input).Sound ∧ ((s.act input).Consistent ↔ s.Listed input) := by
  -- Three inputs change who is in a list or where somebody points, and the others only drop rooms.
  have alive : ∀ user : UserPtr, (!s.gone.contains user) → user ∉ s.gone := by
    intro user there
    simpa using there
  cases input with
  | createRoom id =>
    obtain ⟨sound', consistent'⟩ := createRoom_kept sound consistent id
    exact ⟨sound', iff_of_true consistent' trivial⟩
  | removeRoom id =>
    have narrows := narrows_removeRoom s id
    exact ⟨narrows.sound sound, iff_of_true (narrows.consistent consistent) trivial⟩
  | joinRoom user roomId categoryId =>
    exact joinRoom_kept sound consistent (alive user possible) roomId categoryId
  | addUser room user =>
    obtain ⟨held, there⟩ := Bool.and_eq_true_iff.mp possible
    exact ⟨sound_addUser sound held (alive user there),
      consistent_addUser_iff consistent held (alive user there)⟩
  | removeUser room user =>
    obtain ⟨held, _⟩ := Bool.and_eq_true_iff.mp possible
    exact ⟨sound_removeUser sound, consistent_removeUser_iff sound consistent held⟩
  | hold room =>
    -- Whoever takes a reference has one already.
    have same : ∀ other, (s.act (.hold room)).referenced other → s.referenced other := by
      intro other there
      refine referenced_of_parts there (fun _ _ found => found) ?_
        fun user points => @referenced_of_pointer s user other points
      intro held
      rcases List.mem_cons.mp held with rfl | before
      · exact possible
      · exact referenced_of_held before
    refine ⟨⟨fun other there => sound.made other (same other there), sound.pointing, sound.filed⟩,
      iff_of_true (consistent_iff.mpr ?_) trivial⟩
    exact fun user other there held => consistent.agree user other there (same other held)
  | release room =>
    have fewer : ∀ other, (s.letGo room).referenced other → s.referenced other := by
      intro other there
      refine referenced_of_parts there (fun _ _ found => found) ?_
        fun user points => @referenced_of_pointer s user other points
      exact fun held => referenced_of_held (List.mem_of_mem_erase held)
    have sound' : (s.letGo room).Sound :=
      ⟨fun other there => sound.made other (fewer other there), sound.pointing, sound.filed⟩
    have consistent' : (s.letGo room).Consistent := consistent_iff.mpr
      fun user other there held => consistent.agree user other there (fewer other held)
    have narrows := narrows_release (s.letGo room) room
    exact ⟨narrows.sound sound', iff_of_true (narrows.consistent consistent') trivial⟩
  | expire user =>
    obtain ⟨sound', consistent'⟩ := expired_kept sound consistent user
    unfold act
    dsimp only
    split
    · exact ⟨sound', iff_of_true consistent' trivial⟩
    · have narrows := narrows_release (s.expired user)
      exact ⟨(narrows _).sound sound', iff_of_true ((narrows _).consistent consistent') trivial⟩

theorem initial_sound : initial.Sound ∧ initial.Consistent := by
  -- The four rooms are made one by one, from a state without any.
  have made : ∀ ids : List UInt32, ∀ s : Rooms, s.Sound ∧ s.Consistent →
      (ids.foldl (fun s id => ((s.createRoomCategory id).createRoom id).1) s).Sound ∧
        (ids.foldl (fun s id => ((s.createRoomCategory id).createRoom id).1) s).Consistent := by
    intro ids
    induction ids with
    | nil => exact fun _ kept => kept
    | cons id rest ih =>
      intro s ⟨sound, consistent⟩
      refine ih _ (createRoom_kept ?_ ?_ id)
      · exact ⟨sound.made, sound.pointing, sound.filed⟩
      · exact ⟨consistent.once, consistent.agree⟩
  have nobody : ∀ user : UserPtr, (∅ : AList fun _ : UserPtr => RoomPtr).lookup user = none :=
    fun _ => rfl
  refine made _ _ ⟨⟨?_, ?_, ?_⟩, consistent_iff.mpr ?_⟩
  · intro room there
    rw [referenced_iff] at there
    simp [nobody] at there
  · intro user room points
    cases points
  · intro room id user found
    simp at found
  · intro user room _ there
    rw [referenced_iff] at there
    simp [nobody] at there

/--
The users' pointers and the rooms' lists agree all along a run exactly when users are only added
where they leave no trace behind and are only removed from rooms that they are not in.
-/
theorem consistent_iff_listed (inputs : List Input) :
    Runs.Along step (fun s input => s.possible input → s.Listed input) initial inputs ↔
      ∀ front, front <+: inputs → (Runs.final step initial front).Consistent := by
  -- One input at a time keeps the agreement, and the soundness comes with it.
  have kept : ∀ (s : Rooms) input next, s.Sound → s.Consistent → step s input = some next →
      next.Sound := by
    intro s input next sound consistent taken
    obtain ⟨possible, rfl⟩ := step_eq_some_iff.mp taken
    exact (act_consistent_iff sound consistent possible).1
  refine Runs.Along.iff_final kept ?_ ?_ inputs initial_sound.1 initial_sound.2
  · -- What cannot be done is no step of the run.
    intro s input refused possible
    simp [step, possible] at refused
  · intro s input next sound consistent taken
    obtain ⟨possible, rfl⟩ := step_eq_some_iff.mp taken
    rw [(act_consistent_iff sound consistent possible).2]
    exact ⟨fun listed _ => listed, fun listed => listed possible⟩

/-- A user joins one room and then another one, and stays in the list of the first. -/
theorem not_consistent :
    ¬ ∀ inputs : List Input, (Runs.final step initial inputs).Consistent := by
  -- The second request assigns another room and leaves the list of the first alone.
  intro always
  have ended := always [.joinRoom ⟨7, 0⟩ 1 1, .joinRoom ⟨7, 0⟩ 2 1]
  -- Nobody ever takes the user out of the list of the room with the id 1.
  have same : (⟨1, 0⟩ : RoomPtr) = ⟨2, 1⟩ := ended.once ⟨7, 0⟩ ⟨1, 0⟩ ⟨2, 1⟩ (by decide)
    (by decide +kernel) (by decide +kernel) (by unfold contains; decide +kernel)
    (by unfold contains; decide +kernel)
  exact absurd same (by decide)

end Recap.SporeNet.Rooms
