import Recap.SporeNet.RoomMembership

/-! When a room that goes takes no other room's entry out of the manager. -/

namespace Recap.SporeNet.Rooms

variable {s s' : Rooms} {room : RoomPtr}

/-- No removal so far took away anything but the room that it was about. -/
def Identified (s : Rooms) : Prop := ∀ removal ∈ s.removals, removal.Exact

/-- No other room is registered under the id of the room. -/
def Sole (s : Rooms) (room : RoomPtr) : Prop :=
  ∀ address, s.mRooms[room.mId]? = some address → address = room.address

/-- Erasing by the id is exact if nobody else has the id. -/
theorem exact_erase_iff (before : Registry) (room : RoomPtr) :
    (Removal.mk room before (before.erase room.mId)).Exact ↔
      ∀ address, before[room.mId]? = some address → address = room.address := by
  unfold Removal.Exact
  constructor
  · intro exact address found
    have here := exact room.mId
    simp only [OrderedMap.lookup_erase, if_true, true_and, found] at here
    -- The entry is gone, which is right for the room itself only.
    by_contra different
    rw [if_neg fun same => different (Option.some_inj.mp same)] at here
    cases here
  · intro sole id
    simp only [OrderedMap.lookup_erase]
    by_cases same : room.mId = id
    · subst same
      rw [if_pos rfl]
      cases found : before[room.mId]? with
      | none => split <;> rfl
      | some address => rw [if_pos ⟨rfl, congrArg some (sole address found)⟩]
    · rw [if_neg same, if_neg fun both => same both.1.symm]

theorem removeRoom_mRooms (s : Rooms) (id other : UInt32) :
    (s.removeRoom id).mRooms[other]? = (s.mRooms.erase id)[other]? := by
  -- A room that is not registered is as good as erased.
  unfold removeRoom
  split
  · rename_i missing
    rw [OrderedMap.lookup_erase]
    split
    · rename_i same
      rw [← same, missing]
    · rfl
  · dsimp only
    split <;> rfl

/-- Only the lookups of the two registries matter. -/
theorem exact_congr {before after after' : Registry}
    (same : ∀ id : UInt32, after[id]? = after'[id]?) :
    (Removal.mk room before after).Exact ↔ (Removal.mk room before after').Exact := by
  unfold Removal.Exact
  exact forall_congr' fun id => by rw [same id]

theorem identified_logged (removal : Removal) :
    (s.logged removal).Identified ↔ removal.Exact ∧ s.Identified := by
  -- The list of removals has one more at its front.
  unfold Identified logged
  exact List.forall_mem_cons

/-- Taking a room out by its id is exact, and so is what the removed room does as it goes. -/
theorem identified_removeRoom (id : UInt32) : (s.removeRoom id).Identified ↔ s.Identified := by
  -- The room's own end is the second removal, and it comes when its id is free already.
  unfold removeRoom
  split
  · exact Iff.rfl
  · rename_i address found
    dsimp only
    split
    · exact Iff.rfl
    · rw [identified_logged, exact_erase_iff]
      refine and_iff_right ?_
      -- Nothing is left under the id.
      intro other still
      simp at still

/-- A removal that a room asks for is exact when no other room has its id. -/
theorem identified_removal_iff :
    ((s.removeRoom room.mId).logged ⟨room, s.mRooms, (s.removeRoom room.mId).mRooms⟩).Identified ↔
      s.Identified ∧ s.Sole room := by
  -- The removal itself is exact or not, and what it makes of the registry is an erasure.
  rw [identified_logged, identified_removeRoom, exact_congr (removeRoom_mRooms s room.mId),
    exact_erase_iff]
  exact and_comm

/-- The last reference to a room may go while no other room has its id. -/
def Released (s : Rooms) (room : RoomPtr) : Prop := s.referenced room = false → s.Sole room

theorem identified_release_iff :
    (s.release room).Identified ↔ s.Identified ∧ s.Released room := by
  -- Only a room that nobody refers to any more removes itself.
  unfold release Released
  split
  · rename_i there
    rw [there]
    exact (and_iff_left nofun).symm
  · rename_i lost
    rw [Bool.not_eq_true] at lost
    rw [destroy, identified_removal_iff, lost]
    exact and_congr_right fun _ => ⟨fun sole _ => sole, fun sole => sole rfl⟩

/-- A room that was looked up may go when whatever was found may. -/
theorem identified_release_found_iff {old : RoomPtr} : (s.release old).Identified ↔
    s.Identified ∧ ∀ other, some old = some other → s.Released other := by
  rw [identified_release_iff]
  refine and_congr_right fun _ => ?_
  constructor
  · intro released other same
    exact Option.some_inj.mp same ▸ released
  · exact fun released => released old rfl

/-- The user may leave its old room for another one. -/
def Leaves (s : Rooms) (room : RoomPtr) (user : UserPtr) : Prop :=
  ∀ old, s.mRoom.lookup user = some old → (s.assigned user room).Released old

theorem identified_addUser_iff (user : UserPtr) :
    (s.addUser room user).Identified ↔ s.Identified ∧ s.Leaves room user := by
  -- The lists have no part in removals.
  change (s.setRoom user room).Identified ↔ _
  unfold setRoom Leaves
  cases s.mRoom.lookup user with
  | none => exact (and_iff_left nofun).symm
  | some old => exact identified_release_found_iff

theorem identified_removeUser_iff (user : UserPtr) :
    (s.removeUser room user).Identified ↔
      s.Identified ∧ (((s.without room user).mUsers room).isEmpty → s.Sole room) := by
  -- The room is removed when its list is empty, and is left alone otherwise.
  unfold removeUser
  dsimp only
  split
  · rename_i empty
    rw [identified_removal_iff]
    exact and_congr_right fun _ => ⟨fun sole _ => sole, fun sole => sole empty⟩
  · rename_i others
    exact (and_iff_left fun empty => absurd empty others).symm

theorem prepared_removals (roomId categoryId : UInt32) :
    (s.prepared roomId categoryId).1.removals = s.removals := by
  -- Making a room or a category removes nothing.
  apply @prepared_of_steps s fun s' => s'.removals = s.removals
  · -- A room that is made is registered, and takes nobody out.
    unfold requested
    split
    · rcases createRoom_cases s 0 with ⟨_, _, _, same⟩ | ⟨_, _, made⟩
      · rw [same]
      · rw [made]
    · rfl
  · intro found same
    rw [← same]
    unfold categorized
    split <;> rfl

theorem identified_joinRoom_iff (user : UserPtr) (roomId categoryId : UInt32) :
    (s.joinRoom user roomId categoryId).Identified ↔ s.Identified ∧
      ∀ room, (s.prepared roomId categoryId).2 = some room →
        (s.prepared roomId categoryId).1.Leaves room user := by
  -- A request without a room does nothing more, and with one it adds the user.
  have same := @prepared_removals s roomId categoryId
  have before : (s.prepared roomId categoryId).1.Identified ↔ s.Identified := by
    unfold Identified
    rw [same]
  unfold joinRoom
  revert before
  cases s.prepared roomId categoryId with
  | mk found wanted =>
    intro before
    cases wanted with
    | none =>
      rw [and_iff_left nofun]
      exact before
    | some room =>
      -- Writing the list out has no part in removals either.
      change (found.addUser room user).Identified ↔ _
      rw [identified_addUser_iff, before]
      refine and_congr_right fun _ => ?_
      constructor
      · intro leaves other given
        exact Option.some_inj.mp given ▸ leaves
      · exact fun leaves => leaves room rfl

/-- When an input takes no other room's entry out of the manager. -/
def Recognised (s : Rooms) : Input → Prop
  | .createRoom _ | .removeRoom _ | .hold _ => True
  | .joinRoom user roomId categoryId => ∀ room, (s.prepared roomId categoryId).2 = some room →
      (s.prepared roomId categoryId).1.Leaves room user
  | .addUser room user => s.Leaves room user
  | .removeUser room user => ((s.without room user).mUsers room).isEmpty → s.Sole room
  | .release room => (s.letGo room).Released room
  | .expire user => ∀ old, s.mRoom.lookup user = some old → (s.expired user).Released old

theorem act_identified_iff (input : Input) :
    (s.act input).Identified ↔ s.Identified ∧ s.Recognised input := by
  -- Every input is one of the operations above, and the making of a room removes none.
  cases input with
  | createRoom id =>
    have same : (s.createRoom id).1.Identified ↔ s.Identified := by
      rcases createRoom_cases s id with ⟨_, _, _, same⟩ | ⟨_, _, made⟩
      · rw [same]
      · rw [made]
        exact Iff.rfl
    exact same.trans (and_iff_left trivial).symm
  | removeRoom id => exact (identified_removeRoom id).trans (and_iff_left trivial).symm
  | hold room => exact (and_iff_left trivial).symm
  | joinRoom user roomId categoryId => exact identified_joinRoom_iff user roomId categoryId
  | addUser room user => exact identified_addUser_iff user
  | removeUser room user => exact identified_removeUser_iff user
  | release room => exact identified_release_iff
  | expire user =>
    unfold act Recognised
    dsimp only
    cases s.mRoom.lookup user with
    | none => exact (and_iff_left nofun).symm
    | some old => exact identified_release_found_iff

/--
Rooms that go take only themselves out of the manager, all along a run, exactly when no room loses
its last reference, and none is left by its last user, while another one has its id.
-/
theorem identified_iff_recognised (inputs : List Input) :
    Runs.Along step (fun s input => s.possible input → s.Recognised input) initial inputs ↔
      ∀ front, front <+: inputs → (Runs.final step initial front).Identified := by
  -- The removals of a run are those of its steps, so no invariant is needed.
  have kept : ∀ (s : Rooms) input next, True → s.Identified → step s input = some next → True :=
    fun _ _ _ _ _ _ => trivial
  have start : initial.Identified := by
    intro removal member
    cases member
  refine Runs.Along.iff_final kept ?_ ?_ inputs trivial start
  · -- What cannot be done is no step of the run.
    intro s input refused possible
    simp [step, possible] at refused
  · intro s input next _ identified taken
    obtain ⟨possible, rfl⟩ := step_eq_some_iff.mp taken
    rw [act_identified_iff, and_iff_right identified]
    exact ⟨fun recognised _ => recognised, fun recognised => recognised possible⟩

/--
The first user leaves a room that it made, so that its id is free for the room of the second user,
and then joins another one: the end of the first room unregisters the second.
-/
theorem not_identified :
    ¬ ∀ inputs : List Input, (Runs.final step initial inputs).Identified := by
  intro always
  have ended := always [.joinRoom ⟨7, 0⟩ 0 1, .removeUser ⟨5, 4⟩ ⟨7, 0⟩, .joinRoom ⟨8, 1⟩ 0 1,
    .joinRoom ⟨7, 0⟩ 1 1]
  -- The room with the id 5 that the last removal was about was not registered any more.
  have exact := List.all_eq_true.mpr fun removal member => beq_iff_eq.mpr (ended removal member 5)
  exact absurd exact (by decide +kernel)

end Recap.SporeNet.Rooms
