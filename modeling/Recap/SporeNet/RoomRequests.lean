import Recap.SporeNet.RoomMembership

/-! What a request to join a room is answered with, and what an error leaves behind. -/

namespace Recap.SporeNet.Rooms

/-- The errors that a request to join is answered with. -/
inductive JoinError where
  /-- `ROOMS_ERR_NOT_FOUND` -/
  | notFound
  /-- `ROOMS_ERR_CREATE_UNKNOWN_CATEGORY` -/
  | createUnknownCategory
deriving DecidableEq

/-- `RoomsComponent::JoinRoom` with its answer, in which there is an error or none. -/
def joinRoomReply (s : Rooms) (user : UserPtr) (roomId categoryId : UInt32) :
    Rooms × Option JoinError :=
  match s.requested roomId with
  | (s, none) => (s, some .notFound)
  | (s, some room) =>
    match s.categorized categoryId with
    | (s, false) => (s, some .createUnknownCategory)
    | (s, true) => ((s.addUser room user).writeTo room, none)

/-- The rooms, the lists of their users and the user's own room are as they were. -/
structure Untouched (s : Rooms) (user : UserPtr) (after : Rooms) : Prop where
  rooms : ∀ id : UInt32, after.mRooms[id]? = s.mRooms[id]?
  members : ∀ room, s.referenced room → after.mUsers room = s.mUsers room
  room : after.mRoom.lookup user = s.mRoom.lookup user

/-- An error changes nothing. -/
def JoinsAtomically (s : Rooms) (user : UserPtr) (roomId categoryId : UInt32) : Prop :=
  (s.joinRoomReply user roomId categoryId).2.isSome →
    s.Untouched user (s.joinRoomReply user roomId categoryId).1

variable {s : Rooms}

/-- The answer does not change what becomes of the rooms. -/
theorem joinRoomReply_fst (user : UserPtr) (roomId categoryId : UInt32) :
    (s.joinRoomReply user roomId categoryId).1 = s.joinRoom user roomId categoryId := by
  -- The preparation goes through the same cases.
  unfold joinRoomReply joinRoom prepared
  cases s.requested roomId with
  | mk found wanted =>
    cases wanted with
    | none => rfl
    | some room =>
      dsimp only
      cases found.categorized categoryId with
      | mk filed known => cases known <;> rfl

theorem Untouched.refl (user : UserPtr) : s.Untouched user s :=
  ⟨fun _ => rfl, fun _ _ => rfl, rfl⟩

/-- The id behind the last one is only taken where the ids are at their end. -/
theorem registered_createRoom_iff :
    (s.mRooms[(s.createRoom 0).2.mId]?).isSome ↔
      (s.mRooms[(0xFFFFFFFF : UInt32)]?).isSome ∧ (s.mRooms[(0 : UInt32)]?).isSome := by
  -- One more than the last id is larger than all of them, or zero.
  have named : (s.createRoom 0).2.mId = (s.mRooms.keys.getLast?.map (· + 1)).getD 1 := by
    unfold createRoom
    dsimp only
    rw [if_pos rfl]
    split <;> rfl
  rw [named, ← Std.TreeMap.mem_iff_isSome_getElem?, ← Std.TreeMap.mem_iff_isSome_getElem?,
    ← Std.TreeMap.mem_iff_isSome_getElem?]
  cases ends : s.mRooms.keys.getLast? with
  | none =>
    have nobody : ∀ id, id ∉ s.mRooms := by
      intro id present
      have member := Std.TreeMap.mem_keys.mpr present
      rw [List.getLast?_eq_none_iff.mp ends] at member
      cases member
    exact iff_of_false (nobody _) fun both => nobody _ both.1
  | some last =>
    have present : last ∈ s.mRooms := Std.TreeMap.mem_keys.mp (List.mem_of_getLast? ends)
    rw [Option.map_some, Option.getD_some]
    by_cases largest : last = 0xFFFFFFFF
    · subst largest
      exact (and_iff_right present).symm
    · have room : last.toNat ≠ 4294967295 := fun same => largest (UInt32.toNat_inj.mp same)
      have small := last.toNat_lt
      have next : (last + 1).toNat = last.toNat + 1 := by
        have one : (1 : UInt32).toNat = 1 := rfl
        rw [UInt32.toNat_add, one]
        omega
      refine iff_of_false (fun taken => ?_) fun both => ?_
      · have within := UInt32.le_iff_toNat_le.mp (OrderedMap.le_last ends taken)
        omega
      · have within := UInt32.le_iff_toNat_le.mp (OrderedMap.le_last ends both.1)
        have top : (0xFFFFFFFF : UInt32).toNat = 4294967295 := rfl
        omega

/-- Making a room changes the rooms unless there is one under the id already. -/
theorem untouched_createRoom_iff (user : UserPtr) :
    s.Untouched user (s.createRoom 0).1 ↔ (s.mRooms[(s.createRoom 0).2.mId]?).isSome := by
  rcases createRoom_cases s 0 with ⟨address, found, -, same⟩ | ⟨missing, -, made⟩
  · rw [same, found]
    exact iff_of_true (Untouched.refl user) rfl
  · refine iff_of_false (fun untouched => ?_) (by simp [missing])
    have here := untouched.rooms (s.createRoom 0).2.mId
    rw [made, OrderedMap.lookup_insert, if_pos rfl, missing] at here
    cases here

/-- A category is unknown if the request names one that is not there. -/
def UnknownCategory (s : Rooms) (categoryId : UInt32) : Prop :=
  categoryId ≠ 0 ∧ categoryId ∉ s.mRoomCategories

/-- Only a category that is named and unknown is refused, and then nothing is made. -/
theorem categorized_cases (s : Rooms) (categoryId : UInt32) :
    ((s.categorized categoryId).2 = true ∧ ¬ s.UnknownCategory categoryId) ∨
      (s.categorized categoryId = (s, false) ∧ s.UnknownCategory categoryId) := by
  -- The category 0 is none, and any other one is looked up.
  unfold categorized UnknownCategory
  by_cases unnamed : categoryId = 0
  · rw [if_pos unnamed]
    exact .inl ⟨rfl, fun both => both.1 unnamed⟩
  · rw [if_neg unnamed]
    by_cases known : categoryId ∈ s.mRoomCategories
    · exact .inl ⟨Std.TreeSet.contains_iff_mem.mpr known, fun both => both.2 known⟩
    · refine .inr ⟨?_, unnamed, known⟩
      rw [Bool.eq_false_iff.mpr (mt Std.TreeSet.contains_iff_mem.mp known)]

/-- A request that names a room leaves everything as it was when it fails. -/
theorem joinsAtomically_named (s : Rooms) (user : UserPtr) {roomId : UInt32} (named : roomId ≠ 0)
    (categoryId : UInt32) : s.JoinsAtomically user roomId categoryId := by
  -- The room is looked up, and so is a category that is refused.
  unfold JoinsAtomically joinRoomReply requested
  rw [if_neg named]
  cases s.getRoom roomId with
  | none => exact fun _ => Untouched.refl user
  | some room =>
    dsimp only
    rcases categorized_cases s categoryId with ⟨accepted, -⟩ | ⟨refused, -⟩
    · revert accepted
      cases s.categorized categoryId with
      | mk filed known =>
        rintro rfl
        exact nofun
    · rw [refused]
      exact fun _ => Untouched.refl user

/-- A request that names no room has made one before its category is refused. -/
theorem joinsAtomically_unnamed (s : Rooms) (user : UserPtr) (categoryId : UInt32) :
    s.JoinsAtomically user 0 categoryId ↔
      (s.UnknownCategory categoryId → s.Untouched user (s.createRoom 0).1) := by
  -- The categories are not changed by the new room, so the same ones are unknown.
  have filed : (s.createRoom 0).1.mRoomCategories = s.mRoomCategories := by
    rcases createRoom_cases s 0 with ⟨_, _, _, same⟩ | ⟨_, _, made⟩
    · rw [same]
    · rw [made]
  have unknown : (s.createRoom 0).1.UnknownCategory categoryId ↔ s.UnknownCategory categoryId := by
    unfold UnknownCategory
    rw [filed]
  unfold JoinsAtomically joinRoomReply requested
  rw [if_pos rfl, ← unknown]
  dsimp only
  rcases categorized_cases (s.createRoom 0).1 categoryId with ⟨accepted, known⟩ | ⟨refused, missing⟩
  · revert accepted
    cases (s.createRoom 0).1.categorized categoryId with
    | mk filed found =>
      rintro rfl
      exact iff_of_true nofun fun missing => absurd missing known
  · rw [refused]
    exact ⟨fun atomic _ => atomic rfl, fun untouched _ => untouched missing⟩

/--
An error changes nothing, unless the request names no room and names a category that is unknown.

Then a room has been made, but where the ids are at their end and the room with the id 0 is there.
-/
theorem joinsAtomically_iff (s : Rooms) (user : UserPtr) (roomId categoryId : UInt32) :
    s.JoinsAtomically user roomId categoryId ↔
      (roomId = 0 → s.UnknownCategory categoryId →
        (s.mRooms[(0xFFFFFFFF : UInt32)]?).isSome ∧ (s.mRooms[(0 : UInt32)]?).isSome) := by
  by_cases unnamed : roomId = 0
  · subst unnamed
    rw [joinsAtomically_unnamed, untouched_createRoom_iff, registered_createRoom_iff]
    exact ⟨fun made _ => made, fun made => made rfl⟩
  · exact iff_of_true (joinsAtomically_named s user unnamed categoryId) fun same => absurd same unnamed

/-- The new room stays behind when the category is refused. -/
theorem not_joinsAtomically :
    ¬ ∀ (s : Rooms) (user : UserPtr) (roomId categoryId : UInt32),
      s.JoinsAtomically user roomId categoryId := by
  intro always
  have untouched := always initial ⟨7, 0⟩ 0 9 (by decide)
  exact absurd (untouched.rooms 5) (by decide)

end Recap.SporeNet.Rooms
