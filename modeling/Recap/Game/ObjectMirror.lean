import Recap.Game.ObjectData
import Recap.Lib.Runs
import Recap.Lib.Tracked

/-! What a client knows of an object, and which changes it is not told. -/

namespace Recap.Game

open Recap.RakNet Recap.Runs ObjectDataBits

/-! ### A reflection tells the fields that are marked -/

namespace ObjectWire

variable (wire : ObjectWire)

/-- Every field of a reflection is taken over, and no other one. -/
theorem foldl_receiveField (object : ObjectData) (fields : List ObjectDataBits) (copy : ObjectCopy) :
    (fields.map (wire.reflected object)).foldl wire.receiveField copy =
      fun field => if field ∈ fields then some (object.value field) else copy field := by
  induction fields generalizing copy with
  | nil =>
    funext field
    simp
  | cons head rest ih =>
    have taken : wire.receiveField copy (wire.reflected object head) =
        Function.update copy head (some (object.value head)) := by
      unfold receiveField reflected
      rw [dif_pos head.isLt]
      simp only [Fin.eta, (wire.layout head).value_bits]
    rw [List.map_cons, List.foldl_cons, ih, taken]
    funext field
    by_cases later : field ∈ rest
    · simp [later]
    · by_cases same : field = head
      · subst same
        simp
      · simp [later, same]

/-- The packet is read as the fields that are marked, and nothing behind them. -/
theorem decode_packet (object : ObjectData) :
    Reflection.decode wire.byte wire.word fieldWidth 23 (wire.packet object) =
      some (((List.finRange 23).filter fun field => field ∈ object.mDataBits).map
        (wire.reflected object), []) := by
  -- With more than 16 fields, each one stands behind its number, and a terminator behind them all.
  have within : ∀ field ∈ ((List.finRange 23).filter fun field => field ∈ object.mDataBits).map
      (wire.reflected object), field.1 < 23 ∧ field.2.length = fieldWidth field.1 := by
    intro field member
    obtain ⟨bit, -, rfl⟩ := List.mem_map.mp member
    refine ⟨bit.isLt, ?_⟩
    unfold reflected fieldWidth
    rw [dif_pos bit.isLt]
    exact (wire.layout bit).length_bits _
  unfold packet writeReflection
  rw [Reflection.serialize_tagged (show 23 > 16 by decide)]
  simp only [BitStream.writeBits_writeOffset, Nat.add_sub_cancel_left, BitStream.slice_writeBits]
  unfold Reflection.decode
  rw [if_neg (by decide), if_neg (by decide)]
  have read := @Reflection.decodeTags_append wire.byte fieldWidth 23 _ (show 23 > 16 by decide)
    (show 23 ≤ 255 by decide) within []
  rwa [List.append_nil] at read

theorem receive_packet (object : ObjectData) (copy : ObjectCopy) :
    wire.receive copy (wire.packet object) = fun field =>
      if field ∈ object.mDataBits then some (object.value field) else copy field := by
  unfold receive
  rw [decode_packet]
  simp only [foldl_receiveField, List.mem_filter, List.mem_finRange, true_and, decide_eq_true_eq]

end ObjectWire

namespace ObjectSession

variable (wire : ObjectWire)

/-! ### The session as a record and its copy -/

/-- The object as a record, of which the client has a copy. -/
def tracked (session : ObjectSession) : Tracked FieldValue where
  value := session.object.value
  dirty := session.object.mDataBits
  copy := session.client
  since := session.since

/-- The client has the value of each field that was set since it joined and is not still to be sent. -/
def UpToDate (session : ObjectSession) : Prop :=
  ∀ field ∈ session.since, field ∉ session.object.mDataBits →
    session.client field = some (session.object.value field)

/-- A packet tells the client what is marked. -/
theorem send_tracked (session : ObjectSession) :
    (session.send wire).tracked = session.tracked.tell := by
  unfold send tracked Tracked.tell
  simp only [ObjectWire.receive_packet]
  rfl

/-- A record without marked fields has nothing to tell. -/
theorem tell_of_clean {session : ObjectSession} (clean : session.object.mDataBits = ∅) :
    session.tracked.tell = session.tracked := by
  unfold tracked Tracked.tell
  simp [clean]

/-- An announcement or an update tells all that is marked, or it does nothing. -/
theorem sendObjectCreate_tracked (session : ObjectSession) :
    (session.sendObjectCreate wire).1.tracked = session.tracked.tell ∨
      (session.sendObjectCreate wire).1.tracked = session.tracked := by
  unfold sendObjectCreate
  split
  · exact .inr rfl
  · split
    · exact .inr rfl
    · exact .inl (send_tracked wire { session with created := true })

/-- What the announcement has told is not told again by the update behind it. -/
theorem sendObjectUpdate_tracked (session : ObjectSession) :
    (session.sendObjectUpdate wire).tracked = session.tracked.tell ∨
      (session.sendObjectUpdate wire).tracked = session.tracked := by
  unfold sendObjectUpdate sendObjectCreate
  by_cases started : session.mGameStarted
  swap
  · simp [started]
  by_cases created : session.created
  · by_cases clean : session.object.mDataBits = ∅
    · simp [started, created, clean]
    · simp [started, created, clean, send_tracked]
  · left
    simp only [started, created, Bool.not_true, Bool.false_eq_true, if_false]
    exact send_tracked wire { session with created := true }

/-! ### What a call changes -/

/-- The fields that some setter marks. -/
def settable : Finset ObjectDataBits :=
  {team, playerControlled, inputSyncStamp, playerIndex, linearVelocity, angularVelocity, position,
    orientation, scale, visible, hasCollision, ownerId, movementType, interactableState, markerId}

/-- Only settable fields were set. -/
def OnlySettable (session : ObjectSession) : Prop := session.since ⊆ settable

theorem marks_settable (call : ObjectCall) : call.marks ⊆ settable := by
  cases call <;> simp only [ObjectCall.marks] <;> decide

/-- The bits of an object are set by what a call marks. -/
theorem apply_mDataBits (object : ObjectData) (call : ObjectCall) :
    (call.apply object).mDataBits = object.mDataBits ∪ call.marks := by
  cases call with
  | setPositionSimulated _ => exact (Finset.union_empty _).symm
  | sendAnimationState _ _ overlay => cases overlay <;> exact (Finset.union_empty _).symm
  | sendObjectGfxState _ _ => exact (Finset.union_empty _).symm
  | ownerExpired => exact (Finset.union_empty _).symm
  | setPlayerIndex _ =>
    ext field
    simp [ObjectCall.apply, ObjectCall.marks, ObjectData.setPlayerIndex, ObjectData.setField]
    tauto
  | _ => exact (Finset.insert_eq _ _).trans (Finset.union_comm _ _)

/-- A call changes an object as a record. -/
theorem call_tracked (session : ObjectSession) (call : ObjectCall) :
    (session.next wire (.call call)).tracked =
      session.tracked.change (call.apply session.object).value call.marks := by
  unfold next tracked Tracked.change
  simp only [apply_mDataBits]

/-- One field is what it was among others exactly when it is not among them, or is set to that. -/
theorem slip_kept_iff {object : ObjectData} {field : ObjectDataBits} {value : FieldValue field}
    {among : ObjectDataBits → Prop} :
    (∀ other, among other → (object.slip field value).value other = object.value other) ↔
      (among field → value = object.value field) := by
  constructor
  · intro kept inside
    simpa [ObjectData.slip] using kept field inside
  · intro same other inside
    by_cases here : other = field
    · subst here
      simpa [ObjectData.slip] using same inside
    · exact Function.update_of_ne here _ _

/--
A call that the client misses nothing of.

A simulated move goes unmarked, and so does the end of the owner. They count once the field is known
to the client and not to be sent anyway.
-/
def Told (session : ObjectSession) : ObjectInput → Prop
  | .call (.setPositionSimulated value) =>
    position ∈ session.since ∧ position ∉ session.object.mDataBits →
      value = session.object.value position
  | .call .ownerExpired =>
    ownerId ∈ session.since ∧ ownerId ∉ session.object.mDataBits →
      0 = session.object.value ownerId
  | _ => True

/-- What the client would miss of a call is what a simulated move or the end of the owner changes. -/
theorem kept_iff_told {session : ObjectSession} (only : session.OnlySettable) (call : ObjectCall) :
    (∀ field ∈ session.since, field ∉ session.object.mDataBits → field ∉ call.marks →
      (call.apply session.object).value field = session.object.value field) ↔
        session.Told (.call call) := by
  have other : ∀ {field}, field ∈ session.since → ∀ {unset}, unset ∉ settable → field ≠ unset :=
    fun known _ unset same => unset (same ▸ only known)
  cases call with
  | setPositionSimulated value =>
    simp only [ObjectCall.marks, Finset.notMem_empty, not_false_eq_true, forall_const, ← and_imp]
    exact slip_kept_iff
  | ownerExpired =>
    simp only [ObjectCall.marks, Finset.notMem_empty, not_false_eq_true, forall_const, ← and_imp]
    exact slip_kept_iff
  | sendAnimationState state timestamp overlay =>
    -- No setter marks what an animation changes, so the client knows nothing of it.
    refine iff_of_true (fun field known _ _ => ?_) trivial
    cases overlay with
    | true => rfl
    | false =>
      exact (Function.update_of_ne (other known (by decide)) _ _).trans
        (Function.update_of_ne (other known (by decide)) _ _)
  | sendObjectGfxState state timestamp =>
    refine iff_of_true (fun field known _ _ => ?_) trivial
    exact (Function.update_of_ne (other known (by decide)) _ _).trans
      (Function.update_of_ne (other known (by decide)) _ _)
  | setPlayerIndex value =>
    refine iff_of_true (fun field _ _ unmarked => ?_) trivial
    simp only [ObjectCall.marks, Finset.mem_insert, Finset.mem_singleton, not_or] at unmarked
    exact (Function.update_of_ne unmarked.2 _ _).trans (Function.update_of_ne unmarked.1 _ _)
  | _ =>
    -- The one field that changes is the one that is marked.
    exact iff_of_true (fun field _ _ unmarked =>
      Function.update_of_ne (mt Finset.mem_singleton.mpr unmarked) _ _) trivial

/-! ### Runs -/

theorem next_onlySettable {session : ObjectSession} (only : session.OnlySettable)
    (input : ObjectInput) : (session.next wire input).OnlySettable := by
  unfold OnlySettable at *
  cases input with
  | call call => exact Finset.union_subset only (marks_settable call)
  | onPlayerStart loaded => exact only
  | join => exact Finset.empty_subset _
  | sendObjectCreate =>
    rcases sendObjectCreate_tracked wire session with same | same <;>
      exact (congrArg Tracked.since same).subset.trans only
  | sendObjectUpdate =>
    rcases sendObjectUpdate_tracked wire session with same | same <;>
      exact (congrArg Tracked.since same).subset.trans only

/-- A step keeps the client up to date exactly when the client misses nothing of it. -/
theorem next_upToDate_iff {session : ObjectSession} (only : session.OnlySettable)
    (upToDate : session.UpToDate) (input : ObjectInput) :
    (session.next wire input).UpToDate ↔ session.Told input := by
  have before : session.tracked.UpToDate := upToDate
  have told : ∀ after : ObjectSession, after.tracked = session.tracked.tell ∨
      after.tracked = session.tracked → after.UpToDate := by
    intro after cases_
    change after.tracked.UpToDate
    rcases cases_ with same | same
    · rw [same]
      exact before.tell
    · rw [same]
      exact before
  cases input with
  | call call =>
    change (session.next wire (.call call)).tracked.UpToDate ↔ _
    rw [call_tracked, before.change_iff]
    exact kept_iff_told only call
  | onPlayerStart loaded => exact iff_of_true upToDate trivial
  | join => exact iff_of_true (Tracked.renew_upToDate session.tracked) trivial
  | sendObjectCreate => exact iff_of_true (told _ (sendObjectCreate_tracked wire session)) trivial
  | sendObjectUpdate => exact iff_of_true (told _ (sendObjectUpdate_tracked wire session)) trivial

/--
In every state of a run the client has the value of each field that was set since it joined and is
not still to be sent, exactly when no simulated move and no end of an owner changes such a field.

What the client has is what it reads out of the bits of the packets.
-/
theorem upToDate_iff_told (value : ∀ field, FieldValue field) (inputs : List ObjectInput) :
    Along (step wire) Told (initial value) inputs ↔
      ∀ front, front <+: inputs → (final (step wire) (initial value) front).UpToDate := by
  have initially : (initial value).OnlySettable := Finset.empty_subset settable
  refine Along.iff_final ?_ ?_ ?_ inputs initially ?_
  · intro session input next only _ taken
    obtain rfl : session.next wire input = next := Option.some_inj.mp taken
    exact next_onlySettable wire only input
  · intro session input refused
    cases refused
  · intro session input next only upToDate taken
    obtain rfl : session.next wire input = next := Option.some_inj.mp taken
    exact next_upToDate_iff wire only upToDate input
  · intro field known
    exact absurd known (Finset.notMem_empty field)

end ObjectSession
end Recap.Game
