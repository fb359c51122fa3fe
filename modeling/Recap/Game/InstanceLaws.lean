import Recap.Game.Instance

/-! What the operations on the instance's objects do to what its clients have been told. -/

namespace Recap.Game.Instance

open Recap.RakNet Recap.Runs

section History

variable {Address : Type}

/-- A client was sent the creation of an object on the connection that it still has. -/
def Announced (address : Address) (object : ObjectPtr) : List (ObjectEvent Address) → Prop
  | [] => False
  | .create receiver whose :: earlier =>
    receiver = address ∧ whose = object ∨ Announced address object earlier
  | .disconnected leaving :: earlier => leaving ≠ address ∧ Announced address object earlier
  | .update _ _ _ :: earlier => Announced address object earlier
  | .delete _ _ :: earlier => Announced address object earlier

instance decidableAnnounced [DecidableEq Address] (address : Address) (object : ObjectPtr) :
    (history : List (ObjectEvent Address)) → Decidable (Announced address object history)
  | [] => isFalse id
  | .create receiver whose :: earlier =>
    have := decidableAnnounced address object earlier
    inferInstanceAs (Decidable (receiver = address ∧ whose = object ∨ _))
  | .disconnected leaving :: earlier =>
    have := decidableAnnounced address object earlier
    inferInstanceAs (Decidable (leaving ≠ address ∧ _))
  | .update _ _ _ :: earlier => decidableAnnounced address object earlier
  | .delete _ _ :: earlier => decidableAnnounced address object earlier

/-- No update of an object went to a client, on its connection, before the creation. -/
def UpdatesFollow (address : Address) (object : ObjectPtr) : List (ObjectEvent Address) → Prop
  | [] => True
  | .update receiver whose _ :: earlier =>
    (receiver = address → whose = object → Announced address object earlier) ∧
      UpdatesFollow address object earlier
  | .disconnected leaving :: earlier => leaving = address ∨ UpdatesFollow address object earlier
  | .create _ _ :: earlier => UpdatesFollow address object earlier
  | .delete _ _ :: earlier => UpdatesFollow address object earlier

/-! ### Events put in front of a history -/

/-- Creations of one object announce it to their receivers, and announce nothing else. -/
theorem announced_creates {address : Address} {object whose : ObjectPtr} (receivers : List Address)
    (earlier : List (ObjectEvent Address)) :
    Announced address whose
        ((receivers.map fun receiver => ObjectEvent.create receiver object).reverse ++ earlier) ↔
      address ∈ receivers ∧ object = whose ∨ Announced address whose earlier := by
  -- The induction follows the receivers, one of whom may be the address.
  induction receivers generalizing earlier with
  | nil => simp
  | cons receiver rest ih =>
    rw [List.map_cons, List.reverse_cons, List.append_assoc, ih]
    simp only [List.singleton_append, Announced, List.mem_cons]
    constructor
    · rintro (⟨member, same⟩ | ⟨here, same⟩ | before)
      · exact Or.inl ⟨Or.inr member, same⟩
      · exact Or.inl ⟨Or.inl here.symm, same⟩
      · exact Or.inr before
    · rintro (⟨here | member, same⟩ | before)
      · exact Or.inr (Or.inl ⟨here.symm, same⟩)
      · exact Or.inl ⟨member, same⟩
      · exact Or.inr (Or.inr before)

/-- Creations come before no update. -/
theorem updatesFollow_creates {address : Address} {object whose : ObjectPtr}
    (receivers : List Address) (earlier : List (ObjectEvent Address)) :
    UpdatesFollow address whose
        ((receivers.map fun receiver => ObjectEvent.create receiver object).reverse ++ earlier) ↔
      UpdatesFollow address whose earlier := by
  induction receivers generalizing earlier with
  | nil => exact Iff.rfl
  | cons receiver rest ih =>
    rw [List.map_cons, List.reverse_cons, List.append_assoc, ih]
    exact Iff.rfl

/-- Updates and deletions announce nothing. -/
theorem announced_quiet {address : Address} {object : ObjectPtr}
    {recent : List (ObjectEvent Address)}
    (quiet : ∀ event ∈ recent, (∃ receiver whose flag, event = .update receiver whose flag) ∨
      ∃ receiver whose, event = .delete receiver whose)
    (earlier : List (ObjectEvent Address)) :
    Announced address object (recent ++ earlier) ↔ Announced address object earlier := by
  -- The induction follows the recent events, none of which creates an object.
  induction recent with
  | nil => exact Iff.rfl
  | cons event rest ih =>
    have later := ih fun event member => quiet event (List.mem_cons_of_mem _ member)
    rcases quiet event List.mem_cons_self with ⟨receiver, whose, flag, rfl⟩ | ⟨receiver, whose, rfl⟩
    · exact later
    · exact later

/-- Deletions come before no update. -/
theorem updatesFollow_deletes {address : Address} {object : ObjectPtr}
    {recent : List (ObjectEvent Address)}
    (deletes : ∀ event ∈ recent, ∃ receiver whose, event = .delete receiver whose)
    (earlier : List (ObjectEvent Address)) :
    UpdatesFollow address object (recent ++ earlier) ↔ UpdatesFollow address object earlier := by
  induction recent with
  | nil => exact Iff.rfl
  | cons event rest ih =>
    obtain ⟨receiver, whose, rfl⟩ := deletes event List.mem_cons_self
    exact ih fun event member => deletes event (List.mem_cons_of_mem _ member)

/-- Updates of one object follow its creation when the object has been announced before them. -/
theorem updatesFollow_updates {address : Address} {object whose : ObjectPtr}
    {recent : List (ObjectEvent Address)}
    (updates : ∀ event ∈ recent, ∃ receiver flag, event = .update receiver object flag)
    {earlier : List (ObjectEvent Address)} (follow : UpdatesFollow address whose earlier)
    (known : object = whose → Announced address whose earlier) :
    UpdatesFollow address whose (recent ++ earlier) := by
  -- The induction follows the updates, before all of which the object was announced.
  induction recent with
  | nil => exact follow
  | cons event rest ih =>
    have later := fun event member => updates event (List.mem_cons_of_mem _ member)
    obtain ⟨receiver, flag, rfl⟩ := updates event List.mem_cons_self
    refine ⟨fun _ same => ?_, ih later⟩
    refine (announced_quiet (fun event member => ?_) earlier).mpr (known same)
    obtain ⟨receiver, flag, rfl⟩ := later event member
    exact Or.inl ⟨receiver, object, flag, rfl⟩

theorem updatesFollow_of_append {address : Address} {object whose : ObjectPtr}
    {recent : List (ObjectEvent Address)}
    (updates : ∀ event ∈ recent, ∃ receiver flag, event = .update receiver object flag)
    {earlier : List (ObjectEvent Address)}
    (follow : UpdatesFollow address whose (recent ++ earlier)) :
    UpdatesFollow address whose earlier := by
  induction recent with
  | nil => exact follow
  | cons event rest ih =>
    obtain ⟨receiver, flag, rfl⟩ := updates event List.mem_cons_self
    exact ih (fun event member => updates event (List.mem_cons_of_mem _ member)) follow.2

/-- A history without an update of the object has none that comes too early. -/
theorem updatesFollow_of_no_update {address : Address} {object : ObjectPtr}
    {history : List (ObjectEvent Address)}
    (none_ : ∀ receiver flag, .update receiver object flag ∉ history) :
    UpdatesFollow address object history := by
  -- The induction follows the history, in which no event asks for anything.
  induction history with
  | nil => trivial
  | cons event earlier ih =>
    have before := ih fun receiver flag member => none_ receiver flag (List.mem_cons_of_mem _ member)
    cases event with
    | create receiver whose => exact before
    | delete receiver whose => exact before
    | disconnected leaving => exact Or.inr before
    | update receiver whose flag =>
      refine ⟨?_, before⟩
      rintro rfl rfl
      exact absurd List.mem_cons_self (none_ receiver flag)

end History

variable {Address : Type} [LinearOrder Address]

/-- A client was sent the creation of every active object that has been announced, in time. -/
def InStep (game : Instance Address) (address : Address) : Prop :=
  ∀ (object : ObjectPtr) (record : GameObject), game.objects[object]? = some record →
    record.active →
    (record.created → Announced address object game.history) ∧
      UpdatesFollow address object game.history

/-- Every active object but those of a list has been announced. -/
def CreatedBut (game : Instance Address) (left : List ObjectPtr) : Prop :=
  ∀ (object : ObjectPtr) (record : GameObject), game.objects[object]? = some record →
    record.active → record.created ∨ object ∈ left

/-- The history tells of objects that exist, and of creations only if the object is marked so. -/
structure Recorded (game : Instance Address) : Prop where
  announced : ∀ address object, Announced address object game.history →
    ∃ record : GameObject, game.objects[object]? = some record ∧ record.created
  updated : ∀ address object flag, .update address object flag ∈ game.history →
    object < game.objects.length

/--
An operation on objects, which keeps every connected client in step.

A client that is in step afterwards has been so before: what it missed is not made up for.
-/
structure Grows (game next : Instance Address) : Prop where
  server : next.server = game.server
  joined : next.joined = game.joined
  gameStarted : next.gameStarted = game.gameStarted
  levelLoaded : next.levelLoaded = game.levelLoaded
  recorded : game.Recorded → next.Recorded
  inStep : game.Recorded → ∀ address ∈ game.server.clients, game.InStep address →
    next.InStep address
  before : ∀ address, next.InStep address → game.InStep address
  length : game.objects.length ≤ next.objects.length

theorem Grows.refl (game : Instance Address) : game.Grows game :=
  ⟨rfl, rfl, rfl, rfl, id, fun _ _ _ => id, fun _ => id, le_refl _⟩

theorem Grows.trans {game next last : Instance Address} (first : game.Grows next)
    (second : next.Grows last) : game.Grows last where
  -- What is true from the first to the next instance is carried on to the last.
  server := second.server.trans first.server
  joined := second.joined.trans first.joined
  gameStarted := second.gameStarted.trans first.gameStarted
  levelLoaded := second.levelLoaded.trans first.levelLoaded
  recorded := second.recorded ∘ first.recorded
  inStep := by
    intro recorded address connected inStep
    refine second.inStep (first.recorded recorded) address ?_
      (first.inStep recorded address connected inStep)
    rw [first.server]
    exact connected
  before := fun address => first.before address ∘ second.before address
  length := first.length.trans second.length

/-! ### Operations on objects -/

/-- A change that leaves the announcement of an object alone. -/
theorem grows_updateObject (game : Instance Address) (object : ObjectPtr)
    {change : GameObject → GameObject}
    (active : ∀ record, (change record).active = record.active)
    (created : ∀ record, (change record).created = record.created) :
    game.Grows (game.updateObject object change) where
  server := rfl
  joined := rfl
  gameStarted := rfl
  levelLoaded := rfl
  recorded := by
    rintro ⟨announced, updated⟩
    constructor
    · intro address whose known
      obtain ⟨record, present, marked⟩ := announced address whose known
      simp only [updateObject, List.getElem?_modify, present]
      split
      · exact ⟨change record, rfl, by rw [created]; exact marked⟩
      · exact ⟨record, rfl, marked⟩
    · intro address whose flag member
      simp only [updateObject, List.length_modify]
      exact updated address whose flag member
  inStep := by
    intro _ address _ inStep whose record present live
    simp only [updateObject, List.getElem?_modify] at present
    obtain ⟨before, found, rfl⟩ := Option.map_eq_some_iff.mp present
    -- The object was as active and as announced before the change.
    have same := inStep whose before found
    by_cases here : object = whose
    · simp only [here, if_true] at live ⊢
      rw [active] at live
      rw [created]
      exact same live
    · simp only [here, if_false] at live ⊢
      exact same live
  before := by
    intro address inStep whose record found live
    by_cases here : object = whose
    · have same := inStep whose (change record) (by simp [updateObject, here, found])
        (by rw [active]; exact live)
      rw [created] at same
      exact same
    · exact inStep whose record (by simp [updateObject, here, found]) live
  length := by simp [updateObject]

theorem createdBut_updateObject {game : Instance Address} {left : List ObjectPtr}
    (createdBut : game.CreatedBut left) (object : ObjectPtr) {change : GameObject → GameObject}
    (active : ∀ record, (change record).active → record.active)
    (created : ∀ record, record.created → (change record).created) :
    (game.updateObject object change).CreatedBut left := by
  -- The change only touches one record, and leaves that one created if it was.
  intro whose record present live
  simp only [updateObject, List.getElem?_modify] at present
  obtain ⟨before, found, rfl⟩ := Option.map_eq_some_iff.mp present
  split at live
  · refine (createdBut whose before found (active _ live)).imp_left fun marked => ?_
    rw [if_pos ‹_›]
    exact created _ marked
  · refine (createdBut whose before found live).imp_left fun marked => ?_
    rw [if_neg ‹_›]
    exact marked

/-- A new object is unknown to everybody, and so are its updates. -/
theorem grows_createObject (game : Instance Address) (dataBits : Bool)
    (updateFlags : Finset UpdateFlag) : game.Grows (game.createObject dataBits updateFlags).2 where
  -- The new object is behind all others, and no event names it yet.
  server := rfl
  joined := rfl
  gameStarted := rfl
  levelLoaded := rfl
  recorded := by
    rintro ⟨announced, updated⟩
    constructor
    · intro address whose known
      obtain ⟨record, present, marked⟩ := announced address whose known
      refine ⟨record, ?_, marked⟩
      exact (List.getElem?_append_left (List.getElem?_eq_some_iff.mp present).1).trans present
    · intro address whose flag member
      simp only [createObject, List.length_append]
      exact Nat.lt_add_right _ (updated address whose flag member)
  inStep := by
    intro recorded address _ inStep whose record present live
    simp only [createObject] at present ⊢
    rcases Nat.lt_or_ge whose game.objects.length with old | new
    · rw [List.getElem?_append_left old] at present
      exact inStep whose record present live
    · rw [List.getElem?_append_right new] at present
      obtain ⟨-, rfl⟩ := List.getElem?_eq_some_iff.mp present
      refine ⟨fun marked => ?_, updatesFollow_of_no_update fun receiver flag member => ?_⟩
      · simp [GameObject.new] at marked
      · exact absurd (recorded.updated receiver whose flag member) (Nat.not_lt.mpr new)
  before := by
    intro address inStep whose record found live
    refine inStep whose record ?_ live
    exact (List.getElem?_append_left (List.getElem?_eq_some_iff.mp found).1).trans found
  length := by simp [createObject]

theorem createdBut_createObject {game : Instance Address} {left : List ObjectPtr}
    (createdBut : game.CreatedBut left) (dataBits : Bool) (updateFlags : Finset UpdateFlag) :
    (game.createObject dataBits updateFlags).2.CreatedBut (game.objects.length :: left) := by
  -- Only the new object is not created, and it is put in front of those left.
  intro whose record present live
  simp only [createObject] at present
  rcases Nat.lt_or_ge whose game.objects.length with old | new
  · rw [List.getElem?_append_left old] at present
    exact (createdBut whose record present live).imp_right (List.mem_cons_of_mem _)
  · rw [List.getElem?_append_right new] at present
    obtain ⟨single, -⟩ := List.getElem?_eq_some_iff.mp present
    rw [List.length_singleton] at single
    have here : whose = game.objects.length :=
      Nat.le_antisymm (Nat.le_of_sub_eq_zero (Nat.lt_one_iff.mp single)) new
    exact Or.inr (here ▸ List.mem_cons_self)

/--
What announcing an object does: nothing, or its creation goes to every client and the object is
marked.

It does nothing for an object that is announced, and reports success; before the game has started it
does nothing and reports failure.
-/
theorem sendObjectCreate_cases (game : Instance Address) (object : ObjectPtr) :
    (∃ announced, game.sendObjectCreate object = (game, announced) ∧
      (game.gameStarted → ∀ record, game.objects[object]? = some record → record.created) ∧
      (announced → ∃ record, game.objects[object]? = some record ∧ record.created)) ∨
    ∃ record, game.objects[object]? = some record ∧ ¬ record.created ∧ game.gameStarted ∧
      game.sendObjectCreate object =
        ({ game with
            objects := game.objects.modify object fun record =>
              { record with created := true, dataBits := false }
            history := (game.server.clients.keys.map fun address =>
              ObjectEvent.create address object).reverse ++ game.history }, true) := by
  -- Nothing is announced twice, and nothing before the game has started.
  unfold sendObjectCreate
  cases present : game.objects[object]? with
  | none => exact Or.inl ⟨false, rfl, by simp, by simp⟩
  | some record =>
    cases started : game.gameStarted with
    | false => exact Or.inl ⟨false, by simp, by simp, by simp⟩
    | true =>
      cases marked : record.created with
      | false => exact Or.inr ⟨record, rfl, by simp [marked], rfl, by simp [marked]⟩
      | true => exact Or.inl ⟨true, by simp [marked], by simp [marked], by simp [marked]⟩

/-- Announcing an object keeps every connected client in step. -/
theorem grows_sendObjectCreate (game : Instance Address) (object : ObjectPtr) :
    game.Grows (game.sendObjectCreate object).1 := by
  rcases game.sendObjectCreate_cases object with
    ⟨announced, unchanged, -, -⟩ | ⟨record, present, fresh, started, sent⟩
  · rw [unchanged]
    exact Grows.refl game
  rw [sent]
  refine ⟨rfl, rfl, rfl, rfl, ?_, ?_, ?_, by simp⟩
  · rintro ⟨announced, updated⟩
    constructor
    · intro address whose known
      simp only [List.getElem?_modify]
      rcases (announced_creates _ _).mp known with ⟨-, rfl⟩ | before
      · exact ⟨{ record with created := true, dataBits := false }, by simp [present], rfl⟩
      · obtain ⟨other, found, marked⟩ := announced address whose before
        simp only [found]
        split
        · exact ⟨_, rfl, rfl⟩
        · exact ⟨other, rfl, marked⟩
    · intro address whose flag member
      simp only [List.length_modify]
      rcases List.mem_append.mp member with recent | before
      · simp at recent
      · exact updated address whose flag before
  · intro _ address connected inStep whose other found live
    simp only [List.getElem?_modify] at found
    obtain ⟨before, known, rfl⟩ := Option.map_eq_some_iff.mp found
    rw [announced_creates, updatesFollow_creates]
    by_cases here : object = whose
    · simp only [here, if_true] at live
      refine ⟨fun _ => Or.inl ⟨?_, here⟩, (inStep whose before known live).2⟩
      exact Std.TreeMap.mem_keys.mpr connected
    · simp only [here, if_false] at live
      have same := inStep whose before known live
      refine ⟨fun marked => Or.inr (same.1 ?_), same.2⟩
      simpa only [here, if_false] using marked
  · intro address inStep whose other found live
    by_cases here : object = whose
    · -- The object itself was not announced, so nothing was missed of it.
      subst here
      cases Option.some_inj.mp (present.symm.trans found)
      have same := inStep object { record with created := true, dataBits := false }
        (by simp [present]) live
      exact ⟨fun marked => absurd marked fresh, (updatesFollow_creates _ _).mp same.2⟩
    · have same := inStep whose other (by simp [here, found]) live
      rw [announced_creates, updatesFollow_creates] at same
      refine ⟨fun marked => ?_, same.2⟩
      rcases same.1 marked with ⟨-, wrong⟩ | known
      · exact absurd wrong here
      · exact known

/-- In a started game an announced object need not be announced any more. -/
theorem createdBut_sendObjectCreate {game : Instance Address} {object : ObjectPtr}
    {left : List ObjectPtr} (started : game.gameStarted)
    (createdBut : game.CreatedBut (object :: left)) :
    (game.sendObjectCreate object).1.CreatedBut left := by
  -- Either the object was created before, or it is the one that is marked.
  rcases game.sendObjectCreate_cases object with
    ⟨announced, unchanged, marked, -⟩ | ⟨record, present, fresh, -, sent⟩
  · rw [unchanged]
    intro whose other found live
    rcases createdBut whose other found live with done | waiting
    · exact Or.inl done
    · rcases List.mem_cons.mp waiting with rfl | later
      · exact Or.inl (marked started other found)
      · exact Or.inr later
  · rw [sent]
    intro whose other found live
    simp only [List.getElem?_modify] at found
    obtain ⟨before, known, rfl⟩ := Option.map_eq_some_iff.mp found
    by_cases here : object = whose
    · exact Or.inl (by simp [here])
    · simp only [here, if_false] at live
      rcases createdBut whose before known live with done | waiting
      · exact Or.inl (by simpa [here] using done)
      · rcases List.mem_cons.mp waiting with same | later
        · exact absurd same.symm here
        · exact Or.inr later

/-- Update packets keep a client in step that knows the object whose updates they are. -/
theorem grows_sendUpdates {game : Instance Address} {object : ObjectPtr}
    (created : ∃ record, game.objects[object]? = some record ∧ record.created)
    (flags : List (Option UpdateFlag)) : game.Grows (game.sendUpdates object flags) := by
  -- Everything that is put in front of the history is an update of the object.
  have updates : ∀ event ∈ (game.server.clients.keys.flatMap fun address =>
      flags.map fun flag => ObjectEvent.update address object flag).reverse,
      ∃ receiver flag, event = .update receiver object flag := by
    intro event member
    simp only [List.mem_reverse, List.mem_flatMap, List.mem_map] at member
    obtain ⟨receiver, -, flag, -, rfl⟩ := member
    exact ⟨receiver, flag, rfl⟩
  have quiet : ∀ event ∈ (game.server.clients.keys.flatMap fun address =>
      flags.map fun flag => ObjectEvent.update address object flag).reverse,
      (∃ receiver whose flag, event = .update receiver whose flag) ∨
        ∃ receiver whose, event = .delete receiver whose := by
    intro event member
    obtain ⟨receiver, flag, rfl⟩ := updates event member
    exact Or.inl ⟨receiver, object, flag, rfl⟩
  obtain ⟨record, present, marked⟩ := created
  refine ⟨rfl, rfl, rfl, rfl, ?_, ?_, ?_, le_refl _⟩
  · rintro ⟨announced, updated⟩
    refine ⟨fun address whose known => announced address whose ?_, ?_⟩
    · exact (announced_quiet quiet _).mp known
    · intro address whose flag member
      rcases List.mem_append.mp member with recent | before
      · obtain ⟨_, _, same⟩ := updates _ recent
        cases same
        exact (List.getElem?_eq_some_iff.mp present).1
      · exact updated address whose flag before
  · intro _ address _ inStep whose other found live
    obtain ⟨known, follow⟩ := inStep whose other found live
    refine ⟨fun done => (announced_quiet quiet _).mpr (known done), ?_⟩
    refine updatesFollow_updates updates follow ?_
    rintro rfl
    cases Option.some_inj.mp (present.symm.trans found)
    exact known marked
  · intro address inStep whose other found live
    obtain ⟨known, follow⟩ := inStep whose other found live
    exact ⟨fun done => (announced_quiet quiet _).mp (known done),
      updatesFollow_of_append updates follow⟩

/-- What sending an object's updates does when it is defined. -/
theorem sendObjectUpdate_cases {game next : Instance Address} {object : ObjectPtr}
    (sent : game.sendObjectUpdate object = some next) :
    next = (game.sendObjectCreate object).1 ∨
      (game.sendObjectCreate object).2 ∧ ∃ flags, next =
        ((game.sendObjectCreate object).1.sendUpdates object flags).clearUpdates object := by
  -- The update is only sent where the object has been announced.
  unfold sendObjectUpdate at sent
  simp only at sent
  split at sent
  · exact Or.inl (Option.some_inj.mp sent).symm
  · rename_i announced
    split at sent
    · exact Or.inr ⟨by simpa using announced, _, (Option.some_inj.mp sent).symm⟩
    · cases sent

/-- An object whose announcement succeeds is marked as announced. -/
theorem created_of_sendObjectCreate {game : Instance Address} {object : ObjectPtr}
    (announced : (game.sendObjectCreate object).2) :
    ∃ record, (game.sendObjectCreate object).1.objects[object]? = some record ∧ record.created := by
  rcases game.sendObjectCreate_cases object with
    ⟨success, unchanged, -, marked⟩ | ⟨record, present, -, -, sent⟩
  · rw [unchanged] at announced ⊢
    exact marked announced
  · rw [sent]
    exact ⟨{ record with created := true, dataBits := false }, by simp [present], rfl⟩

theorem grows_sendObjectUpdate {game next : Instance Address} {object : ObjectPtr}
    (sent : game.sendObjectUpdate object = some next) : game.Grows next := by
  have first := game.grows_sendObjectCreate object
  rcases sendObjectUpdate_cases sent with rfl | ⟨announced, flags, rfl⟩
  · exact first
  · refine (first.trans (grows_sendUpdates (created_of_sendObjectCreate announced) flags)).trans ?_
    exact grows_updateObject _ object (fun _ => rfl) fun _ => rfl

theorem createdBut_sendObjectUpdate {game next : Instance Address} {object : ObjectPtr}
    {left : List ObjectPtr} (started : game.gameStarted)
    (sent : game.sendObjectUpdate object = some next)
    (createdBut : game.CreatedBut (object :: left)) : next.CreatedBut left := by
  have first := createdBut_sendObjectCreate started createdBut
  rcases sendObjectUpdate_cases sent with rfl | ⟨-, flags, rfl⟩
  · exact first
  · exact createdBut_updateObject first object (fun _ => id) fun _ => id

/-- A longer list of exceptions is a weaker statement. -/
theorem CreatedBut.mono {game : Instance Address} {left more : List ObjectPtr}
    (createdBut : game.CreatedBut left) (subset : left ⊆ more) : game.CreatedBut more :=
  fun object record found live => (createdBut object record found live).imp_right fun member =>
    subset member

/-- A drop is announced as soon as it is made. -/
theorem drop_grows (game : Instance Address) (dataBits : Bool) (updateFlags : Finset UpdateFlag)
    (sends : Bool) :
    game.Grows (game.drop dataBits updateFlags sends) ∧
      (game.gameStarted → game.CreatedBut [] →
        (game.drop dataBits updateFlags sends).CreatedBut []) := by
  -- A drop is a new object, its announcement, and maybe an update of it.
  have makes := game.grows_createObject dataBits updateFlags
  have announces := makes.trans (grows_sendObjectCreate (game.createObject dataBits updateFlags).2
    (game.createObject dataBits updateFlags).1)
  have created : game.gameStarted → game.CreatedBut [] →
      ((game.createObject dataBits updateFlags).2.sendObjectCreate
        (game.createObject dataBits updateFlags).1).1.CreatedBut [] :=
    fun started before =>
      createdBut_sendObjectCreate started (createdBut_createObject before dataBits updateFlags)
  unfold drop
  simp only
  split
  · rename_i announced
    refine ⟨announces.trans (grows_sendUpdates (created_of_sendObjectCreate ?_) _), created⟩
    exact (Bool.and_eq_true_iff.mp announced).1
  · exact ⟨announces, created⟩

/-! ### Loops -/

theorem grows_createAll (game : Instance Address) : game.Grows game.createAll := by
  unfold createAll
  induction game.activeObjects generalizing game with
  | nil => exact Grows.refl game
  | cons object rest ih => exact (game.grows_sendObjectCreate object).trans (ih _)

/-- After the loop over the active objects every one of them is announced. -/
theorem createdBut_createAll {game : Instance Address} (started : game.gameStarted) :
    game.createAll.CreatedBut [] := by
  have waiting : game.CreatedBut game.activeObjects := by
    intro object record found live
    refine Or.inr ?_
    simp only [activeObjects, List.mem_filter, List.mem_range]
    exact ⟨(List.getElem?_eq_some_iff.mp found).1, by simp [found, live]⟩
  unfold createAll
  generalize game.activeObjects = objects at waiting ⊢
  -- Each round takes one object off the list of those that still wait.
  induction objects generalizing game with
  | nil => exact waiting
  | cons object rest ih =>
    refine ih ?_ (createdBut_sendObjectCreate started waiting)
    rw [(game.grows_sendObjectCreate object).gameStarted]
    exact started

theorem grows_spawn (game : Instance Address) (spawned : List (Bool × Finset UpdateFlag)) :
    game.Grows (game.spawn spawned) := by
  unfold spawn
  induction spawned generalizing game with
  | nil => exact Grows.refl game
  | cons marks rest ih => exact (game.grows_createObject marks.1 marks.2).trans (ih _)

theorem grows_sendCharacter {game next : Instance Address} {character : ObjectPtr}
    (sent : game.sendCharacter character = some next) : game.Grows next := by
  have marked : game.Grows (game.updateObject character fun record =>
      record.mark true {UpdateFlag.attributes}) :=
    game.grows_updateObject character (fun _ => rfl) fun _ => rfl
  exact marked.trans (grows_sendObjectUpdate sent)

theorem createdBut_sendCharacter {game next : Instance Address} {character : ObjectPtr}
    (started : game.gameStarted) (created : game.CreatedBut [])
    (sent : game.sendCharacter character = some next) : next.CreatedBut [] := by
  -- Marking a record for an update does not take back that it was created.
  have marked : (game.updateObject character fun record =>
      record.mark true {UpdateFlag.attributes}).CreatedBut [] :=
    createdBut_updateObject created character (fun _ => id) fun _ => id
  have updated : (game.updateObject character fun record =>
      record.mark true {UpdateFlag.attributes}).sendObjectUpdate character = some next := sent
  refine createdBut_sendObjectUpdate ?_ updated (marked.mono (List.nil_subset _))
  exact started

/-- A loop whose rounds work on objects does no more than that. -/
theorem grows_foldlM {Item : Type} {round : Instance Address → Item → Option (Instance Address)}
    (grows : ∀ game item next, round game item = some next → game.Grows next) {items : List Item}
    {game last : Instance Address} (ran : items.foldlM round game = some last) :
    game.Grows last := by
  -- The induction follows the rounds, each of which grows the instance.
  induction items generalizing game with
  | nil =>
    cases ran
    exact Grows.refl _
  | cons item rest ih =>
    obtain ⟨middle, first, later⟩ := Option.bind_eq_some_iff.mp ran
    exact (grows game item middle first).trans (ih later)

/-- The characters of a player are sent one after the other. -/
theorem grows_sendCharacters {game next : Instance Address} {characters : List ObjectPtr}
    (sent : characters.foldlM (fun game character => game.sendCharacter character) game =
      some next) : game.Grows next :=
  grows_foldlM (fun _ _ _ => grows_sendCharacter) sent

theorem createdBut_sendCharacters {game next : Instance Address} {characters : List ObjectPtr}
    (started : game.gameStarted) (created : game.CreatedBut [])
    (sent : characters.foldlM (fun game character => game.sendCharacter character) game =
      some next) : next.CreatedBut [] := by
  -- The induction follows the characters, and the game stays started.
  induction characters generalizing game with
  | nil =>
    cases sent
    exact created
  | cons character rest ih =>
    obtain ⟨middle, first, later⟩ := Option.bind_eq_some_iff.mp sent
    refine ih ?_ (createdBut_sendCharacter started created first) later
    rw [(grows_sendCharacter first).gameStarted]
    exact started

/-- Whatever a start of a player finds, it works on objects after the level has been loaded. -/
theorem grows_onPlayerStart {game last : Instance Address} {index : UInt8} {loads : Bool}
    {spawned : List (Bool × Finset UpdateFlag)} {characters : List ObjectPtr}
    (started : game.onPlayerStart index loads spawned characters = some last) :
    (game.loadLevel loads).Grows last := by
  -- Between the level and the characters, objects may be spawned.
  have filled : (game.loadLevel loads).Grows (if (game.loadLevel loads).gameStarted then
      (game.loadLevel loads).spawn spawned else game.loadLevel loads) := by
    split
    · exact grows_spawn _ spawned
    · exact Grows.refl _
  unfold onPlayerStart at started
  simp only at started
  generalize (if (game.loadLevel loads).gameStarted then (game.loadLevel loads).spawn spawned
    else game.loadLevel loads) = middle at filled started
  split at started
  · exact (filled.trans (grows_createAll _)).trans (grows_sendCharacters started)
  · exact filled.trans (grows_sendCharacters started)

end Recap.Game.Instance
