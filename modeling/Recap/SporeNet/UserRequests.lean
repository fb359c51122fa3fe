import Recap.SporeNet.Squad

/-! What unlocking a creature and updating a squad leave a user with. -/

namespace Recap.SporeNet.User

open Recap.Blaze

/-! ### Unlocking a creature -/

/-- The account with one reward less. -/
def spendReward (account : Account) : Account :=
  { account with creatureRewards := account.creatureRewards - 1 }

/-- A failure changes nothing, and a success adds one creature for one of the rewards. -/
structure UnlocksAtomically (user : User) (db : TemplateDatabase) (templateId : UInt32) : Prop where
  failed : (user.unlockCreature db templateId).2 = 0 → (user.unlockCreature db templateId).1 = user
  succeeded : (user.unlockCreature db templateId).2 ≠ 0 →
    user.mAccount.creatureRewards ≠ 0 ∧ ∃ creature, (user.unlockCreature db templateId).1 =
      { user with
        mAccount := spendReward user.mAccount
        mCreatures := user.mCreatures ++ [creature] }

/-- The id that the next creature of a user gets. -/
def nextCreatureId (user : User) : UInt32 :=
  match user.mCreatures.getLast? with
  | none => 1
  | some last => last.mId + 1

/-- The next id is zero only behind the largest one. -/
theorem nextCreatureId_eq_zero_iff (user : User) :
    user.nextCreatureId = 0 ↔ user.mCreatures.getLast?.map Creature.mId = some 0xFFFFFFFF := by
  -- Ids are counted up from the last one, and the count wraps behind the largest.
  unfold nextCreatureId
  cases user.mCreatures.getLast? with
  | none => decide
  | some last =>
    simp only [Option.map_some, Option.some.injEq]
    rw [← UInt32.toNat_inj, ← UInt32.toNat_inj, UInt32.toNat_add]
    have small := last.mId.toNat_lt
    have one : (1 : UInt32).toNat = 1 := rfl
    have zero : (0 : UInt32).toNat = 0 := rfl
    have largest : (0xFFFFFFFF : UInt32).toNat = 4294967295 := rfl
    omega

/-- A user without rewards is refused. -/
theorem unlockCreature_refused {user : User} (none_ : user.mAccount.creatureRewards = 0)
    (db : TemplateDatabase) (templateId : UInt32) :
    user.unlockCreature db templateId = (user, 0) := by
  unfold unlockCreature
  rw [none_]
  rfl

/-- A reward is spent before anybody looks for the template. -/
theorem unlockCreature_spent {user : User} (some_ : user.mAccount.creatureRewards ≠ 0)
    (db : TemplateDatabase) (templateId : UInt32) :
    user.unlockCreature db templateId = match db.get templateId with
      | none => ({ user with mAccount := spendReward user.mAccount }, 0)
      | some template =>
        ({ user with
            mAccount := spendReward user.mAccount
            mCreatures := user.mCreatures ++
              [{ mTemplate := some template, mId := user.nextCreatureId, mVersion := 1 }] },
          user.nextCreatureId) := by
  -- The reward is gone before the template is looked up.
  have positive : 0 < user.mAccount.creatureRewards := UInt32.pos_iff_ne_zero.mpr some_
  unfold unlockCreature
  rw [if_pos positive]
  unfold addCreature
  cases db.get templateId <;> rfl

/-- A user who spends a reward is not the same afterwards. -/
theorem spendReward_ne (account : Account) : spendReward account ≠ account := by
  -- One less is never the same number, not even where it wraps.
  intro same
  have less : account.creatureRewards - 1 = account.creatureRewards :=
    congrArg Account.creatureRewards same
  have number := congrArg UInt32.toNat less
  have small := account.creatureRewards.toNat_lt
  have one : (1 : UInt32).toNat = 1 := rfl
  rw [UInt32.toNat_sub] at number
  omega

/--
Unlocking is atomic exactly when there is no reward to spend, or the template is known and the
user's last creature does not have the largest id.
-/
theorem unlocksAtomically_iff (user : User) (db : TemplateDatabase) (templateId : UInt32) :
    user.UnlocksAtomically db templateId ↔
      user.mAccount.creatureRewards = 0 ∨ ((db.get templateId).isSome ∧
        user.mCreatures.getLast?.map Creature.mId ≠ some 0xFFFFFFFF) := by
  by_cases rewards : user.mAccount.creatureRewards = 0
  · have refused := unlockCreature_refused rewards db templateId
    refine iff_of_true ⟨fun _ => ?_, fun other => ?_⟩ (.inl rewards)
    · rw [refused]
    · rw [refused] at other
      exact absurd rfl other
  · have spent := unlockCreature_spent rewards db templateId
    rw [or_iff_right rewards, Ne, ← nextCreatureId_eq_zero_iff]
    cases known : db.get templateId with
    | none =>
      -- The failure has already cost a reward.
      rw [known] at spent
      refine iff_of_false (fun atomic => ?_) (by simp)
      have same := atomic.failed (by rw [spent])
      rw [spent] at same
      exact spendReward_ne user.mAccount (congrArg mAccount same)
    | some template =>
      rw [known] at spent
      constructor
      · intro atomic
        refine ⟨rfl, fun zero => ?_⟩
        -- The creature is there, but its id tells a failure.
        have same := atomic.failed (by rw [spent]; exact zero)
        rw [spent] at same
        exact spendReward_ne user.mAccount (congrArg mAccount same)
      · rintro ⟨-, positive⟩
        refine ⟨fun zero => ?_, fun _ => ⟨rewards, _, by rw [spent]⟩⟩
        rw [spent] at zero
        exact absurd zero positive

/-- A reward is gone for a creature that does not exist. -/
theorem not_unlocksAtomically :
    ¬ ∀ (user : User) (db : TemplateDatabase) (templateId : UInt32),
      user.UnlocksAtomically db templateId := by
  intro always
  have same := (always { mAccount := { creatureRewards := 1 } } [] 5).failed rfl
  exact absurd (congrArg (fun user => user.mAccount.creatureRewards) same) (by decide)

/-! ### Updating a squad -/

/-- The ids of a list that are those of creatures of the user, in order. -/
def ownedIds (user : User) (creatureStringList : Bytes) : List UInt32 :=
  ((explodeString 44 creatureStringList).map toUint32).filter fun id =>
    id ≠ 0 ∧ (user.getCreature id).isSome

/-- The three ids that a squad should have: the first owned ones of the list, and no more. -/
def chosenIds (user : User) (creatureStringList : Bytes) : Fin 3 → UInt32 :=
  fun index => ((user.ownedIds creatureStringList)[index.val]?).getD 0

/-- Puts one id after another into a squad, wherever the counter has come to. -/
def placeIds (squad : Squad × UInt8) (ids : List UInt32) : Squad × UInt8 :=
  ids.foldl (fun squad id => (squad.1.setCreatureId squad.2 id, squad.2 + 1)) squad

/-- A number of the list is put into the squad if a creature has it. -/
theorem placeCreature_eq (user : User) (squad : Squad × UInt8) (idString : Bytes) :
    user.placeCreature squad idString =
      if toUint32 idString ≠ 0 ∧ (user.getCreature (toUint32 idString)).isSome then
        (squad.1.setCreatureId squad.2 (toUint32 idString), squad.2 + 1) else squad := by
  unfold placeCreature
  by_cases zero : toUint32 idString = 0
  · simp [zero]
  · cases found : user.getCreature (toUint32 idString) with
    | none => simp [zero, found]
    | some creature =>
      -- The creature that is found has the id that was looked for.
      have same : creature.mId = toUint32 idString := by
        have passes := List.find?_some found
        simpa using passes
      simp [zero, found, same]

/-- Going through the list is putting the owned ids into the squad. -/
theorem foldl_placeCreature (user : User) (idStrings : List Bytes) (squad : Squad × UInt8) :
    idStrings.foldl user.placeCreature squad =
      placeIds squad ((idStrings.map toUint32).filter fun id =>
        id ≠ 0 ∧ (user.getCreature id).isSome) := by
  -- The induction follows the list, of which the ids that are not owned drop out.
  induction idStrings generalizing squad with
  | nil => rfl
  | cons idString later ih =>
    rw [List.foldl_cons, ih, placeCreature_eq, List.map_cons]
    by_cases owned : toUint32 idString ≠ 0 ∧ (user.getCreature (toUint32 idString)).isSome
    · rw [if_pos owned, List.filter_cons_of_pos (by simpa using owned)]
      rfl
    · rw [if_neg owned, List.filter_cons_of_neg (by simpa using owned)]

/-- Where the last id is that comes to a place: the counter comes there again after 256 ids. -/
def lastPlace (length index : Nat) : Nat := index + 256 * ((length - 1 - index) / 256)

theorem setCreatureId_mCreatureIds (squad : Squad) (counter : UInt8) (id : UInt32) (index : Fin 3) :
    (squad.setCreatureId counter id).mCreatureIds index =
      if counter.toNat = index.val then id else squad.mCreatureIds index := by
  -- Slots past the third one are not written.
  unfold Squad.setCreatureId
  by_cases inside : counter.toNat < 3
  · rw [dif_pos inside]
    simp only [Function.update_apply, Fin.ext_iff]
    simp only [eq_comm]
  · rw [dif_neg inside, if_neg (by omega)]

@[simp] theorem setCreatureId_mId (squad : Squad) (counter : UInt8) (id : UInt32) :
    (squad.setCreatureId counter id).mId = squad.mId := by
  unfold Squad.setCreatureId
  split <;> rfl

/-- A slot has the last id that came to it, or else what it had before. -/
theorem placeIds_eq (squad : Squad) (ids : List UInt32) :
    (placeIds (squad, 0) ids).2 = UInt8.ofNat ids.length ∧
      (placeIds (squad, 0) ids).1.mId = squad.mId ∧
      ∀ index : Fin 3, (placeIds (squad, 0) ids).1.mCreatureIds index =
        if index.val < ids.length then (ids[lastPlace ids.length index]?).getD 0
        else squad.mCreatureIds index := by
  induction ids using List.reverseRecOn with
  | nil => exact ⟨rfl, rfl, fun index => rfl⟩
  | append_singleton front id ih =>
    obtain ⟨counter, same, slots⟩ := ih
    have last : placeIds (squad, 0) (front ++ [id]) =
        ((placeIds (squad, 0) front).1.setCreatureId (placeIds (squad, 0) front).2 id,
          (placeIds (squad, 0) front).2 + 1) := List.foldl_concat ..
    rw [last, counter, List.length_append, List.length_singleton]
    refine ⟨by simp [UInt8.ofNat_add], by rw [setCreatureId_mId, same], fun index => ?_⟩
    have small := index.isLt
    rw [setCreatureId_mCreatureIds, slots, UInt8.toNat_ofNat']
    by_cases here : front.length % 2 ^ 8 = index.val
    · -- The counter has come to this slot.
      have place : lastPlace (front.length + 1) index = front.length := by
        unfold lastPlace
        omega
      rw [if_pos here, if_pos (by omega), place, List.getElem?_concat_length, Option.getD_some]
    · rw [if_neg here]
      by_cases before : index.val < front.length
      · have place : lastPlace (front.length + 1) index = lastPlace front.length index := by
          unfold lastPlace
          omega
        have within : lastPlace front.length index < front.length := by
          unfold lastPlace
          omega
        rw [if_pos before, if_pos (by omega), place, List.getElem?_append_left within]
      · rw [if_neg before, if_neg (by omega)]

/-- The first element of a kind is still the first one once it has been changed within its kind. -/
theorem find?_modify_findIdx? {α : Type*} (kind : α → Bool) (change : α → α)
    (keeps : ∀ item, kind (change item) = kind item) (items : List α) :
    (match items.findIdx? kind with
      | none => items
      | some index => items.modify index change).find? kind = (items.find? kind).map change := by
  -- The induction follows the list up to the first element of the kind.
  induction items with
  | nil => rfl
  | cons item later ih =>
    rw [List.findIdx?_cons]
    cases found : kind item with
    | true =>
      rw [if_pos rfl, List.find?_cons_of_pos found]
      simp [List.modify_zero_cons, keeps, found]
    | false =>
      rw [if_neg Bool.false_ne_true, List.find?_cons_of_neg (by simp [found]), ← ih]
      cases later.findIdx? kind with
      | none => exact List.find?_cons_of_neg (by simp [found])
      | some index => exact List.find?_cons_of_neg (by simp [found])

/-- The squad that is updated is the one that is found by its id, before and afterwards. -/
theorem getSquadById_updateSquad (user : User) (slot : UInt32) (creatureStringList : Bytes) :
    (user.updateSquad slot creatureStringList).getSquadById slot =
      (user.getSquadById slot).map fun squad =>
        (placeIds (squad, 0) (user.ownedIds creatureStringList)).1 := by
  -- The update keeps the id, so the same squad is found again.
  have keeps : ∀ squad : Squad,
      decide ((placeIds (squad, 0) (user.ownedIds creatureStringList)).1.mId = slot) =
        decide (squad.mId = slot) := by
    intro squad
    rw [(placeIds_eq squad (user.ownedIds creatureStringList)).2.1]
  have updated := find?_modify_findIdx? (fun squad : Squad => decide (squad.mId = slot)) _ keeps
    user.mSquads
  unfold getSquadById
  rw [← updated]
  unfold updateSquad
  simp only [foldl_placeCreature]
  cases user.mSquads.findIdx? fun squad => decide (squad.mId = slot) <;> rfl

/-- Nothing from before is left in a squad, and no later id takes the place of an earlier one. -/
def Fresh (squad : Squad) (ids : List UInt32) : Prop :=
  ∀ index : Fin 3,
    if index.val < ids.length then ids[lastPlace ids.length index]? = ids[index.val]?
    else squad.mCreatureIds index = 0

instance (squad : Squad) (ids : List UInt32) : Decidable (Fresh squad ids) :=
  inferInstanceAs (Decidable (∀ index : Fin 3, if index.val < ids.length then _ else _))

/-- Up to 256 ids, no slot is come to twice. -/
theorem fresh_iff_of_few {squad : Squad} {ids : List UInt32} (few : ids.length ≤ 256) :
    Fresh squad ids ↔ ∀ index : Fin 3, ids.length ≤ index.val → squad.mCreatureIds index = 0 := by
  -- Up to 256 ids, the last one that comes to a slot is the only one.
  have once : ∀ index : Fin 3, index.val < ids.length → lastPlace ids.length index = index.val := by
    intro index within
    unfold lastPlace
    omega
  constructor
  · intro fresh index past
    have slot := fresh index
    rwa [if_neg (by omega)] at slot
  · intro empty index
    by_cases within : index.val < ids.length
    · rw [if_pos within, once index within]
    · rw [if_neg within]
      exact empty index (by omega)

/--
The slots of an updated squad are the first owned ids of the list and no others, exactly when the
slots past the owned ids were empty and the last id that comes to a slot is also the first one.
-/
theorem updateSquad_chosen_iff {user : User} {slot : UInt32} {squad : Squad}
    (present : user.getSquadById slot = some squad) (creatureStringList : Bytes) :
    ((user.updateSquad slot creatureStringList).getSquadById slot).map Squad.mCreatureIds =
        some (user.chosenIds creatureStringList) ↔
      Fresh squad (user.ownedIds creatureStringList) := by
  obtain ⟨-, -, slots⟩ := placeIds_eq squad (user.ownedIds creatureStringList)
  rw [getSquadById_updateSquad, present, Option.map_some, Option.map_some, Option.some_inj,
    funext_iff]
  -- Slot by slot, what the code leaves is compared with what the list asks for.
  refine forall_congr' fun index => ?_
  rw [slots, chosenIds]
  by_cases within : index.val < (user.ownedIds creatureStringList).length
  · have last : lastPlace (user.ownedIds creatureStringList).length index <
        (user.ownedIds creatureStringList).length := by
      unfold lastPlace
      omega
    rw [if_pos within, if_pos within, List.getElem?_eq_getElem within, List.getElem?_eq_getElem last,
      Option.getD_some, Option.getD_some, Option.some_inj]
  · rw [if_neg within, if_neg within, List.getElem?_eq_none (by omega), Option.getD_none]

/-- A user with one creature and one squad. -/
def collector (ids : Fin 3 → UInt32) : User :=
  { mCreatures := [{ mTemplate := none, mId := 1 }]
    mSquads := [{ mId := 1, mCreatureIds := ids }] }

/-- The squad of the collector is updated from a list with an unknown id in front. -/
theorem updateSquad_chosen_unknown :
    (((collector fun _ => 0).updateSquad 1 (ascii "9,1")).getSquadById 1).map Squad.mCreatureIds =
      some ((collector fun _ => 0).chosenIds (ascii "9,1")) :=
  (updateSquad_chosen_iff rfl (ascii "9,1")).mpr (by decide)

/-- A shorter list leaves a creature of the longer one before it in the squad. -/
theorem not_updateSquad_chosen :
    ¬ ∀ (user : User) (slot : UInt32) (squad : Squad) (creatureStringList : Bytes),
      user.getSquadById slot = some squad →
        ((user.updateSquad slot creatureStringList).getSquadById slot).map Squad.mCreatureIds =
          some (user.chosenIds creatureStringList) := by
  -- The third slot of the squad keeps its creature.
  intro always
  have same := always (collector fun _ => 1) 1 _ (ascii "1") rfl
  have third := congrArg (Option.map fun ids => ids 2) same
  exact absurd third (by decide)

end Recap.SporeNet.User
