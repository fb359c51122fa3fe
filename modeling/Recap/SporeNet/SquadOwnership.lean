import Recap.Lib.Runs
import Recap.SporeNet.UserRequests

/-! When the creatures in the squads of a user are the user's own. -/

namespace Recap.SporeNet

open Recap.Blaze

namespace User

/-- Every creature of every squad is one that the user has. -/
def Owned (user : User) : Prop :=
  ∀ squad ∈ user.mSquads, ∀ index, squad.mCreatureIds index ≠ 0 →
    ∃ creature ∈ user.mCreatures, creature.mId = squad.mCreatureIds index

instance (user : User) : Decidable user.Owned :=
  inferInstanceAs (Decidable (∀ squad ∈ user.mSquads, ∀ index, squad.mCreatureIds index ≠ 0 →
    ∃ creature ∈ user.mCreatures, creature.mId = squad.mCreatureIds index))

/-- The ids of the creatures that a user has. -/
def creatureIds (user : User) : List UInt32 := user.mCreatures.map Creature.mId

theorem owned_iff {user : User} :
    user.Owned ↔ ∀ ids ∈ user.mSquads.map Squad.mCreatureIds, ∀ index, ids index ≠ 0 →
      ids index ∈ user.creatureIds := by
  unfold Owned creatureIds
  rw [List.forall_mem_map]
  simp only [List.mem_map]

/-- Only the ids matter. -/
theorem owned_congr {user other : User} (creatures : other.creatureIds = user.creatureIds)
    (squads : other.mSquads.map Squad.mCreatureIds = user.mSquads.map Squad.mCreatureIds) :
    other.Owned ↔ user.Owned := by
  rw [owned_iff, owned_iff, creatures, squads]

section Files

variable {Node : Type} [XmlElement Node]

/-- A creature keeps its id in the file. -/
theorem creature_read_write (db : TemplateDatabase) {creature : Creature} {node : Node}
    (written : creature.write = some node) : (Creature.read db node).mId = creature.mId := by
  -- The template is written as an attribute, so the id is the first text with its name.
  obtain ⟨template, -, rfl⟩ := Option.map_eq_some_iff.mp written
  have bare : child (appendAttribute (element : Node) "template" template.mName) "id" = none := by
    rw [XmlElement.child_attribute, XmlNode.child_element]
  unfold Creature.read
  rw [xmlGetTextNode_addAll_bare _ _ _ bare]
  exact toUint32_ofUint32 creature.mId

/-- A squad keeps its creatures in the file. -/
theorem squad_read_write (Node : Type) [XmlElement Node] (squad : Squad) :
    (Squad.read ("squad", (squad.write : Node))).map Squad.mCreatureIds =
      some squad.mCreatureIds := by
  -- The creatures are written last, as a node of their own.
  have found : child (squad.write : Node) "creatures" = some (appendAll "creature"
      ((List.finRange 3).map fun index =>
        appendAttribute element "id" (ofUint32 (squad.mCreatureIds index)))) := by
    unfold Squad.write
    rw [XmlNode.child_append, child_addAll_none (XmlNode.child_element _) (by rfl)]
    rfl
  unfold Squad.read
  rw [if_neg (not_not.mpr rfl)]
  simp only [found, Option.map_some, Option.getD_some, children_appendAll]
  congr 1
  funext index
  -- The three creatures are read in the order in which they were written.
  simp [XmlElement.attribute_append, XmlElement.attribute_element,
    XmlElement.asUint_ofUint32]

/-- The list of creatures keeps the ids in order. -/
theorem creatures_read_write (db : TemplateDatabase) {creatures : List Creature} {nodes : List Node}
    (written : creatures.mapM Creature.write = some nodes) :
    nodes.map (fun node => (Creature.read db node).mId) = creatures.map Creature.mId := by
  -- The list is written node by node, and each node keeps its id.
  induction creatures generalizing nodes with
  | nil =>
    obtain rfl : [] = nodes := Option.some_inj.mp written
    rfl
  | cons creature rest ih =>
    rw [List.mapM_cons] at written
    obtain ⟨node, first, more⟩ := Option.bind_eq_some_iff.mp written
    obtain ⟨others, later, listed⟩ := Option.bind_eq_some_iff.mp more
    obtain rfl : node :: others = nodes := Option.some_inj.mp listed
    rw [List.map_cons, List.map_cons, ih later, creature_read_write db first]

/-- What is loaded has the creatures and the squads that were saved. -/
theorem load_saved (db : TemplateDatabase) {user : User} {document : Node}
    (saved : user.save = some document) :
    (load db document).creatureIds = user.creatureIds ∧
      (load db document).mSquads.map Squad.mCreatureIds = user.mSquads.map Squad.mCreatureIds := by
  -- The account comes first in the document, then the creatures, then the squads.
  obtain ⟨nodes, written, rfl⟩ := Option.map_eq_some_iff.mp saved
  unfold load
  dsimp only
  rw [XmlNode.child_append, XmlNode.child_element, if_pos rfl]
  simp only [Option.none_or, XmlNode.child_append, XmlNode.child_element]
  constructor
  · unfold creatureIds readCreatures
    simp only [XmlNode.child_append, XmlNode.child_element, String.reduceEq, if_false, if_true,
      Option.none_or, Option.some_or, children_appendAll]
    rw [List.filter_eq_self.mpr (by simp), List.map_map, List.map_map]
    exact creatures_read_write db written
  · simp only [String.reduceEq, if_false, if_true, Option.none_or, children_appendAll]
    -- No squad is skipped, as each of them was written as one.
    induction user.mSquads with
    | nil => rfl
    | cons squad rest ih =>
      obtain ⟨read, same, ids⟩ := Option.map_eq_some_iff.mp (squad_read_write Node squad)
      rw [List.map_cons, List.map_cons, List.filterMap_cons_some same, List.map_cons, ih, ids]
      rfl

/-- What is loaded has the creatures in its squads exactly when what was saved had. -/
theorem owned_load_iff (db : TemplateDatabase) {user : User} {document : Node}
    (saved : user.save = some document) : (load db document).Owned ↔ user.Owned := by
  obtain ⟨creatures, squads⟩ := load_saved db saved
  exact owned_congr creatures squads

end Files

section Operations

variable {user : User} {db : TemplateDatabase}

/-- More creatures do not make squads wrong. -/
theorem Owned.grow {other : User} (owned : user.Owned) (squads : other.mSquads = user.mSquads)
    (creatures : user.mCreatures ⊆ other.mCreatures) : other.Owned := by
  unfold Owned
  rw [squads]
  intro squad member index used
  obtain ⟨creature, has, same⟩ := owned squad member index used
  exact ⟨creature, creatures has, same⟩

theorem Owned.unlockCreature (owned : user.Owned) (templateId : UInt32) :
    (user.unlockCreature db templateId).1.Owned := by
  -- A creature is added to the end of the list, or there is no reward or no template for it.
  unfold User.unlockCreature
  split
  · unfold addCreature
    split
    · exact owned
    · exact owned.grow rfl (List.subset_append_left _ _)
  · exact owned

/-- Every creature of the squad is one that the user has. -/
def Has (user : User) (squad : Squad) : Prop :=
  ∀ index, squad.mCreatureIds index ≠ 0 →
    ∃ creature ∈ user.mCreatures, creature.mId = squad.mCreatureIds index

theorem Has.setCreatureId {squad : Squad} (has : user.Has squad) {creature : Creature}
    (member : creature ∈ user.mCreatures) (index : UInt8) :
    user.Has (squad.setCreatureId index creature.mId) := by
  -- One place of the squad is filled with an id that a creature of the user has.
  unfold Squad.setCreatureId
  split
  · rename_i inside
    intro place used
    by_cases same : place = ⟨index.toNat, inside⟩
    · subst same
      exact ⟨creature, member, by simp⟩
    · simp only [Function.update_of_ne same] at used ⊢
      exact has place used
  · exact has

/-- Only creatures that the user has are put into the squad. -/
theorem Has.placeCreature {squad : Squad × UInt8} (has : user.Has squad.1) (idString : Bytes) :
    user.Has (user.placeCreature squad idString).1 := by
  -- An id that is no number or that no creature has leaves the squad as it is.
  unfold User.placeCreature
  dsimp only
  split
  · exact has
  · split
    · exact has
    · rename_i creature found
      exact has.setCreatureId (List.mem_of_find?_eq_some found) squad.2

theorem Owned.updateSquad (owned : user.Owned) (slot : UInt32) (creatureStringList : Bytes) :
    (user.updateSquad slot creatureStringList).Owned := by
  -- The ids of the list are placed one after the other.
  have placed : ∀ (idStrings : List Bytes) (squad : Squad × UInt8), user.Has squad.1 →
      user.Has (idStrings.foldl user.placeCreature squad).1 := by
    intro idStrings
    induction idStrings with
    | nil => exact fun _ has => has
    | cons idString rest ih => exact fun squad has => ih _ (has.placeCreature idString)
  unfold User.updateSquad
  dsimp only
  split
  · exact owned
  · -- All squads but the updated one are as they were.
    intro squad member
    obtain ⟨place, found⟩ := List.mem_iff_getElem?.mp member
    rw [List.getElem?_modify] at found
    obtain ⟨before, present, same⟩ := Option.map_eq_some_iff.mp found
    have has : user.Has before := owned before (List.mem_of_getElem? present)
    split at same
    · exact same ▸ placed _ (before, 0) has
    · exact same ▸ has

end Operations

section Registration

variable {db : TemplateDatabase}

/-- The ids that are given out one after another. -/
def ids (count : Nat) : List UInt32 := (List.range count).map fun index => UInt32.ofNat (index + 1)

theorem ids_succ (count : Nat) : ids (count + 1) = ids count ++ [UInt32.ofNat (count + 1)] := by
  simp [ids, List.range_succ]

/-- Where ids were given out one after another, so is the next one. -/
theorem nextCreatureId_ids {user : User} {count : Nat} (given : user.creatureIds = ids count) :
    user.nextCreatureId = UInt32.ofNat (count + 1) := by
  -- The id is one more than the last one, or 1 if there is none.
  have last : user.mCreatures.getLast?.map Creature.mId = (ids count).getLast? := by
    rw [← given, creatureIds, List.getLast?_map]
  unfold nextCreatureId
  cases count with
  | zero =>
    rw [Option.map_eq_none_iff.mp last]
    rfl
  | succ count =>
    rw [ids_succ, List.getLast?_concat] at last
    obtain ⟨creature, ends, named⟩ := Option.map_eq_some_iff.mp last
    rw [ends, UInt32.ofNat_add (count + 1) 1, ← named]
    rfl

/-- Unlocking a known creature costs a reward, if there is one, and gives the next id. -/
theorem unlockCreature_ids {user : User} {count : Nat} (given : user.creatureIds = ids count)
    {template : TemplateCreature} (known : template ∈ db) :
    (user.unlockCreature db template.mNoun).1.creatureIds =
        ids (count + min 1 user.mAccount.creatureRewards.toNat) ∧
      (user.unlockCreature db template.mNoun).1.mAccount.creatureRewards.toNat =
        user.mAccount.creatureRewards.toNat - 1 := by
  -- Without a reward nothing happens, and the minimum says so.
  by_cases rewards : user.mAccount.creatureRewards = 0
  · rw [unlockCreature_refused rewards, rewards]
    exact ⟨given, rfl⟩
  · have positive : 1 ≤ user.mAccount.creatureRewards.toNat :=
      UInt32.lt_iff_toNat_lt.mp (UInt32.pos_iff_ne_zero.mpr rewards)
    have fewer : (user.mAccount.creatureRewards - 1).toNat =
        user.mAccount.creatureRewards.toNat - 1 :=
      UInt32.toNat_sub_of_le _ _ (UInt32.le_iff_toNat_le.mpr positive)
    have found : (db.get template.mNoun).isSome :=
      List.find?_isSome.mpr ⟨template, known, decide_eq_true rfl⟩
    obtain ⟨first, same⟩ := Option.isSome_iff_exists.mp found
    rw [unlockCreature_spent rewards, same]
    refine ⟨?_, fewer⟩
    rw [Nat.min_eq_left positive, ids_succ, ← given, ← nextCreatureId_ids given]
    exact List.map_append

/-- Rewards are used up one by one. -/
theorem unlockAll_ids (templates : List TemplateCreature) (known : templates ⊆ db) {user : User}
    {count : Nat} (given : user.creatureIds = ids count) :
    (templates.foldl (fun user template => (user.unlockCreature db template.mNoun).1)
        user).creatureIds =
      ids (count + min templates.length user.mAccount.creatureRewards.toNat) := by
  -- Each template takes a reward and gives an id, as long as there are rewards.
  induction templates generalizing user count with
  | nil => simpa using given
  | cons template rest ih =>
    obtain ⟨here, others⟩ := List.cons_subset.mp known
    obtain ⟨next, left⟩ := unlockCreature_ids given here
    rw [List.foldl_cons, ih others next, left, List.length_cons]
    congr 1
    omega

/-- A user who has as many rewards as there are templates has as many creatures in the end. -/
theorem unlocked_creatureIds (db : TemplateDatabase) (id : Int64) :
    (unlocked db id).creatureIds = ids (db.length % 2 ^ 32) := by
  -- There are as many rewards as templates, up to what fits into their number.
  unfold unlocked
  dsimp only
  have bare : ({ mAccount := { id, creatureRewards := UInt32.ofNat db.length } } :
      User).creatureIds = ids 0 := rfl
  rw [unlockAll_ids db (List.Subset.refl db) bare, Nat.zero_add, UInt32.toNat_ofNat']
  exact congrArg ids (Nat.min_eq_right (Nat.mod_le _ _))

/-- The ids that were given out are those up to the last one. -/
theorem mem_ids_iff {count : Nat} (small : count < 2 ^ 32) (id : UInt32) (used : id ≠ 0) :
    id ∈ ids count ↔ id.toNat ≤ count := by
  -- The ids start at one, and an id is never so large that the count wraps.
  have positive : id.toNat ≠ 0 := fun zero => used (UInt32.toNat_inj.mp zero)
  unfold ids
  rw [List.mem_map]
  constructor
  · intro ⟨index, member, same⟩
    have below := List.mem_range.mp member
    rw [← same, UInt32.toNat_ofNat']
    omega
  · intro within
    refine ⟨id.toNat - 1, List.mem_range.mpr (by omega), ?_⟩
    rw [Nat.sub_add_cancel (by omega)]
    exact UInt32.ofNat_toNat

/-- Creatures that were unlocked have templates. -/
def Templated (user : User) : Prop := ∀ creature ∈ user.mCreatures, creature.mTemplate.isSome

theorem Templated.unlockCreature {user : User} (templated : user.Templated) (templateId : UInt32) :
    (user.unlockCreature db templateId).1.Templated := by
  -- The creature that is added was found among the templates.
  unfold User.unlockCreature
  split
  · unfold addCreature
    split
    · exact templated
    · intro creature member
      rcases List.mem_append.mp member with before | added
      · exact templated creature before
      · rw [List.mem_singleton.mp added]
        rfl
  · exact templated

theorem unlocked_templated (db : TemplateDatabase) (id : Int64) : (unlocked db id).Templated := by
  -- The first user of the run has no creatures at all.
  have all : ∀ (templates : TemplateDatabase) (user : User), user.Templated →
      (templates.foldl (fun user template => (user.unlockCreature db template.mNoun).1)
        user).Templated := by
    intro templates
    induction templates with
    | nil => exact fun _ templated => templated
    | cons template rest ih => exact fun user templated => ih _ (templated.unlockCreature _)
  exact all db _ nofun

/-- A user whose creatures have templates can be saved. -/
theorem Templated.save (Node : Type) [XmlElement Node] {user : User} (templated : user.Templated) :
    ∃ document : Node, user.save = some document := by
  -- Only a creature without a template keeps the list from being written.
  have written : ∀ creatures : List Creature, (∀ creature ∈ creatures, creature.mTemplate.isSome) →
      ∃ nodes : List Node, creatures.mapM Creature.write = some nodes := by
    intro creatures
    induction creatures with
    | nil => exact fun _ => ⟨[], rfl⟩
    | cons creature rest ih =>
      intro each
      obtain ⟨template, known⟩ := Option.isSome_iff_exists.mp (each creature List.mem_cons_self)
      obtain ⟨nodes, later⟩ := ih fun other member => each other (List.mem_cons_of_mem _ member)
      rw [List.mapM_cons, Creature.write, known, later]
      exact ⟨_, rfl⟩
  obtain ⟨nodes, all⟩ := written user.mCreatures templated
  unfold User.save
  rw [all]
  exact ⟨_, rfl⟩

/-- The numbers of the first three templates are ids of creatures, or no numbers of any. -/
def Numbered (db : TemplateDatabase) : Prop :=
  ∀ template ∈ db.take 3, template.mNoun.toNat ≤ db.length % 2 ^ 32

/-- Each squad of a new user has the number of a template in its first place, and nothing else. -/
theorem registered_squads (id : Int64) (avatar : UInt32) (enough : 3 ≤ db.length) :
    (registered db id avatar).mSquads.map Squad.mCreatureIds =
      (db.take 3).map fun template => Function.update (fun _ => 0) 0 template.mNoun := by
  match db, enough with
  | _ :: _ :: _ :: _, _ => rfl

/-- A registration puts creatures of the new user into the squads exactly if the numbers allow it. -/
theorem owned_registered_iff (id : Int64) (avatar : UInt32) (enough : 3 ≤ db.length) :
    (registered db id avatar).Owned ↔ Numbered db := by
  -- The ids that the user has are those up to the number of templates.
  have has : (registered db id avatar).creatureIds = ids (db.length % 2 ^ 32) :=
    unlocked_creatureIds db id
  have small : db.length % 2 ^ 32 < 2 ^ 32 := Nat.mod_lt _ (by decide)
  rw [owned_iff, registered_squads id avatar enough, has, List.forall_mem_map]
  unfold Numbered
  refine forall₂_congr fun template _ => ?_
  constructor
  · intro owned
    by_cases used : template.mNoun = 0
    · rw [used]
      exact Nat.zero_le _
    · have first := owned 0
      rw [Function.update_self] at first
      exact (mem_ids_iff small template.mNoun used).mp (first used)
  · intro within index
    -- Only the first place is used.
    by_cases first : index = 0
    · subst first
      rw [Function.update_self]
      exact fun used => (mem_ids_iff small template.mNoun used).mpr within
    · rw [Function.update_of_ne first]
      exact fun used => absurd rfl used

end Registration

end User

/-- A user name at the game server: the user object, if the user is logged in, and the file. -/
structure AccountState (Node : Type) where
  user : Option User := none
  file : Option Node := none

namespace AccountState

variable {Node : Type} [XmlElement Node]

/-- What happens to a user name. -/
inductive Input where
  /-- A registration, with the random id and the avatar, if that is a number. -/
  | registration (id : Int64) (avatar : Option UInt32)
  | login
  | unlockCreature (templateId : UInt32)
  | updateSquad (slot : UInt32) (creatureStringList : Bytes)
  /-- The rest of the game changes the account. -/
  | editAccount (account : Account)
  | save
  | logout

/-- `recap_game_registration`, which reads the first three templates without looking for them. -/
def registration (db : TemplateDatabase) (s : AccountState Node) (id : Int64)
    (avatar : Option UInt32) : Option (AccountState Node) :=
  -- `SignUp` throws if the name is taken, and else saves the bare user.
  if s.user.isSome || s.file.isSome then some s else
  match avatar with
  | none =>
    ({ mAccount := { id } } : User).save.map fun document => { s with file := some document }
  | some avatar =>
    if db.length < 3 then none
    else (User.registered db id avatar).save.map fun document => { s with file := some document }

/-- `UserManager::Login` of a user that is not logged in yet. -/
def login (db : TemplateDatabase) (s : AccountState Node) : AccountState Node :=
  match s.user, s.file with
  | none, some document => { s with user := some (User.load db document) }
  | _, _ => s

/-- Whatever is done to a user is done to one that is logged in. -/
def onUser (s : AccountState Node) (change : User → User) : AccountState Node :=
  { s with user := s.user.map change }

/-- Saves the user. A creature without a template ends the program. -/
def save (s : AccountState Node) : Option (AccountState Node) :=
  match s.user with
  | none => some s
  | some user => user.save.map fun document => { s with file := some document }

def step (db : TemplateDatabase) (s : AccountState Node) : Input → Option (AccountState Node)
  | .registration id avatar => s.registration db id avatar
  | .login => some (s.login db)
  | .unlockCreature templateId => some (s.onUser fun user => (user.unlockCreature db templateId).1)
  | .updateSquad slot list => some (s.onUser fun user => user.updateSquad slot list)
  | .editAccount account => some (s.onUser fun user => { user with mAccount := account })
  | .save => s.save
  | .logout => s.save.map fun s => { s with user := none }

/-- The squads have the user's own creatures, in the user object and in what the file comes to. -/
structure Owned (db : TemplateDatabase) (s : AccountState Node) : Prop where
  user : ∀ user, s.user = some user → user.Owned
  file : ∀ document, s.file = some document → (User.load db document).Owned

/-- The input registers a new user all the way. -/
def Registers (db : TemplateDatabase) (s : AccountState Node) (input : Input) : Prop :=
  3 ≤ db.length ∧ s.user = none ∧ s.file = none ∧
    ∃ id avatar, input = .registration id (some avatar)

/-- A registration of a name that is free saves the user that it makes. -/
theorem registration_free {db : TemplateDatabase} {s : AccountState Node} (enough : 3 ≤ db.length)
    (out : s.user = none) (free : s.file = none) (id : Int64) (avatar : UInt32) :
    ∃ document, (User.registered db id avatar).save = some document ∧
      s.registration db id (some avatar) = some { s with file := some document } := by
  -- With enough templates nothing is read past the end, and all creatures can be written.
  have templated : (User.registered db id avatar).Templated := User.unlocked_templated db id
  obtain ⟨document, saved⟩ := templated.save Node
  refine ⟨document, saved, ?_⟩
  unfold registration
  rw [out, free, if_neg (by simp)]
  simp only [if_neg (Nat.not_lt.mpr enough), saved, Option.map_some]

/-- Every other registration changes nothing or leaves a user without creatures and squads behind. -/
theorem owned_registration {db : TemplateDatabase} {s next : AccountState Node}
    (owned : s.Owned db) {id : Int64} {avatar : Option UInt32}
    (other : ¬ s.Registers db (.registration id avatar))
    (taken : s.registration db id avatar = some next) : next.Owned db := by
  -- A name that is taken is refused, and without an avatar the bare user is saved.
  unfold registration at taken
  split at taken
  · obtain rfl := Option.some_inj.mp taken
    exact owned
  · rename_i free
    simp only [Bool.or_eq_true, not_or, Option.not_isSome_iff_eq_none] at free
    split at taken
    · obtain ⟨document, saved, rfl⟩ := Option.map_eq_some_iff.mp taken
      refine ⟨owned.user, fun other same => ?_⟩
      obtain rfl := Option.some_inj.mp same
      rw [User.owned_load_iff db saved]
      intro squad member
      cases member
    · rename_i avatar
      split at taken
      · cases taken
      · rename_i enough
        exact absurd ⟨Nat.not_lt.mp enough, free.1, free.2, id, avatar, rfl⟩ other

theorem owned_save {db : TemplateDatabase} {s next : AccountState Node} (owned : s.Owned db)
    (taken : s.save = some next) : next.Owned db := by
  -- What is saved reads back as the user who is logged in.
  unfold save at taken
  split at taken
  · obtain rfl := Option.some_inj.mp taken
    exact owned
  · rename_i user loggedIn
    obtain ⟨document, saved, rfl⟩ := Option.map_eq_some_iff.mp taken
    refine ⟨owned.user, fun other same => ?_⟩
    obtain rfl := Option.some_inj.mp same
    exact (User.owned_load_iff db saved).mpr (owned.user user loggedIn)

theorem owned_onUser {db : TemplateDatabase} {s : AccountState Node} (owned : s.Owned db)
    {change : User → User} (keeps : ∀ user, user.Owned → (change user).Owned) :
    (s.onUser change).Owned db := by
  -- The file is left alone until the user is saved.
  refine ⟨fun user changed => ?_, owned.file⟩
  obtain ⟨before, present, rfl⟩ := Option.map_eq_some_iff.mp changed
  exact keeps before (owned.user before present)

/-- Only a registration can put a creature into a squad that the user does not have. -/
theorem owned_step {db : TemplateDatabase} {s next : AccountState Node} (owned : s.Owned db)
    {input : Input} (other : ¬ s.Registers db input) (taken : step db s input = some next) :
    next.Owned db := by
  -- Each of the other requests adds creatures or places the user's own.
  cases input with
  | registration id avatar => exact owned_registration owned other taken
  | login =>
    obtain rfl := Option.some_inj.mp taken
    unfold login
    split
    · rename_i document _ kept
      refine ⟨fun user loaded => ?_, owned.file⟩
      obtain rfl := Option.some_inj.mp loaded
      exact owned.file document kept
    · exact owned
  | unlockCreature templateId =>
    obtain rfl := Option.some_inj.mp taken
    exact owned_onUser owned fun user kept => kept.unlockCreature templateId
  | updateSquad slot list =>
    obtain rfl := Option.some_inj.mp taken
    exact owned_onUser owned fun user kept => kept.updateSquad slot list
  | editAccount account =>
    obtain rfl := Option.some_inj.mp taken
    exact owned_onUser owned fun user kept => kept.grow rfl (List.Subset.refl _)
  | save => exact owned_save owned taken
  | logout =>
    obtain ⟨between, saved, rfl⟩ := Option.map_eq_some_iff.mp taken
    exact ⟨fun _ loaded => (nomatch loaded), (owned_save owned saved).file⟩

/--
All squads have the user's own creatures, all along a run, exactly when every registration finds
three templates first whose nouns are not above the number of templates.
-/
theorem owned_iff_numbered (db : TemplateDatabase) (inputs : List Input) :
    Runs.Along (step db) (fun s input => s.Registers db input → User.Numbered db)
        ({} : AccountState Node) inputs ↔
      ∀ front, front <+: inputs →
        (Runs.final (step db) ({} : AccountState Node) front).Owned db := by
  -- A registration that goes all the way is looked at by itself, and the others keep ownership.
  have kept : ∀ (s : AccountState Node) input next, True → s.Owned db →
      step db s input = some next → True := fun _ _ _ _ _ _ => trivial
  refine Runs.Along.iff_final kept ?_ ?_ inputs trivial
    ⟨fun _ loaded => (nomatch loaded), fun _ kept => (nomatch kept)⟩
  · -- A registration that goes all the way is never refused.
    rintro s _ refused ⟨enough, out, free, id, avatar, rfl⟩
    obtain ⟨document, _, taken⟩ := registration_free enough out free id avatar
    have refused : s.registration db id (some avatar) = none := refused
    rw [taken] at refused
    cases refused
  · intro s input next _ owned taken
    by_cases registers : s.Registers db input
    · obtain ⟨enough, out, free, id, avatar, rfl⟩ := registers
      obtain ⟨document, saved, reached⟩ := registration_free enough out free id avatar
      obtain rfl := Option.some_inj.mp (reached.symm.trans taken)
      rw [← User.owned_registered_iff id avatar enough, ← User.owned_load_iff db saved]
      constructor
      · exact fun all _ => all.file document rfl
      · intro right
        refine ⟨owned.user, fun other same => ?_⟩
        obtain rfl := Option.some_inj.mp same
        exact right ⟨enough, out, free, id, avatar, rfl⟩
    · exact iff_of_true (owned_step owned registers taken) fun does => absurd does registers

/-- Nouns are hashes, and the three squads of a new user have them for creatures. -/
theorem not_owned :
    ¬ ∀ (db : TemplateDatabase) (inputs : List Input),
      (Runs.final (step db) ({} : AccountState XmlTree) inputs).Owned db := by
  -- The nouns are far larger than the number of templates.
  intro always
  have ended := always [⟨[97], 1667741389⟩, ⟨[98], 576185321⟩, ⟨[99], 2445894411⟩]
    [.registration 7 (some 0), .login]
  -- The user has the creatures 1, 2 and 3, and the noun of a template in the first squad.
  have owned := (Option.all_eq_true _ _).mpr fun user present =>
    decide_eq_true (ended.user user present)
  exact absurd owned (by decide)

end AccountState

end Recap.SporeNet
