import Recap.SporeNet.SquadOwnership

/-! The ids of an account's creatures, through any number of additions and reloads. -/

namespace Recap.SporeNet

open Recap.Blaze

/-- The templates of the game, of which a name has at most one. -/
structure Templates where
  list : TemplateDatabase
  names : (list.map TemplateCreature.mName).Nodup

/-- A template is found again by its name. -/
theorem Templates.getByName_mem (templates : Templates) {template : TemplateCreature}
    (member : template ∈ templates.list) :
    templates.list.getByName template.mName = some template := by
  -- The first template of the name is the only one.
  have found : (templates.list.getByName template.mName).isSome :=
    List.find?_isSome.mpr ⟨template, member, decide_eq_true rfl⟩
  obtain ⟨first, same⟩ := Option.isSome_iff_exists.mp found
  have named : first.mName = template.mName := by simpa using List.find?_some same
  rw [same, List.inj_on_of_nodup_map templates.names (List.mem_of_find?_eq_some same) member named]

/-- A node whose attributes do not change with its children. -/
class XmlAttributes (Node : Type) extends XmlElement Node where
  attribute_child : ∀ (node : Node) name added other,
    attributeOf (appendChild node name added) other = attributeOf node other

instance : XmlAttributes XmlTree where
  attribute_child := fun _ _ _ _ => rfl

/-- `Creatures::Write` -/
def writeCreatures {Node : Type} [XmlElement Node] (creatures : List Creature) (node : Node) :
    Option Node :=
  (creatures.mapM Creature.write).map fun nodes =>
    appendChild node "creatures" (appendAll "creature" nodes)

/-- A user's creatures are written behind the account. -/
theorem User.save_eq (Node : Type) [XmlElement Node] (user : User) :
    (user.save : Option Node) =
      (writeCreatures user.mCreatures
          (appendChild element "account" (user.mAccount.write element))).map fun docUser =>
        appendChild element "user"
          (appendChild docUser "squads" (appendAll "squad" (user.mSquads.map Squad.write))) := by
  unfold User.save writeCreatures
  rw [Option.map_map]
  rfl

/-- The creature that is made from a template. -/
def Creature.made (id : UInt32) (template : TemplateCreature) : Creature :=
  { mTemplate := some template, mId := id, mVersion := 1 }

/-- The creatures of an account, and the templates that `Creatures::Add` has returned ids for. -/
structure Collection where
  user : User := {}
  added : List (UInt32 × TemplateCreature) := []

namespace Collection

section Reloading

variable {Node : Type} [XmlAttributes Node]

/-- A creature is read as it was written, as long as its template is one of the game. -/
theorem made_read_write (templates : Templates) {id : UInt32} {template : TemplateCreature}
    (known : template ∈ templates.list) :
    ∃ node : Node, (Creature.made id template).write = some node ∧
      Creature.read templates.list node = Creature.made id template := by
  -- The template comes first and under its name, the rest as texts of other names.
  refine ⟨_, rfl, ?_⟩
  have bare : ∀ name, child (appendAttribute (element : Node) "template" template.mName) name =
      none := by
    intro name
    rw [XmlElement.child_attribute, XmlNode.child_element]
  have named : attributeOf (xmlAddTextNodes
      (appendAttribute (element : Node) "template" template.mName)
      [("id", ofUint32 id), ("version", ofUint32 1)]) "template" = some template.mName := by
    simp only [xmlAddTextNodes, xmlAddTextNode, List.foldl_cons, List.foldl_nil,
      XmlAttributes.attribute_child, XmlElement.attribute_append, XmlElement.attribute_element,
      Option.none_or, if_true]
  unfold Creature.read Creature.made
  dsimp only
  rw [named, Option.getD_some, templates.getByName_mem known,
    xmlGetTextNode_addAll_bare _ _ _ (bare "id"), xmlGetTextNode_addAll_bare _ _ _ (bare "version")]
  simp only [List.lookup_cons, beq_self_eq_true, String.reduceBEq, Option.getD_some,
    toUint32_ofUint32]

/-- A list of creatures is read as it was written, into a list that had none. -/
theorem read_writeCreatures (templates : Templates) {added : List (UInt32 × TemplateCreature)}
    (known : ∀ entry ∈ added, entry.2 ∈ templates.list) {node : Node}
    (bare : child node "creatures" = none) :
    ∃ written, writeCreatures (added.map fun entry => Creature.made entry.1 entry.2) node =
        some written ∧
      readCreatures templates.list written =
        added.map fun entry => Creature.made entry.1 entry.2 := by
  -- The creatures are written one by one and read in the same order.
  have each : ∃ nodes : List Node,
      (added.map fun entry => Creature.made entry.1 entry.2).mapM Creature.write = some nodes ∧
      nodes.map (Creature.read templates.list) =
        added.map fun entry => Creature.made entry.1 entry.2 := by
    clear bare
    induction added with
    | nil => exact ⟨[], rfl, rfl⟩
    | cons entry rest ih =>
      obtain ⟨here, others⟩ := List.forall_mem_cons.mp known
      obtain ⟨first, wrote, read⟩ := @made_read_write Node _ templates entry.1 _ here
      obtain ⟨nodes, wroteAll, readAll⟩ := ih others
      refine ⟨first :: nodes, ?_, ?_⟩
      · rw [List.map_cons, List.mapM_cons, wrote, wroteAll]
        rfl
      · rw [List.map_cons, List.map_cons, read, readAll]
  obtain ⟨nodes, wrote, read⟩ := each
  refine ⟨_, congrArg _ wrote, ?_⟩
  unfold readCreatures
  rw [XmlNode.child_append, bare, if_pos rfl]
  simp only [Option.none_or, children_appendAll]
  rw [List.filter_eq_self.mpr (by simp), List.map_map, ← read]
  rfl

/-- What an account's creatures go through. -/
inductive Input (Node : Type) [XmlElement Node] where
  | add (templateId : UInt32)
  /-- The creatures are saved to a node that has none, and read from it into an empty list. -/
  | reload (node : Node) (bare : child node "creatures" = none)

/-- The input asks for a new creature. -/
def Input.adds : Input Node → Bool
  | .add _ => true
  | .reload _ _ => false

/-- `Creatures::Add`, with a note of what the id was returned for. -/
def add (templates : Templates) (s : Collection) (templateId : UInt32) : Collection :=
  let (user, id) := s.user.addCreature templates.list templateId
  { user
    added := s.added ++ ((templates.list.get templateId).map fun template => (id, template)).toList }

/-- `Creatures::Write` and `Creatures::Read`. A creature without a template ends the program. -/
def reload (templates : Templates) (s : Collection) (node : Node) : Option Collection :=
  (writeCreatures s.user.mCreatures node).map fun written =>
    { s with user := { s.user with mCreatures := readCreatures templates.list written } }

def step (templates : Templates) (s : Collection) : Input Node → Option Collection
  | .add templateId => some (s.add templates templateId)
  | .reload node _ => s.reload templates node

end Reloading

/-- The creatures are those that were added, with the ids from one on. -/
structure Numbered (templates : Templates) (s : Collection) : Prop where
  creatures : s.user.mCreatures = s.added.map fun entry => Creature.made entry.1 entry.2
  ids : s.added.map Prod.fst = User.ids s.added.length
  known : ∀ entry ∈ s.added, entry.2 ∈ templates.list

variable {templates : Templates} {s : Collection}

/-- The ids of the creatures are those that were returned. -/
theorem Numbered.creatureIds (numbered : s.Numbered templates) :
    s.user.creatureIds = User.ids s.added.length := by
  rw [User.creatureIds, numbered.creatures, List.map_map, ← numbered.ids]
  rfl

theorem Numbered.add (numbered : s.Numbered templates) (templateId : UInt32) :
    (s.add templates templateId).Numbered templates := by
  -- An unknown template adds nothing, and the creature of a known one gets the next id.
  unfold Collection.add User.addCreature
  cases known : templates.list.get templateId with
  | none => simpa using numbered
  | some template =>
    have next : s.user.nextCreatureId = UInt32.ofNat (s.added.length + 1) :=
      User.nextCreatureId_ids numbered.creatureIds
    refine ⟨?_, ?_, ?_⟩
    · simp only [Option.map_some, Option.toList_some, List.map_append, ← numbered.creatures]
      rfl
    · simp only [Option.map_some, Option.toList_some, List.map_append, List.length_append,
        List.length_singleton, User.ids_succ, ← numbered.ids, ← next]
      rfl
    · intro entry member
      rcases List.mem_append.mp member with before | added
      · exact numbered.known entry before
      · obtain rfl := List.mem_singleton.mp added
        exact List.mem_of_find?_eq_some known

/-- A reload changes nothing. -/
theorem Numbered.reload {Node : Type} [XmlAttributes Node] (numbered : s.Numbered templates)
    {node : Node} (bare : child node "creatures" = none) : s.reload templates node = some s := by
  -- Every creature has a template, and all of it is read as it was written.
  obtain ⟨written, wrote, read⟩ := read_writeCreatures templates numbered.known bare
  rw [← numbered.creatures] at wrote read
  unfold Collection.reload
  rw [wrote, Option.map_some, read]

/-- Additions and reloads keep the numbers, and no reload follows a null pointer. -/
theorem Numbered.step {Node : Type} [XmlAttributes Node] (numbered : s.Numbered templates)
    (input : Input Node) : ∃ next, s.step templates input = some next ∧ next.Numbered templates := by
  cases input with
  | add templateId => exact ⟨_, rfl, numbered.add templateId⟩
  | reload node bare => exact ⟨s, numbered.reload bare, numbered⟩

/-- The ids tell the creatures apart, and each is found by the id that was returned for it. -/
structure Identified (s : Collection) : Prop where
  nonzero : 0 ∉ s.user.creatureIds
  distinct : s.user.creatureIds.Nodup
  found : ∀ entry ∈ s.added, s.user.getCreature entry.1 = some (Creature.made entry.1 entry.2)

/-- As long as the count does not wrap, the numbers are ids. -/
theorem Numbered.identified (numbered : s.Numbered templates) (few : s.added.length < 2 ^ 32) :
    s.Identified := by
  have value : ∀ index < s.added.length, (UInt32.ofNat (index + 1)).toNat = index + 1 := by
    intro index below
    rw [UInt32.toNat_ofNat', Nat.mod_eq_of_lt (by omega)]
  have distinct : (User.ids s.added.length).Nodup := by
    refine List.Nodup.map_on ?_ List.nodup_range
    intro first small second small' same
    have number := congrArg UInt32.toNat same
    rw [value _ (List.mem_range.mp small), value _ (List.mem_range.mp small')] at number
    exact Nat.succ.inj number
  refine ⟨?_, ?_, ?_⟩
  · rw [numbered.creatureIds]
    intro zero
    obtain ⟨index, member, same⟩ := List.mem_map.mp zero
    have number := congrArg UInt32.toNat same
    rw [value _ (List.mem_range.mp member)] at number
    exact absurd number (Nat.succ_ne_zero index)
  · rw [numbered.creatureIds]
    exact distinct
  · -- The first creature with an id is the only one.
    intro entry member
    have present : Creature.made entry.1 entry.2 ∈ s.user.mCreatures := by
      rw [numbered.creatures]
      exact List.mem_map_of_mem member
    have found : (s.user.getCreature entry.1).isSome :=
      List.find?_isSome.mpr ⟨_, present, decide_eq_true rfl⟩
    obtain ⟨first, same⟩ := Option.isSome_iff_exists.mp found
    have named : first.mId = entry.1 := by simpa using List.find?_some same
    rw [← numbered.creatureIds] at distinct
    rw [same, List.inj_on_of_nodup_map distinct (List.mem_of_find?_eq_some same) present named]

section Runs

variable {Node : Type} [XmlAttributes Node]

/-- An addition notes at most one id, and a reload none. -/
theorem length_added_step {next : Collection} {input : Input Node}
    (taken : s.step templates input = some next) :
    next.added.length ≤ s.added.length + [input].countP Input.adds := by
  cases input with
  | add templateId =>
    obtain rfl := Option.some_inj.mp taken
    unfold Collection.add
    cases templates.list.get templateId <;> simp [Input.adds]
  | reload node bare =>
    obtain ⟨written, -, rfl⟩ := Option.map_eq_some_iff.mp taken
    exact Nat.le_add_right _ _

/-- At most one id is returned for each addition of a run. -/
theorem length_added_le (templates : Templates) (inputs : List (Input Node)) (s : Collection) :
    (Runs.final (step templates) s inputs).added.length ≤
      s.added.length + inputs.countP Input.adds := by
  -- The induction is on the run; a step that is not taken ends it.
  induction inputs generalizing s with
  | nil => exact Nat.le_refl _
  | cons input rest ih =>
    unfold Runs.final
    cases taken : s.step templates input with
    | none => exact Nat.le_add_right _ _
    | some next =>
      have one := length_added_step taken
      have others := ih next
      rw [List.countP_cons, Nat.add_comm (rest.countP _), ← List.countP_singleton]
      exact others.trans (by omega)

/-- The step is taken, and a reload finds the same creature under each id as before. -/
def Keeps (templates : Templates) (s : Collection) (input : Input Node) : Prop :=
  ∃ next, s.step templates input = some next ∧
    (input.adds = false → ∀ id, next.user.getCreature id = s.user.getCreature id)

/--
Up to the largest id, creatures have different ids that are not zero, all along a run.

They are found by the ids that were returned for them, and no reload gives an id to another one.
-/
theorem identified_along (templates : Templates) (inputs : List (Input Node))
    (few : inputs.countP Input.adds < 2 ^ 32) :
    Runs.Along (step templates) (Keeps templates) {} inputs ∧
      ∀ front, front <+: inputs →
        (Runs.final (step templates) ({} : Collection) front).Identified := by
  -- The numbers are kept by every step, and say what is found where.
  have kept : Runs.Kept (@step Node _ templates) (Numbered templates) := by
    intro s input next numbered taken
    obtain ⟨reached, same, again⟩ := numbered.step input
    obtain rfl : reached = next := Option.some_inj.mp (same.symm.trans taken)
    exact again
  have initially : Numbered templates {} := ⟨rfl, rfl, nofun⟩
  refine ⟨kept.along ?_ inputs initially, fun front shorter => ?_⟩
  · intro s input numbered
    cases input with
    | add templateId => exact ⟨_, rfl, nofun⟩
    | reload node bare => exact ⟨s, numbered.reload bare, fun _ _ => rfl⟩
  · refine (kept.final front initially).identified ?_
    have count : front.countP Input.adds ≤ inputs.countP Input.adds := shorter.sublist.countP_le
    have added := length_added_le templates front {}
    simp only [List.length_nil] at added
    omega

/-- Two creatures of one template with a reload between them, and one of no template. -/
theorem identified_twice :
    (Runs.final (step ⟨[⟨[97], 5⟩], by decide⟩)
      ({} : Collection) [.add 5, .reload (element : XmlTree) rfl, .add 6, .add 5]).Identified :=
  (identified_along ⟨[⟨[97], 5⟩], by decide⟩
    [.add 5, .reload (element : XmlTree) rfl, .add 6, .add 5] (by decide)).2 _ (List.prefix_refl _)

end Runs

end Collection

end Recap.SporeNet
