import Recap.Game.OctreeAnswers
import Recap.Game.Triggers

/-! The sweep behind an update, which tells the triggers of the tree what is in their boxes. -/

namespace Recap.Game

/-- Which objects are triggers, and what each of these tracks. -/
abbrev TriggerVolumes := ObjectPtr → Option TriggerVolume

theorem TriggerVolume.addObject_owner (volume : TriggerVolume) (object : ObjectPtr) :
    (volume.addObject object).ownerObject = volume.ownerObject := by
  unfold TriggerVolume.addObject
  split <;> rfl

namespace TriggerVolumes

variable (volumes : TriggerVolumes)

/-- Whether a trigger may be told of an object, which is no trigger and not the trigger's owner. -/
def mayTell (trigger object : ObjectPtr) : Bool :=
  (volumes object).isNone && (volumes trigger).bind TriggerVolume.ownerObject ≠ some object

/-- `AddObject` of each pair's trigger. -/
def addObjects (collisions : List (ObjectPtr × ObjectPtr)) : TriggerVolumes :=
  collisions.foldl (fun volumes pair =>
    Function.update volumes pair.1 ((volumes pair.1).map fun volume => volume.addObject pair.2)) volumes

/-- A trigger tracks an object, whether that has entered or not. -/
def Tracks (trigger object : ObjectPtr) : Prop :=
  ∃ volume, volumes trigger = some volume ∧ volume.objectStates[object]?.isSome

variable {volumes : TriggerVolumes} {trigger object : ObjectPtr}

/-- A trigger that is told of an object tracks it, unless that is the owner. -/
theorem tracks_addObject (told noticed : ObjectPtr) :
    Tracks (Function.update volumes told ((volumes told).map fun volume => volume.addObject noticed))
        trigger object ↔
      volumes.Tracks trigger object ∨ trigger = told ∧ object = noticed ∧
        ∃ volume, volumes trigger = some volume ∧ volume.ownerObject ≠ some object := by
  by_cases other : trigger = told
  swap
  · -- All other triggers stay as they are.
    simp [Tracks, other]
  subst other
  simp only [Tracks, Function.update_self, Option.map_eq_some_iff, true_and]
  constructor
  · rintro ⟨_, ⟨volume, there, rfl⟩, tracked⟩
    unfold TriggerVolume.addObject at tracked
    split at tracked
    · -- The owner is left out, so nothing is added.
      exact .inl ⟨volume, there, tracked⟩
    · rename_i owner
      rw [OrderedMap.lookup_insertIfNew] at tracked
      by_cases same : noticed = object
      · exact .inr ⟨same.symm, volume, there, same ▸ owner⟩
      · rw [if_neg same] at tracked
        exact .inl ⟨volume, there, tracked⟩
  · rintro (⟨volume, there, tracked⟩ | ⟨rfl, volume, there, owner⟩)
    · refine ⟨_, ⟨volume, there, rfl⟩, ?_⟩
      unfold TriggerVolume.addObject
      split
      · exact tracked
      · rw [OrderedMap.lookup_insertIfNew]
        split
        · rfl
        · exact tracked
    · refine ⟨_, ⟨volume, there, rfl⟩, ?_⟩
      unfold TriggerVolume.addObject
      rw [if_neg owner, OrderedMap.lookup_insertIfNew, if_pos rfl]
      rfl

/-- What a trigger tracks once all pairs were told, none of which has its owner. -/
theorem tracks_addObjects (collisions : List (ObjectPtr × ObjectPtr))
    (apart : ∀ pair ∈ collisions, ∃ volume, volumes pair.1 = some volume ∧
      volume.ownerObject ≠ some pair.2) :
    (volumes.addObjects collisions).Tracks trigger object ↔
      volumes.Tracks trigger object ∨ (trigger, object) ∈ collisions := by
  -- Adding an object changes no owner.
  induction collisions generalizing volumes with
  | nil => simp [addObjects]
  | cons pair rest ih =>
    obtain ⟨⟨volume, there, owner⟩, others⟩ := List.forall_mem_cons.mp apart
    rw [addObjects, List.foldl_cons]
    refine (ih fun other member => ?_).trans ?_
    · obtain ⟨volume, there, owner⟩ := others other member
      by_cases same : other.1 = pair.1
      · rw [← same, Function.update_self, there]
        exact ⟨_, rfl, by rwa [TriggerVolume.addObject_owner]⟩
      · exact ⟨volume, by rwa [Function.update_of_ne same], owner⟩
    · rw [tracks_addObject, List.mem_cons, or_assoc]
      refine or_congr_right (or_congr_left ⟨?_, ?_⟩)
      · rintro ⟨rfl, rfl, -⟩
        rfl
      · rintro rfl
        exact ⟨rfl, rfl, volume, there, owner⟩

end TriggerVolumes

namespace OctTree

open Runs

section Sweep

variable (volumes : TriggerVolumes)

/-- The triggers that a node stores, but for those whose box is a point. -/
def triggersOf (tree : OctTree BoundingBox) (node : OctNode BoundingBox) : List ObjectPtr :=
  node.objects.filter fun object => (volumes object).isSome && !(tree.objects object).box.isPoint

/-- The local triggers of a node, which are noted once for each trigger from above. -/
def localTriggers (tree : OctTree BoundingBox) (node : OctNode BoundingBox)
    (parentTriggers : List ObjectPtr) : List ObjectPtr :=
  if parentTriggers = [] then tree.triggersOf volumes node
  -- The loop over the objects is inside of the loop over the triggers from above.
  else parentTriggers.flatMap fun _ => tree.triggersOf volumes node

/-- The objects of a node in the box of a trigger from above. -/
def below (tree : OctTree BoundingBox) (node : OctNode BoundingBox) (trigger : ObjectPtr) :
    List (ObjectPtr × ObjectPtr) :=
  (node.objects.filter fun object => volumes.mayTell trigger object &&
    (tree.objects trigger).box.intersects (tree.objects object).box).map (Prod.mk trigger)

/-- What a query of the root finds in the box of a local trigger. -/
def around (tree : OctTree BoundingBox) (trigger : ObjectPtr) :
    Option (List (ObjectPtr × ObjectPtr)) := do
  let foundObjects ← getObjectsInRegion (tree.span + 1) tree [] (tree.objects trigger).box []
  return (foundObjects.filter (volumes.mayTell trigger)).map (Prod.mk trigger)

/-- `GetTriggerInteractions`, with a bound on the number of nested calls. -/
def getTriggerInteractions : Nat → OctTree BoundingBox → Path → List (ObjectPtr × ObjectPtr) →
    List ObjectPtr → Option (List (ObjectPtr × ObjectPtr))
  | 0, _, _, _, _ => none
  | fuel + 1, tree, path, collisions, parentTriggers => do
    let node ← tree.nodes.lookup path
    -- Without objects a node has no local triggers, and nothing is added for it.
    let localTriggers := tree.localTriggers volumes node parentTriggers
    let found ← localTriggers.mapM (tree.around volumes)
    -- What is found here stands in front of what the children add, who are handed all triggers so far.
    (tree.children path).foldlM (fun collisions corner =>
        getTriggerInteractions fuel tree (corner :: path) collisions (parentTriggers ++ localTriggers))
      (collisions ++ (parentTriggers.flatMap (tree.below volumes node) ++ found.flatten))

end Sweep

section Pairs

variable {volumes : TriggerVolumes} {tree : OctTree BoundingBox} {path : Path}
  {trigger object : ObjectPtr}

/-- The trigger of a pair may be told of its object, and has it in its box. -/
def Told (volumes : TriggerVolumes) (tree : OctTree BoundingBox) (trigger object : ObjectPtr) : Prop :=
  volumes.mayTell trigger object = true ∧
    (tree.objects trigger).box.intersects (tree.objects object).box = true

/-- A query of the root for a trigger's box comes to a node that stores an object. -/
def QueryReaches (tree : OctTree BoundingBox) (trigger object : ObjectPtr) : Prop :=
  ∃ other node, ReachedFrom tree (tree.objects trigger).box.intersects [] other ∧
    tree.nodes.lookup other = some node ∧ object ∈ node.objects

/--
From a place on, there is a node with a trigger that a query comes to the object for.

It is enough that the object is stored further below that node, whether a query comes there or not.
-/
def SweepReaches (volumes : TriggerVolumes) (tree : OctTree BoundingBox) (path : Path)
    (trigger object : ObjectPtr) : Prop :=
  ∃ place node, path <:+ place ∧ tree.nodes.lookup place = some node ∧
    trigger ∈ tree.triggersOf volumes node ∧
    (tree.QueryReaches trigger object ∨ ∃ corner, object ∈ tree.storedBelow (corner :: place))

/-- The local triggers of a node are its triggers, however often they are noted. -/
theorem mem_localTriggers {node : OctNode BoundingBox} {parentTriggers : List ObjectPtr} :
    trigger ∈ tree.localTriggers volumes node parentTriggers ↔
      trigger ∈ tree.triggersOf volumes node := by
  unfold localTriggers
  split
  · rfl
  · rename_i some_
    obtain ⟨first, rest, rfl⟩ := List.exists_cons_of_ne_nil some_
    simp

theorem mem_below {node : OctNode BoundingBox} {asked : ObjectPtr} :
    (trigger, object) ∈ tree.below volumes node asked ↔
      trigger = asked ∧ object ∈ node.objects ∧ tree.Told volumes trigger object := by
  simp only [below, List.mem_map, List.mem_filter, Bool.and_eq_true, Prod.mk.injEq, Told]
  constructor
  · rintro ⟨_, ⟨inside, told⟩, rfl, rfl⟩
    exact ⟨rfl, inside, told⟩
  · rintro ⟨rfl, inside, told⟩
    exact ⟨object, ⟨inside, told⟩, rfl, rfl⟩

/-- A query for a trigger gives the objects that it comes to, as far as the trigger may be told. -/
theorem around_adds (rooted : tree.Rooted) (asked : ObjectPtr) :
    ∃ found, tree.around volumes asked = some found ∧ ∀ trigger object,
      (trigger, object) ∈ found ↔
        trigger = asked ∧ tree.Told volumes trigger object ∧ tree.QueryReaches trigger object := by
  obtain ⟨root, here⟩ := rooted.root
  obtain ⟨added, adds, members⟩ := @getObjects_reaches _ tree (tree.objects asked).box.intersects []
    (tree.span + 1) [] (by simp) (by rw [here]; rfl)
  refine ⟨(added.filter (volumes.mayTell asked)).map (Prod.mk asked), ?_, fun trigger object => ?_⟩
  · rw [around, getObjectsInRegion, adds _ le_rfl]
    rfl
  · -- The query names no types, so it leaves out only what does not meet the box.
    simp only [List.mem_map, List.mem_filter, members, wanted, accepts, Bool.and_eq_true,
      Prod.mk.injEq, Told, QueryReaches]
    constructor
    · rintro ⟨_, ⟨⟨other, node, reached, found, inside, -, met⟩, may⟩, rfl, rfl⟩
      exact ⟨rfl, ⟨may, met⟩, other, node, reached, found, inside⟩
    · rintro ⟨rfl, ⟨may, met⟩, other, node, reached, found, inside⟩
      exact ⟨object, ⟨⟨other, node, reached, found, inside, by simp, met⟩, may⟩, rfl, rfl⟩

/-- What is stored below a node is its own, or below a child that there is. -/
theorem mem_storedBelow_children (rooted : tree.Rooted) {node : OctNode BoundingBox}
    (found : tree.nodes.lookup path = some node) :
    object ∈ tree.storedBelow path ↔
      object ∈ node.objects ∨ ∃ corner ∈ tree.children path, object ∈ tree.storedBelow (corner :: path) := by
  rw [(rooted.storedBelow_perm found).mem_iff, List.mem_append, List.mem_flatMap]

/-- A sweep comes to what it comes to at the node itself, or from a child that there is. -/
theorem sweepReaches_iff (rooted : tree.Rooted) {node : OctNode BoundingBox}
    (found : tree.nodes.lookup path = some node) :
    tree.SweepReaches volumes path trigger object ↔
      trigger ∈ tree.triggersOf volumes node ∧
          (tree.QueryReaches trigger object ∨
            ∃ corner ∈ tree.children path, object ∈ tree.storedBelow (corner :: path)) ∨
        ∃ corner ∈ tree.children path, tree.SweepReaches volumes (corner :: path) trigger object := by
  -- Nothing is stored below a corner without a child.
  have present (corner : Fin 8) (some_ : object ∈ tree.storedBelow (corner :: path)) :
      corner ∈ tree.children path := by
    obtain ⟨other, node, under, there, -⟩ := mem_storedBelow.mp some_
    exact mem_children.mpr (rooted.above there under)
  constructor
  · rintro ⟨place, other, under, there, own, reaches⟩
    -- The node with the trigger is this one, or is below a child.
    obtain rfl | ⟨corner, under⟩ := (suffix_iff path place).mp under
    · rw [found] at there
      cases there
      exact .inl ⟨own, reaches.imp_right fun ⟨corner, some_⟩ => ⟨corner, present corner some_, some_⟩⟩
    · exact .inr ⟨corner, mem_children.mpr (rooted.above there under),
        place, other, under, there, own, reaches⟩
  · rintro (⟨own, reaches⟩ | ⟨corner, -, place, other, under, rest⟩)
    · exact ⟨path, node, List.suffix_refl _, found, own,
        reaches.imp_right fun ⟨corner, _, some_⟩ => ⟨corner, some_⟩⟩
    · exact ⟨place, other, (List.suffix_cons corner path).trans under, rest⟩

/-- A sweep from a place on comes to an object for a trigger, which may be from further above. -/
def Comes (volumes : TriggerVolumes) (tree : OctTree BoundingBox) (path : Path)
    (parentTriggers : List ObjectPtr) (trigger object : ObjectPtr) : Prop :=
  trigger ∈ parentTriggers ∧ object ∈ tree.storedBelow path ∨
    tree.SweepReaches volumes path trigger object

/-- A sweep comes to an object at the node itself, or at a child, which is handed the node's triggers. -/
theorem comes_iff (rooted : tree.Rooted) {node : OctNode BoundingBox}
    (found : tree.nodes.lookup path = some node) {parentTriggers : List ObjectPtr} :
    tree.Comes volumes path parentTriggers trigger object ↔
      (trigger ∈ parentTriggers ∧ object ∈ node.objects ∨
          trigger ∈ tree.triggersOf volumes node ∧ tree.QueryReaches trigger object) ∨
        ∃ corner ∈ tree.children path, tree.Comes volumes (corner :: path)
          (parentTriggers ++ tree.localTriggers volumes node parentTriggers) trigger object := by
  simp only [Comes, mem_storedBelow_children rooted found, sweepReaches_iff rooted found,
    List.mem_append, mem_localTriggers]
  constructor
  · rintro (⟨above, inside | ⟨corner, member, inside⟩⟩ |
      ⟨own, reaches | ⟨corner, member, inside⟩⟩ | ⟨corner, member, further⟩)
    · exact .inl (.inl ⟨above, inside⟩)
    · exact .inr ⟨corner, member, .inl ⟨.inl above, inside⟩⟩
    · exact .inl (.inr ⟨own, reaches⟩)
    · exact .inr ⟨corner, member, .inl ⟨.inr own, inside⟩⟩
    · exact .inr ⟨corner, member, .inr further⟩
  · rintro ((⟨above, inside⟩ | ⟨own, reaches⟩) | ⟨corner, member, ⟨known, inside⟩ | further⟩)
    · exact .inl ⟨above, .inl inside⟩
    · exact .inr (.inl ⟨own, .inl reaches⟩)
    · -- A trigger that a child is given is from above, or one of the node.
      rcases known with above | own
      · exact .inl ⟨above, .inr ⟨corner, member, inside⟩⟩
      · exact .inr (.inl ⟨own, .inr ⟨corner, member, inside⟩⟩)
    · exact .inr (.inr ⟨corner, member, further⟩)

/-- The pairs of a node: its objects for the triggers from above, and what its own queries find. -/
def ownPairs (volumes : TriggerVolumes) (tree : OctTree BoundingBox)
    (answer : ObjectPtr → List (ObjectPtr × ObjectPtr)) (node : OctNode BoundingBox)
    (parentTriggers : List ObjectPtr) : List (ObjectPtr × ObjectPtr) :=
  parentTriggers.flatMap (tree.below volumes node) ++
    ((tree.localTriggers volumes node parentTriggers).map answer).flatten

/-- A node adds its own pairs, and then each child its part. -/
theorem getTriggerInteractions_succ {node : OctNode BoundingBox}
    (found : tree.nodes.lookup path = some node) {answer : ObjectPtr → List (ObjectPtr × ObjectPtr)}
    (answers : ∀ asked, tree.around volumes asked = some (answer asked)) (fuel : Nat)
    (collisions : List (ObjectPtr × ObjectPtr)) (parentTriggers : List ObjectPtr) :
    tree.getTriggerInteractions volumes (fuel + 1) path collisions parentTriggers =
      (tree.children path).foldlM (fun collisions corner =>
          tree.getTriggerInteractions volumes fuel (corner :: path) collisions
            (parentTriggers ++ tree.localTriggers volumes node parentTriggers))
        (collisions ++ tree.ownPairs volumes answer node parentTriggers) := by
  -- Every query ends, so the loop over the local triggers does.
  have queries (triggers : List ObjectPtr) :
      triggers.mapM (tree.around volumes) = some (triggers.map answer) := by
    rw [funext answers]
    exact List.mapM_pure
  simp only [getTriggerInteractions, found, Option.bind_eq_bind, Option.bind_some, queries]
  rfl

theorem mem_ownPairs {node : OctNode BoundingBox} {answer : ObjectPtr → List (ObjectPtr × ObjectPtr)}
    (members : ∀ asked trigger object, (trigger, object) ∈ answer asked ↔
      trigger = asked ∧ tree.Told volumes trigger object ∧ tree.QueryReaches trigger object)
    {parentTriggers : List ObjectPtr} :
    (trigger, object) ∈ tree.ownPairs volumes answer node parentTriggers ↔
      tree.Told volumes trigger object ∧
        (trigger ∈ parentTriggers ∧ object ∈ node.objects ∨
          trigger ∈ tree.triggersOf volumes node ∧ tree.QueryReaches trigger object) := by
  simp only [ownPairs, List.mem_append, List.mem_flatMap, mem_below, List.mem_flatten, List.mem_map]
  constructor
  · rintro (⟨_, above, rfl, inside, told⟩ | ⟨_, ⟨asked, own, rfl⟩, pair⟩)
    · exact ⟨told, .inl ⟨above, inside⟩⟩
    · obtain ⟨rfl, told, reaches⟩ := (members asked _ _).mp pair
      exact ⟨told, .inr ⟨mem_localTriggers.mp own, reaches⟩⟩
  · rintro ⟨told, ⟨above, inside⟩ | ⟨own, reaches⟩⟩
    · exact .inl ⟨trigger, above, rfl, inside, told⟩
    · exact .inr ⟨answer trigger, ⟨trigger, mem_localTriggers.mpr own, rfl⟩,
        (members _ _ _).mpr ⟨rfl, told, reaches⟩⟩

/-- With enough nested calls, a sweep adds the pairs for the triggers from above and for its own. -/
theorem getTriggerInteractions_adds (rooted : tree.Rooted) :
    ∀ levels path, tree.span < levels + path.length → (tree.nodes.lookup path).isSome →
      ∀ parentTriggers, ∃ added, (∀ fuel ≥ levels, ∀ collisions,
          tree.getTriggerInteractions volumes fuel path collisions parentTriggers =
            some (collisions ++ added)) ∧
        ∀ trigger object, (trigger, object) ∈ added ↔
          tree.Told volumes trigger object ∧ tree.Comes volumes path parentTriggers trigger object := by
  intro levels
  -- No node is below the lowest level, so the levels run out after the children do.
  induction levels with
  | zero =>
    intro path long present
    obtain ⟨node, found⟩ := Option.isSome_iff_exists.mp present
    have short := length_le_span found
    omega
  | succ levels ih =>
    intro path long present parentTriggers
    obtain ⟨node, found⟩ := Option.isSome_iff_exists.mp present
    choose answer answers members using @around_adds volumes tree rooted
    -- Each turn of the loop adds the pairs of one child.
    have turn (corner : Fin 8) : ∃ added, corner ∈ tree.children path →
        (∀ fuel ≥ levels, ∀ collisions,
          tree.getTriggerInteractions volumes fuel (corner :: path) collisions
              (parentTriggers ++ tree.localTriggers volumes node parentTriggers) =
            some (collisions ++ added)) ∧
        ∀ trigger object, (trigger, object) ∈ added ↔ tree.Told volumes trigger object ∧
          tree.Comes volumes (corner :: path)
            (parentTriggers ++ tree.localTriggers volumes node parentTriggers) trigger object := by
      by_cases member : corner ∈ tree.children path
      · obtain ⟨child, there⟩ := mem_children.mp member
        obtain ⟨added, adds⟩ := ih (corner :: path) (by rw [List.length_cons]; omega)
          (by rw [there]; rfl) (parentTriggers ++ tree.localTriggers volumes node parentTriggers)
        exact ⟨added, fun _ => adds⟩
      · exact ⟨[], fun inside => absurd inside member⟩
    choose added adds using turn
    refine ⟨tree.ownPairs volumes answer node parentTriggers ++ (tree.children path).flatMap added,
      fun fuel enough collisions => ?_, fun trigger object => ?_⟩
    · -- The children get one level less, and each one adds its part behind what is there.
      obtain ⟨fuel, rfl⟩ := Nat.exists_eq_add_of_le' (Nat.one_le_of_lt enough)
      rw [getTriggerInteractions_succ found answers,
        foldlM_append _ fun corner member => (adds corner member).1 fuel (by omega),
        List.append_assoc]
    · rw [List.mem_append, List.mem_flatMap, mem_ownPairs members, comes_iff rooted found]
      refine (or_congr_right ⟨?_, ?_⟩).trans and_or_left.symm
      · rintro ⟨corner, member, pair⟩
        obtain ⟨told, comes⟩ := ((adds corner member).2 _ _).mp pair
        exact ⟨told, corner, member, comes⟩
      · rintro ⟨told, corner, member, comes⟩
        exact ⟨corner, member, ((adds corner member).2 _ _).mpr ⟨told, comes⟩⟩

end Pairs

/--
Wherever a run has come to, the sweep behind an update ends, and a trigger tracks from then on what it
has tracked before and what is in its box, as far as the sweep comes to that.

It is told of no object that is to be deleted.
-/
theorem tracks_after_update (objects : ObjectPtr → Occupant BoundingBox) (region : BoundingBox)
    (events : List (OctEvent BoundingBox)) (volumes : TriggerVolumes) :
    ∃ next collisions, (final step (empty objects region) events).step .update = some next ∧
      (∀ fuel > next.span, next.getTriggerInteractions volumes fuel [] [] [] = some collisions) ∧
      (∀ pair ∈ collisions,
        (next.objects pair.1).marked = false ∧ (next.objects pair.2).marked = false) ∧
      ∀ trigger object, (volumes.addObjects collisions).Tracks trigger object ↔
        volumes.Tracks trigger object ∨
          Told volumes next trigger object ∧ SweepReaches volumes next [] trigger object := by
  have kept : Kept step (Sound : OctTree BoundingBox → Prop) := by
    intro tree event next sound taken
    obtain ⟨other, same, kept⟩ := sound.step event
    cases Option.some.inj (same.symm.trans taken)
    exact kept
  have sound := kept.final events (sound_empty objects region)
  obtain ⟨next, taken, kept⟩ := sound.step .update
  obtain ⟨-, clean, -⟩ := sound.update taken
  obtain ⟨root, here⟩ := kept.rooted.root
  obtain ⟨collisions, adds, members⟩ := @getTriggerInteractions_adds volumes next kept.rooted
    (next.span + 1) [] (by simp) (by rw [here]; rfl) []
  have found : ∀ trigger object, (trigger, object) ∈ collisions ↔
      Told volumes next trigger object ∧ SweepReaches volumes next [] trigger object := by
    intro trigger object
    rw [members]
    simp [Comes]
  refine ⟨next, collisions, taken, fun fuel enough => adds fuel enough [], fun pair member => ?_,
    fun trigger object => ?_⟩
  · obtain ⟨-, place, node, -, there, own, reaches⟩ := (found pair.1 pair.2).mp member
    refine ⟨clean place node List.nil_suffix there pair.1 (List.mem_filter.mp own).1, ?_⟩
    -- The object is in the node that the query comes to, or in one further below.
    rcases reaches with ⟨other, inner, -, lookup, inside⟩ | ⟨corner, some_⟩
    · exact clean other inner List.nil_suffix lookup pair.2 inside
    · obtain ⟨other, inner, -, lookup, inside⟩ := mem_storedBelow.mp some_
      exact clean other inner List.nil_suffix lookup pair.2 inside
  · rw [TriggerVolumes.tracks_addObjects, found]
    -- The sweep leaves each trigger's owner out before the trigger does.
    intro pair member
    obtain ⟨told, place, node, -, -, own, -⟩ := (found pair.1 pair.2).mp member
    have isTrigger := (Bool.and_eq_true_iff.mp (List.mem_filter.mp own).2).1
    obtain ⟨volume, there⟩ := Option.isSome_iff_exists.mp isTrigger
    have may := (Bool.and_eq_true_iff.mp told.1).2
    exact ⟨volume, there, by simpa [there] using may⟩

end OctTree

end Recap.Game
