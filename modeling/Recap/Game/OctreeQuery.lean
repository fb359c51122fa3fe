import Recap.Game.Collision
import Recap.Game.OctreeShape

/-! A query skips the children that its region misses, and still finds what a search of all stored
objects would. -/

namespace Recap.Game

namespace OctTree

open Spatial

variable {Box : Type} [Spatial Box]

section Skipping

variable {tree : OctTree Box} {path : Path} {meets : Box → Bool}

/-- What a region meets inside another one, it meets in that one. -/
def Monotone (meets : Box → Bool) : Prop :=
  ∀ outer inner, contains outer inner = true → meets inner = true → meets outer = true

/-- A region that is met below a node makes the node's region met. -/
theorem Nested.meets_above (nested : tree.Nested path) (rooted : tree.Rooted)
    (monotone : Monotone meets) {top node : OctNode Box} (here : tree.nodes.lookup path = some top)
    {other : Path} (below : path <:+ other) (found : tree.nodes.lookup other = some node)
    (met : meets node.region = true) : meets top.region = true := by
  -- Each step up leads to a region that contains the last one.
  induction other generalizing node with
  | nil =>
    have same := List.suffix_nil.mp below
    subst same
    rw [here] at found
    cases found
    exact met
  | cons corner parent ih =>
    obtain same | below := List.suffix_cons_iff.mp below
    · subst same
      rw [here] at found
      cases found
      exact met
    · obtain ⟨above, present⟩ := rooted.parent corner parent node found
      apply ih below present
      exact monotone _ _ (nested.regions corner parent node above below found present) met

/-- A child whose region is missed has no object below it that is met. -/
theorem Nested.meets_child (nested : tree.Nested path) (rooted : tree.Rooted)
    (monotone : Monotone meets) {corner : Fin 8} {child : OctNode Box}
    (found : tree.nodes.lookup (corner :: path) = some child) {object : ObjectPtr}
    (member : object ∈ tree.storedBelow (corner :: path))
    (met : meets (tree.objects object).box = true) : meets child.region = true := by
  obtain ⟨other, node, below, present, inside⟩ := mem_storedBelow.mp member
  -- The node that stores the object is not the one that the search is at.
  have under := (List.suffix_cons corner path).trans below
  have different : other ≠ path := fun same => not_suffix_self corner path (same ▸ below)
  apply (nested.child corner).meets_above rooted monotone found below present
  exact monotone _ _ (nested.objects other node under different present object inside) met

end Skipping

section Search

variable {tree : OctTree Box} {meets : Box → Bool} {types : List NounType}

omit [Spatial Box] in
/-- What a search of the objects themselves would keep. -/
def wanted (tree : OctTree Box) (meets : Box → Bool) (types : List NounType) (object : ObjectPtr) :
    Bool :=
  accepts types (tree.objects object).type && meets (tree.objects object).box

/-- A loop that adds a fixed list at each turn adds all of them in order. -/
theorem foldlM_append {α β : Type} {step : List β → α → Option (List β)} {added : α → List β}
    (turns : List α) (adds : ∀ turn ∈ turns, ∀ found, step found turn = some (found ++ added turn))
    (found : List β) : turns.foldlM step found = some (found ++ turns.flatMap added) := by
  induction turns generalizing found with
  | nil => simp
  | cons turn rest ih =>
    rw [List.foldlM_cons, adds turn List.mem_cons_self, Option.bind_eq_bind, Option.bind_some,
      ih fun other member => adds other (List.mem_cons_of_mem _ member)]
    simp

omit [Spatial Box] in
/-- A node that is built adds its own objects, and then each child that is met its part. -/
theorem getObjects_succ {path : Path} {node : OctNode Box}
    (found : tree.nodes.lookup path = some node) (built : node.built = true) (fuel : Nat)
    (objects : List ObjectPtr) :
    tree.getObjects meets types (fuel + 1) path objects =
      (tree.children path).foldlM (fun objects corner => do
          let child ← tree.nodes.lookup (corner :: path)
          if meets child.region then getObjects meets types fuel tree (corner :: path) objects
          else return objects)
        (objects ++ node.objects.filter (tree.wanted meets types)) := by
  rw [getObjects, found, Option.bind_eq_bind, Option.bind_some, built]
  rfl

/-- With enough nested calls, a query adds what a search of everything stored below would keep. -/
theorem getObjects_adds (rooted : tree.Rooted)
    (built : ∀ path node, tree.nodes.lookup path = some node → node.built = true)
    (monotone : Monotone meets) :
    ∀ levels path node, tree.span < levels + path.length → tree.Nested path →
      tree.nodes.lookup path = some node →
      ∃ added, (∀ fuel ≥ levels, ∀ objects,
          tree.getObjects meets types fuel path objects = some (objects ++ added)) ∧
        added.Perm ((tree.storedBelow path).filter (tree.wanted meets types)) := by
  intro levels
  -- No node is below the lowest level, so the levels run out after the children do.
  induction levels with
  | zero =>
    intro path node long _ found
    have short := length_le_span found
    omega
  | succ levels ih =>
    intro path node long nested found
    -- Each turn of the loop adds what is wanted below one child.
    have turn (corner : Fin 8) : ∃ added, corner ∈ tree.children path →
        (∀ fuel ≥ levels, ∀ objects, (do
            let child ← tree.nodes.lookup (corner :: path)
            if meets child.region then getObjects meets types fuel tree (corner :: path) objects
            else return objects) = some (objects ++ added)) ∧
          added.Perm ((tree.storedBelow (corner :: path)).filter (tree.wanted meets types)) := by
      by_cases member : corner ∈ tree.children path
      · obtain ⟨child, present⟩ := mem_children.mp member
        cases met : meets child.region with
        | true =>
          obtain ⟨added, adds, same⟩ := ih (corner :: path) child
            (by rw [List.length_cons]; omega) (nested.child corner) present
          refine ⟨added, fun _ => ⟨fun fuel enough objects => ?_, same⟩⟩
          simp only [present, Option.bind_eq_bind, Option.bind_some, met, if_true]
          exact adds fuel enough objects
        | false =>
          -- Nothing below a child that is missed would be kept.
          have nothing : (tree.storedBelow (corner :: path)).filter (tree.wanted meets types) = [] := by
            refine List.filter_eq_nil_iff.mpr fun object inside kept => ?_
            have hit := (Bool.and_eq_true_iff.mp kept).2
            rw [nested.meets_child rooted monotone present inside hit] at met
            cases met
          refine ⟨[], fun _ => ⟨fun fuel _ objects => ?_, by rw [nothing]⟩⟩
          simp [present, met]
      · exact ⟨[], fun inside => absurd inside member⟩
    choose added adds using turn
    refine ⟨node.objects.filter (tree.wanted meets types) ++ (tree.children path).flatMap added,
      fun fuel enough objects => ?_, ?_⟩
    · obtain ⟨fuel, rfl⟩ := Nat.exists_eq_add_of_le' (Nat.one_le_of_lt enough)
      rw [getObjects_succ found (built path node found),
        foldlM_append _ fun corner member => (adds corner member).1 fuel (by omega),
        List.append_assoc]
    · refine List.Perm.trans ?_ ((rooted.storedBelow_perm found).filter _).symm
      rw [List.filter_append, List.filter_flatMap]
      apply List.Perm.append_left
      exact List.Perm.flatMap_left _ fun corner member => (adds corner member).2

end Search

end OctTree

namespace BoundingBox

/-- A box inside another one is met only where the other one is. -/
theorem intersects_of_contains (region : BoundingBox) :
    OctTree.Monotone region.intersects := by
  -- Along each axis, the way to the outer centre is at most the way over the inner one.
  have axis (here outer inner width wide narrow : ℚ) (inside : |outer - inner| ≤ wide - narrow)
      (met : |here - inner| ≤ width + narrow) : |here - outer| ≤ width + wide := by
    have bound : |here - outer| ≤ |here - inner| + |inner - outer| := abs_sub_le here inner outer
    rw [abs_sub_comm inner outer] at bound
    linarith
  intro outer inner inside met
  obtain ⟨insideX, insideY, insideZ⟩ := of_decide_eq_true inside
  obtain ⟨metX, metY, metZ⟩ := of_decide_eq_true met
  exact decide_eq_true ⟨axis _ _ _ _ _ _ insideX metX, axis _ _ _ _ _ _ insideY metY,
    axis _ _ _ _ _ _ insideZ metZ⟩

end BoundingBox

namespace OctTree

/-- The objects of a node and those below it whose boxes intersect a box. -/
def getObjectsInRegion (fuel : Nat) (tree : OctTree BoundingBox) (path : Path)
    (region : BoundingBox) (types : List NounType) : Option (List ObjectPtr) :=
  tree.getObjects region.intersects types fuel path []

/-- A query of a box finds what a search of all stored objects does, and each object once. -/
theorem getObjectsInRegion_perm (tree : OctTree BoundingBox) (rooted : tree.Rooted)
    (built : ∀ path node, tree.nodes.lookup path = some node → node.built = true)
    (contained : tree.Contained) (once : tree.stored.Nodup) (region : BoundingBox)
    (types : List NounType) :
    ∃ found, (∀ fuel > tree.span, tree.getObjectsInRegion fuel [] region types = some found) ∧
      found.Perm (tree.stored.filter fun object =>
        (types = [] ∨ (tree.objects object).type ∈ types) ∧
          region.intersects (tree.objects object).box = true) ∧
      found.Nodup := by
  obtain ⟨root, present⟩ := rooted.root
  obtain ⟨found, adds, same⟩ := @getObjects_adds _ _ _ _ types rooted built
    region.intersects_of_contains (tree.span + 1) [] root (by simp) contained present
  have test : tree.wanted region.intersects types = fun object =>
      decide ((types = [] ∨ (tree.objects object).type ∈ types) ∧
        region.intersects (tree.objects object).box = true) := by
    funext object
    simp [wanted, accepts]
  rw [storedBelow_nil, test] at same
  refine ⟨found, fun fuel enough => ?_, same, same.nodup_iff.mpr (once.filter _)⟩
  exact adds fuel enough []

/-- A divided region with one object across its middle and one in a corner. -/
def crossing : OctTree BoundingBox :=
  let region : BoundingBox := ⟨⟨0, 0, 0⟩, ⟨4, 4, 4⟩⟩
  let place : ObjectPtr → BoundingBox
    | 0 => ⟨⟨0, 0, 0⟩, ⟨1, 1, 1⟩⟩
    | _ => ⟨⟨2, 2, 2⟩, ⟨1, 1, 1⟩⟩
  ((empty (fun object => ⟨place object, .creature, false, false⟩) region).setNode []
      { OctNode.create region [0] with built := true, ready := true }).setNode [6]
    { OctNode.create (region.octant 6) [1] with built := true, ready := true }

/-- A box that only touches the corner's object finds it, on the other side of the octants' border. -/
theorem getObjectsInRegion_perm_crossing :
    ∃ found, (∀ fuel > crossing.span,
        crossing.getObjectsInRegion fuel [] ⟨⟨4, 4, 4⟩, ⟨1, 1, 1⟩⟩ [.creature] = some found) ∧
      found.Perm (crossing.stored.filter fun object =>
        ([NounType.creature] = [] ∨ (crossing.objects object).type ∈ [NounType.creature]) ∧
          BoundingBox.intersects ⟨⟨4, 4, 4⟩, ⟨1, 1, 1⟩⟩ (crossing.objects object).box = true) ∧
      found.Nodup :=
  getObjectsInRegion_perm crossing (by decide) (forall_nodes.mpr (by decide))
    (by decide +kernel) (by decide +kernel) _ _

example : crossing.getObjectsInRegion 2 [] ⟨⟨4, 4, 4⟩, ⟨1, 1, 1⟩⟩ [.creature] = some [1] := by
  decide +kernel

end OctTree

end Recap.Game
