import Recap.Game.Collision
import Recap.Game.OctreeShape

/-! Building a tree below a node keeps the node's objects, and puts each one inside its region. -/

namespace Recap.Game.OctTree

open Spatial Totals

variable {Box : Type}

section Make

variable {tree : OctTree Box} {path : Path}

/-- Nothing is left at and below the place of a new node but the node. -/
theorem lookup_createNode (region : Box) (objects : List ObjectPtr) (other : Path) :
    (tree.createNode path region objects).nodes.lookup other =
      if other = path then some (OctNode.create region objects)
      else if path <:+ other then none
      else tree.nodes.lookup other := by
  change ((tree.prune path).setNode path _).nodes.lookup other = _
  rw [lookup_setNode]
  split
  · rfl
  · change (restrict (fun other => !path.isSuffixOf other) tree.nodes).lookup other = _
    rw [lookup_restrict]
    by_cases below : path <:+ other <;> simp [below]

/-- At a place that was free, a new node takes nothing away. -/
theorem lookup_createNode_free (rooted : tree.Rooted) (free : tree.nodes.lookup path = none)
    (region : Box) (objects : List ObjectPtr) (other : Path) :
    (tree.createNode path region objects).nodes.lookup other =
      if other = path then some (OctNode.create region objects) else tree.nodes.lookup other := by
  rw [lookup_createNode]
  by_cases below : path <:+ other
  · simp [below, rooted.below_none free below]
  · simp [below]

theorem dropped_createNode_free (rooted : tree.Rooted) (free : tree.nodes.lookup path = none)
    (region : Box) (objects : List ObjectPtr) :
    (tree.createNode path region objects).dropped = tree.dropped := by
  -- No node is below the place, so none has anything to lose.
  have nothing : tree.objectsBelow path = [] := by
    apply List.flatMap_eq_nil_iff.mpr
    intro entry present
    simp only [restrict, List.mem_filter, List.isSuffixOf_iff_suffix] at present
    have found := AList.mem_lookup_iff.mpr present.1
    rw [Option.mem_def, rooted.below_none free present.2] at found
    cases found
  change tree.objectsBelow path ++ tree.dropped = tree.dropped
  rw [nothing, List.nil_append]

theorem Rooted.createNode (rooted : tree.Rooted) {corner : Fin 8} {parent : OctNode Box}
    (present : tree.nodes.lookup path = some parent)
    (free : tree.nodes.lookup (corner :: path) = none) (region : Box) (objects : List ObjectPtr) :
    (tree.createNode (corner :: path) region objects).Rooted := by
  -- The nodes are those of the tree with one more, which has a parent.
  have set : (tree.setNode (corner :: path) (OctNode.create region objects)).Rooted := by
    apply rooted.setNode
    intro first above same
    obtain ⟨-, rfl⟩ := List.cons.inj same
    exact ⟨parent, present⟩
  have same (other : Path) :
      (tree.createNode (corner :: path) region objects).nodes.lookup other =
        (tree.setNode (corner :: path) (OctNode.create region objects)).nodes.lookup other := by
    rw [lookup_createNode_free rooted free, lookup_setNode]
  constructor
  · rw [same]
    exact set.root
  · intro first above child found
    rw [same] at found ⊢
    exact set.parent first above child found

end Make

section Keep

variable {tree tree' : OctTree Box} {path : Path}

/-- Below a place, two trees have the same nodes. -/
def SameBelow (tree tree' : OctTree Box) (path : Path) : Prop :=
  ∀ other, path <:+ other → tree'.nodes.lookup other = tree.nodes.lookup other

/-- What changes below one child leaves the other children as they are. -/
theorem sameBelow_sibling {corner sibling : Fin 8}
    (outside : ∀ other, ¬ corner :: path <:+ other →
      tree'.nodes.lookup other = tree.nodes.lookup other)
    (different : sibling ≠ corner) : SameBelow tree tree' (sibling :: path) := by
  intro other below
  exact outside other fun under => different (corner_unique below under)

variable [Spatial Box]

theorem Nested.congr (nested : tree.Nested path) (same : SameBelow tree tree' path)
    (objects : tree'.objects = tree.objects) : tree'.Nested path := by
  constructor
  · intro other node below different found
    rw [same other below] at found
    rw [objects]
    exact nested.objects other node below different found
  · intro corner other child node below found present
    rw [same _ (below.trans (List.suffix_cons corner other))] at found
    rw [same other below] at present
    exact nested.regions corner other child node below found present

/-- Where there is no node, none is below. -/
theorem Rooted.nested_none (rooted : tree.Rooted) (free : tree.nodes.lookup path = none) :
    tree.Nested path := by
  constructor
  · intro other node below _ found
    rw [rooted.below_none free below] at found
    cases found
  · intro corner other child node below _ present
    rw [rooted.below_none free below] at present
    cases present

/-- What holds between a node and its children, and below each child, holds below the node. -/
theorem nested_of_children {node : OctNode Box} (here : tree.nodes.lookup path = some node)
    (own : ∀ corner child, tree.nodes.lookup (corner :: path) = some child →
      contains node.region child.region = true ∧
        ∀ object ∈ child.objects, contains child.region (tree.objects object).box = true)
    (below : ∀ corner, tree.Nested (corner :: path)) : tree.Nested path := by
  constructor
  · intro other inner under different found
    obtain same | ⟨corner, under⟩ := (suffix_iff path other).mp under
    · exact absurd same different
    · -- The place is a child's own, or further below that child.
      by_cases same : other = corner :: path
      · subst same
        exact (own corner inner found).2
      · exact (below corner).objects other inner under same found
  · intro corner other child above under found present
    obtain same | ⟨first, under⟩ := (suffix_iff path other).mp under
    · subst same
      rw [here] at present
      cases present
      exact (own corner child found).1
    · exact (below first).regions corner other child above under found present

end Keep

section Part

variable [Spatial Box] {tree : OctTree Box} {region : Box} {objects : List ObjectPtr}

/-- The objects of a list whose place among the octants is a given one. -/
def placedIn (tree : OctTree Box) (region : Box) (objects : List ObjectPtr)
    (place : Option (Fin 8)) : List ObjectPtr :=
  objects.filter fun object => tree.octantOf region object = place

/-- Every object of a list has one place: an octant, or none. -/
theorem count_placedIn (object : ObjectPtr) :
    (tree.placedIn region objects none).count object +
        ((List.finRange 8).map fun corner =>
          (tree.placedIn region objects (some corner)).count object).sum = objects.count object := by
  have count (place : Option (Fin 8)) : (tree.placedIn region objects place).count object =
      if tree.octantOf region object = place then objects.count object else 0 := by
    rw [placedIn]
    split
    · exact List.count_filter (by simpa)
    · rename_i elsewhere
      apply List.count_eq_zero.mpr
      intro member
      exact elsewhere (by simpa using (List.mem_filter.mp member).2)
  simp only [count]
  cases tree.octantOf region object with
  | none => simp
  | some octant =>
    -- One of the eight corners is the octant.
    rw [← Fin.sum_univ_def]
    simp

theorem octantOf_contains {object : ObjectPtr} {corner : Fin 8}
    (placed : tree.octantOf region object = some corner) :
    contains (octant region corner) (tree.objects object).box = true := by
  unfold octantOf at placed
  simp only at placed
  split at placed
  · cases placed
  · have inside := List.find?_some placed
    exact inside

end Part

section Build

variable [Spatial Box]

/-- The objects and the nodes outside of a subtree are as they were, and none were given up on. -/
structure Outside (tree : OctTree Box) (path : Path) (tree' : OctTree Box) : Prop where
  objects : tree'.objects = tree.objects
  enqueued : tree'.enqueued = tree.enqueued
  dropped : tree'.dropped = tree.dropped
  nodes : ∀ other, ¬ path <:+ other → tree'.nodes.lookup other = tree.nodes.lookup other

/-- What building below a node that has no children makes of the tree. -/
structure Built (fits : Box → Box → Prop) (tree : OctTree Box) (path : Path) (node : OctNode Box)
    (tree' : OctTree Box) : Prop extends Outside tree path tree' where
  rooted : tree'.Rooted
  here : ∃ objects, tree'.nodes.lookup path = some { node with objects := objects } ∧
    ∀ object ∈ objects, object ∈ node.objects
  keeps : ∀ object, (tree'.storedBelow path).count object = node.objects.count object
  nested : (∀ object ∈ node.objects, fits node.region (tree.objects object).box) → tree'.Nested path

/-- The loop over the corners, with the corners that are still to come. -/
structure Building (fits : Box → Box → Prop) (tree : OctTree Box) (path : Path) (node : OctNode Box)
    (corners : List (Fin 8)) (tree' : OctTree Box) : Prop extends Outside tree path tree' where
  rooted : tree'.Rooted
  here : tree'.nodes.lookup path =
    some { node with objects := tree.placedIn node.region node.objects none }
  free : ∀ corner ∈ corners, tree'.nodes.lookup (corner :: path) = none
  keeps : ∀ corner, corner ∉ corners → ∀ object, (tree'.storedBelow (corner :: path)).count object =
    (tree.placedIn node.region node.objects (some corner)).count object
  child : ∀ corner child, tree'.nodes.lookup (corner :: path) = some child →
    child.region = octant node.region corner ∧
      tree.placedIn node.region node.objects (some corner) ≠ [] ∧
      ∀ object ∈ child.objects, object ∈ tree.placedIn node.region node.objects (some corner)
  nested : (∀ object ∈ node.objects, fits node.region (tree.objects object).box) →
    ∀ corner, corner ∉ corners → tree'.Nested (corner :: path)

variable {fits : Box → Box → Prop} {tree tree' : OctTree Box} {path : Path} {node : OctNode Box}
  {corner : Fin 8} {corners : List (Fin 8)}

omit [Spatial Box] in
theorem not_below_parent : ¬ corner :: path <:+ path := not_suffix_self corner path

/-- An octant that no object is in gets no child. -/
theorem Building.skip (building : Building fits tree path node (corner :: corners) tree')
    (nothing : tree.placedIn node.region node.objects (some corner) = []) :
    Building fits tree path node corners tree' := by
  have free := building.free corner List.mem_cons_self
  refine { building with
    free := fun other member => building.free other (List.mem_cons_of_mem _ member)
    keeps := fun other past object => ?_
    nested := fun fitting other past => ?_ }
  -- The corner of this turn is the only one that was to come and is past now.
  · by_cases same : other = corner
    · subst same
      rw [nothing, building.rooted.storedBelow_eq_nil free]
    · exact building.keeps other (by simp [same, past]) object
  · by_cases same : other = corner
    · subst same
      exact building.rooted.nested_none free
    · exact building.nested fitting other (by simp [same, past])

/-- An octant with objects gets a child, which is built in turn. -/
theorem Building.build (building : Building fits tree path node (corner :: corners) tree')
    (fresh : corner ∉ corners)
    (some_ : tree.placedIn node.region node.objects (some corner) ≠ [])
    (divides : ∀ region box corner, fits region box → contains (octant region corner) box = true →
      contains region (octant region corner) = true ∧ fits (octant region corner) box)
    {tree'' : OctTree Box}
    (built : Built fits (tree'.createNode (corner :: path) (octant node.region corner)
        (tree.placedIn node.region node.objects (some corner))) (corner :: path)
      (OctNode.create (octant node.region corner)
        (tree.placedIn node.region node.objects (some corner))) tree'') :
    Building fits tree path node corners tree'' := by
  have free := building.free corner List.mem_cons_self
  have objects : tree''.objects = tree.objects := built.objects.trans building.objects
  -- Only what is below the new child has changed.
  have outside (other : Path) (apart : ¬ corner :: path <:+ other) :
      tree''.nodes.lookup other = tree'.nodes.lookup other := by
    rw [built.nodes other apart, lookup_createNode_free building.rooted free,
      if_neg fun same : other = corner :: path => apart (same ▸ List.suffix_refl _)]
  have sibling {other : Fin 8} (different : other ≠ corner) :
      SameBelow tree' tree'' (other :: path) := sameBelow_sibling outside different
  constructor
  · constructor
    · exact objects
    · exact built.enqueued.trans building.enqueued
    · rw [built.dropped, dropped_createNode_free building.rooted free, building.dropped]
    · intro other apart
      rw [outside other fun under => apart ((List.suffix_cons corner path).trans under)]
      exact building.nodes other apart
  · exact built.rooted
  · rw [outside path not_below_parent]
    exact building.here
  · intro other member
    have different : other ≠ corner := fun same => fresh (same ▸ member)
    rw [sibling different _ (List.suffix_refl _)]
    exact building.free other (List.mem_cons_of_mem _ member)
  · intro other past object
    by_cases same : other = corner
    · subst same
      exact built.keeps object
    · rw [count_storedBelow_congr (sibling same)]
      exact building.keeps other (by simp [same, past]) object
  · intro other child found
    by_cases same : other = corner
    · subst same
      obtain ⟨kept, here, inside⟩ := built.here
      rw [here] at found
      cases found
      exact ⟨rfl, some_, inside⟩
    · rw [sibling same _ (List.suffix_refl _)] at found
      exact building.child other child found
  · intro fitting other past
    by_cases same : other = corner
    · subst same
      apply built.nested
      intro object member
      obtain ⟨inside, placed⟩ := List.mem_filter.mp member
      have within := octantOf_contains (of_decide_eq_true placed)
      change fits (octant node.region other) (tree'.objects object).box
      rw [building.objects]
      exact (divides _ _ _ (fitting object inside) within).2
    · exact (building.nested fitting other (by simp [same, past])).congr (sibling same)
        (built.objects)

/-- After the last corner, every object is at the node or below the child for its octant. -/
theorem Building.built (building : Building fits tree path node [] tree')
    (divides : ∀ region box corner, fits region box → contains (octant region corner) box = true →
      contains region (octant region corner) = true ∧ fits (octant region corner) box) :
    Built fits tree path node tree' := by
  have inside {place : Option (Fin 8)} {object : ObjectPtr}
      (member : object ∈ tree.placedIn node.region node.objects place) :
      object ∈ node.objects ∧ tree.octantOf node.region object = place := by
    obtain ⟨inside, placed⟩ := List.mem_filter.mp member
    exact ⟨inside, of_decide_eq_true placed⟩
  refine { building.toOutside with rooted := building.rooted, here := ?_, keeps := ?_, nested := ?_ }
  · exact ⟨_, building.here, fun object member => (inside member).1⟩
  · intro object
    -- The parts of the list are below the children, and what has no octant is left.
    rw [(OctTree.storedBelow_perm building.here).count_eq, List.count_append, List.count_flatMap,
      ← @count_placedIn _ _ tree node.region node.objects object]
    congr 2
    apply List.map_congr_left
    intro corner _
    exact building.keeps corner (by simp) object
  · intro fitting
    apply nested_of_children building.here
    · intro corner child found
      obtain ⟨region, some_, objects⟩ := building.child corner child found
      have within {object : ObjectPtr}
          (member : object ∈ tree.placedIn node.region node.objects (some corner)) :
          contains (octant node.region corner) (tree.objects object).box = true :=
        octantOf_contains (inside member).2
      constructor
      · -- A child has an object, and an octant with an object in it is inside the region.
        obtain ⟨object, member⟩ := List.exists_mem_of_ne_nil _ some_
        rw [region]
        exact (divides _ _ _ (fitting object (inside member).1) (within member)).1
      · intro object member
        rw [region, building.objects]
        exact within (objects object member)
    · intro corner
      exact building.nested fitting corner (by simp)

/-- A node without children that is left as it is. -/
theorem Rooted.built_self (rooted : tree.Rooted) (found : tree.nodes.lookup path = some node)
    (childless : tree.children path = []) : Built fits tree path node tree := by
  refine ⟨⟨rfl, rfl, rfl, fun _ _ => rfl⟩, rooted, ⟨_, found, fun _ => id⟩, fun object => ?_,
    fun _ => ?_⟩
  · exact (rooted.storedBelow_childless childless found).count_eq object
  · -- No node is below it.
    have none_ (corner : Fin 8) := children_eq_nil.mp childless corner
    apply nested_of_children found
    · intro corner child present
      rw [none_ corner] at present
      cases present
    · exact fun corner => rooted.nested_none (none_ corner)

/-- The loop over the corners starts with the objects that no octant contains left at the node. -/
theorem Rooted.building (rooted : tree.Rooted) (found : tree.nodes.lookup path = some node)
    (childless : tree.children path = []) :
    Building fits tree path node (List.finRange 8) (tree.setNode path
      { node with objects := tree.placedIn node.region node.objects none }) := by
  have none_ (corner : Fin 8) := children_eq_nil.mp childless corner
  have set (corner : Fin 8) : (tree.setNode path
      { node with objects := tree.placedIn node.region node.objects none }).nodes.lookup
        (corner :: path) = none := by
    rw [lookup_setNode, if_neg (by simp), none_ corner]
  have all (corner : Fin 8) (past : corner ∉ List.finRange 8) : False :=
    past (List.mem_finRange corner)
  constructor
  · refine ⟨rfl, rfl, rfl, fun other apart => ?_⟩
    rw [lookup_setNode, if_neg fun same : other = path => apart (same ▸ List.suffix_refl _)]
  · apply rooted.setNode
    intro corner parent same
    subst same
    exact rooted.parent corner parent node found
  · rw [lookup_setNode, if_pos rfl]
  · exact fun corner _ => set corner
  · exact fun corner past => (all corner past).elim
  · intro corner child present
    rw [set corner] at present
    cases present
  · exact fun _ corner past => (all corner past).elim

/-- The loop over the corners comes to its end, if the building of each child does. -/
theorem Building.run (building : Building fits tree path node corners tree') (once : corners.Nodup)
    (divides : ∀ region box corner, fits region box → contains (octant region corner) box = true →
      contains region (octant region corner) = true ∧ fits (octant region corner) box)
    {bound : Nat}
    (builds : ∀ (tree : OctTree Box) (path : Path) (child : OctNode Box) (corner : Fin 8),
      child.region = octant node.region corner → tree.Rooted →
        tree.nodes.lookup path = some child → tree.children path = [] →
        ∃ tree', (∀ fuel ≥ bound, tree.buildTree fuel path = some tree') ∧
          Built fits tree path child tree') :
    ∃ tree'', (∀ fuel ≥ bound, corners.foldlM (fun t corner =>
        if tree.placedIn node.region node.objects (some corner) = [] then some t
        else
          (t.createNode (corner :: path) (octant node.region corner)
            (tree.placedIn node.region node.objects (some corner))).buildTree fuel (corner :: path))
        tree' = some tree'') ∧ Built fits tree path node tree'' := by
  induction corners generalizing tree' with
  | nil => exact ⟨tree', fun _ _ => rfl, building.built divides⟩
  | cons corner corners ih =>
    obtain ⟨fresh, once⟩ := List.nodup_cons.mp once
    by_cases nothing : tree.placedIn node.region node.objects (some corner) = []
    · obtain ⟨tree'', runs, built⟩ := ih (building.skip nothing) once
      refine ⟨tree'', fun fuel enough => ?_, built⟩
      rw [List.foldlM_cons, if_pos nothing, Option.bind_eq_bind, Option.bind_some]
      exact runs fuel enough
    · -- The new child has no children yet, as nothing was at its place.
      have free := building.free corner List.mem_cons_self
      have made := lookup_createNode_free building.rooted free (octant node.region corner)
        (tree.placedIn node.region node.objects (some corner))
      obtain ⟨child, childRuns, childBuilt⟩ := builds _ (corner :: path) _ corner rfl
        (building.rooted.createNode building.here free _ _)
        (by rw [made, if_pos rfl])
        (children_eq_nil.mpr fun first => by
          rw [made, if_neg (by simp)]
          exact building.rooted.below_none free (List.suffix_cons first _))
      obtain ⟨tree'', runs, built⟩ := ih (building.build fresh nothing divides childBuilt) once
      refine ⟨tree'', fun fuel enough => ?_, built⟩
      rw [List.foldlM_cons, if_neg nothing, childRuns fuel enough, Option.bind_eq_bind,
        Option.bind_some]
      exact runs fuel enough

/-- A node is left alone if it has one object that is inside its region, or is not divided. -/
def stays (tree : OctTree Box) (node : OctNode Box) : Bool :=
  (match node.objects with
    | [object] => contains node.region (tree.objects object).box
    | _ => false) || isSmallest node.region

theorem divided_of_not_stays (goes : ¬ tree.stays node = true) : isSmallest node.region = false := by
  rw [stays, Bool.or_eq_true, not_or] at goes
  exact Bool.eq_false_of_not_eq_true goes.2

theorem buildTree_succ (found : tree.nodes.lookup path = some node) (fuel : Nat) :
    tree.buildTree (fuel + 1) path =
      if tree.stays node then some tree
      else
        (List.finRange 8).foldlM (fun t corner =>
            if tree.placedIn node.region node.objects (some corner) = [] then some t
            else
              (t.createNode (corner :: path) (octant node.region corner)
                (tree.placedIn node.region node.objects (some corner))).buildTree fuel
                (corner :: path))
          (tree.setNode path
            { node with objects := tree.placedIn node.region node.objects none }) := by
  rw [buildTree, found]
  rfl

/-- Building below a node without children ends, as every division leaves less depth. -/
theorem buildTree_built
    (divides : ∀ region box corner, fits region box → contains (octant region corner) box = true →
      contains region (octant region corner) = true ∧ fits (octant region corner) box) (bound : Nat) :
    ∀ (tree : OctTree Box) (path : Path) (node : OctNode Box), depth node.region < bound →
      tree.Rooted → tree.nodes.lookup path = some node → tree.children path = [] →
      ∃ tree', (∀ fuel ≥ bound, tree.buildTree fuel path = some tree') ∧
        Built fits tree path node tree' := by
  induction bound with
  | zero =>
    intro _ _ node short
    cases short
  | succ bound ih =>
    intro tree path node short rooted found childless
    by_cases stops : tree.stays node = true
    · refine ⟨tree, fun fuel enough => ?_, rooted.built_self found childless⟩
      obtain ⟨fuel, rfl⟩ := Nat.exists_eq_add_of_le' (Nat.one_le_of_lt enough)
      rw [buildTree_succ found, if_pos stops]
    · have divided := divided_of_not_stays stops
      -- The octants have less depth, so their children are built within the bound.
      obtain ⟨tree', runs, built⟩ := (rooted.building found childless).run
        (List.nodup_finRange 8) divides fun tree path child corner same =>
          ih tree path child (by
            have less := depth_octant node.region corner divided
            rw [same]
            omega)
      refine ⟨tree', fun fuel enough => ?_, built⟩
      obtain ⟨fuel, rfl⟩ := Nat.exists_eq_add_of_le' (Nat.one_le_of_lt enough)
      rw [buildTree_succ found, if_neg stops]
      exact runs fuel (by omega)

end Build

end Recap.Game.OctTree
