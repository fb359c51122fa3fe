import Recap.Game.OctreeInsert

/-! What a tree holds of an object, counting what it has given up on, and what keeps that the same. -/

namespace Recap.Game

namespace OctNode

variable {Box : Type}

/-- How often a node has an object, in its list or still in its queue. -/
def weight (object : ObjectPtr) (node : OctNode Box) : Nat :=
  node.objects.count object + node.queue.count object

theorem minusOne_lives : (-1 : Int8) ≠ 0 := by decide

theorem create_lives {region : Box} {objects : List ObjectPtr} :
    (create region objects).lifespan ≠ 0 :=
  minusOne_lives

end OctNode

namespace OctTree

open Spatial Totals

variable {Box : Type} {tree tree' : OctTree Box} {path : Path} {node old : OctNode Box}

/-- How often an object was taken in and is not gone, as it is in the tree or was given up on. -/
def held (tree : OctTree Box) (object : ObjectPtr) : Nat :=
  total (OctNode.weight object) tree.nodes + tree.dropped.count object

section Held

/-- A node in the place of another one is held instead of it. -/
theorem held_setNode (found : tree.nodes.lookup path = some old) (object : ObjectPtr) :
    (tree.setNode path node).held object + old.weight object =
      tree.held object + node.weight object := by
  have inserted := @total_insert _ _ _ (OctNode.weight object) path node tree.nodes
  rw [found] at inserted
  simp only [Option.map_some, Option.getD_some] at inserted
  simp only [held, dropped_setNode]
  change total _ (tree.nodes.insert path node) + _ + _ = _
  omega

/-- A node at a free place is held in addition. -/
theorem held_setNode_free (free : tree.nodes.lookup path = none) (object : ObjectPtr) :
    (tree.setNode path node).held object = tree.held object + node.weight object := by
  have inserted := @total_insert _ _ _ (OctNode.weight object) path node tree.nodes
  rw [free] at inserted
  simp only [Option.map_none, Option.getD_none] at inserted
  simp only [held, dropped_setNode]
  change total _ (tree.nodes.insert path node) + _ = _
  omega

theorem count_objectsBelow (object : ObjectPtr) : (tree.objectsBelow path).count object =
    total (OctNode.weight object) (restrict (fun other => path.isSuffixOf other) tree.nodes) := by
  rw [objectsBelow, List.count_flatMap]
  unfold total OctNode.weight
  congr 1
  apply List.map_congr_left
  intro entry _
  exact List.count_append

theorem lookup_prune (other : Path) : (tree.prune path).nodes.lookup other =
    if path <:+ other then none else tree.nodes.lookup other := by
  change (restrict (fun other => !path.isSuffixOf other) tree.nodes).lookup other = _
  rw [lookup_restrict]
  by_cases below : path <:+ other <;> simp [below]

/-- What is pruned is what was below. -/
theorem held_prune (object : ObjectPtr) : (tree.prune path).held object +
    (tree.objectsBelow path).count object = tree.held object := by
  -- The nodes below the path and all others make up the whole tree.
  have parts := @total_split _ _ (OctNode.weight object) (fun other => path.isSuffixOf other)
    tree.nodes
  rw [count_objectsBelow]
  simp only [held]
  change total _ (restrict (fun other => !path.isSuffixOf other) tree.nodes) +
    tree.dropped.count object + _ = _
  omega

/-- What a new node replaces is still held, as it has been given up on. -/
theorem held_createNode (region : Box) (objects : List ObjectPtr) (object : ObjectPtr) :
    (tree.createNode path region objects).held object =
      tree.held object + objects.count object := by
  -- What was below the path is given to those that were dropped.
  have pruned := @held_prune _ tree path object
  have free : (tree.prune path).nodes.lookup path = none := by
    rw [lookup_prune, if_pos (List.suffix_refl _)]
  have set := @held_setNode_free _ _ _ (OctNode.create region objects) free object
  have weight : (OctNode.create region objects).weight object = objects.count object := by
    simp [OctNode.weight, OctNode.create]
  have given : (tree.createNode path region objects).held object =
      ((tree.prune path).setNode path (OctNode.create region objects)).held object +
        (tree.objectsBelow path).count object := by
    simp only [held]
    change _ + (tree.objectsBelow path ++ tree.dropped).count object = _ +
      tree.dropped.count object + _
    rw [List.count_append, Nat.add_right_comm, Nat.add_assoc]
    rfl
  omega

/-- An empty node that nothing is below is no loss. -/
theorem count_objectsBelow_empty (rooted : tree.Rooted) (found : tree.nodes.lookup path = some node)
    (childless : tree.children path = []) {object : ObjectPtr} (empty : node.weight object = 0) :
    (tree.objectsBelow path).count object = 0 := by
  rw [count_objectsBelow, total_eq_zero_iff]
  intro other inner present
  rw [lookup_restrict] at present
  split at present
  · rename_i below
    obtain same | ⟨corner, under⟩ := (suffix_iff path other).mp (List.isSuffixOf_iff_suffix.mp below)
    · subst same
      rw [found] at present
      cases present
      exact empty
    · -- Nothing is below a child, as there is no child.
      rw [rooted.below_none (children_eq_nil.mp childless corner) under] at present
      cases present
  · cases present

end Held

section Sound

variable [Spatial Box]

/-- What every tree that a root has grown into satisfies, also while it is being updated. -/
structure Sound (tree : OctTree Box) : Prop where
  rooted : tree.Rooted
  /-- No node is deeper than its region allows. -/
  shallow : ∀ path node, tree.nodes.lookup path = some node →
    path.length + depth node.region ≤ tree.height
  /-- Only the root has a queue, and only until it is ready. -/
  queue : ∀ path node, tree.nodes.lookup path = some node → path ≠ [] ∨ node.ready = true →
    node.queue = []
  /-- A node is built before it is ready. -/
  built : ∀ path node, tree.nodes.lookup path = some node → node.ready = true → node.built = true
  /-- A node that has not been built has just been made. -/
  fresh : ∀ path node, tree.nodes.lookup path = some node → node.built = false →
    node.lifespan ≠ 0
  /-- A node whose time is over has no children, unless something has been put into it since. -/
  ended : ∀ path node, tree.nodes.lookup path = some node → node.lifespan = 0 →
    node.objects = [] → tree.children path = []

omit [Spatial Box] in
theorem children_setNode (found : tree.nodes.lookup path = some old) (other : Path) :
    (tree.setNode path node).children other = tree.children other := by
  -- A node that was there before is still there.
  unfold children
  apply List.filter_congr
  intro corner _
  rw [lookup_setNode]
  split
  · rename_i same
    rw [same, found]
    rfl
  · rfl

theorem height_setNode (found : tree.nodes.lookup path = some old)
    (region : node.region = old.region) : (tree.setNode path node).height = tree.height := by
  -- The height is that of the root, whose region stays.
  unfold height
  rw [lookup_setNode]
  split
  · rename_i root
    rw [root, found]
    simp [region]
  · rfl

/-- A change of a node that its neighbours do not see keeps the tree sound. -/
theorem Sound.setNode (sound : tree.Sound) (found : tree.nodes.lookup path = some old)
    (region : node.region = old.region)
    (queue : path ≠ [] ∨ node.ready = true → node.queue = [])
    (built : node.ready = true → node.built = true)
    (fresh : node.built = false → node.lifespan ≠ 0)
    (ended : node.lifespan = 0 → node.objects = [] → tree.children path = []) :
    (tree.setNode path node).Sound := by
  -- Only one node has changed, and its region has not.
  have cases_ (other : Path) (inner : OctNode Box)
      (present : (tree.setNode path node).nodes.lookup other = some inner) :
      (other = path ∧ inner = node) ∨ tree.nodes.lookup other = some inner := by
    rw [lookup_setNode] at present
    split at present
    · rename_i same
      exact .inl ⟨same, (Option.some.inj present).symm⟩
    · exact .inr present
  constructor
  · apply sound.rooted.setNode
    intro corner parent same
    subst same
    exact sound.rooted.parent corner parent old found
  · intro other inner present
    rw [height_setNode found region]
    obtain ⟨rfl, rfl⟩ | present := cases_ other inner present
    · rw [region]
      exact sound.shallow other old found
    · exact sound.shallow other inner present
  · intro other inner present
    obtain ⟨rfl, rfl⟩ | present := cases_ other inner present
    · exact queue
    · exact sound.queue other inner present
  · intro other inner present
    obtain ⟨rfl, rfl⟩ | present := cases_ other inner present
    · exact built
    · exact sound.built other inner present
  · intro other inner present
    obtain ⟨rfl, rfl⟩ | present := cases_ other inner present
    · exact fresh
    · exact sound.fresh other inner present
  · intro other inner present
    rw [children_setNode found]
    obtain ⟨rfl, rfl⟩ | present := cases_ other inner present
    · exact ended
    · exact sound.ended other inner present

/-- Only the nodes count for whether a tree is sound. -/
theorem Sound.of_nodes (sound : tree.Sound) (same : tree'.nodes = tree.nodes) : tree'.Sound := by
  obtain ⟨⟨root, parent⟩, shallow, queue, built, fresh, ended⟩ := sound
  have height : tree'.height = tree.height := by rw [OctTree.height, OctTree.height, same]
  constructor
  · constructor
    · rwa [same]
    · rwa [same]
  · rwa [height, same]
  · rwa [same]
  · rwa [same]
  · rwa [same]
  · simpa only [children, same] using ended

variable {parent : Path} {corner : Fin 8} {above : OctNode Box}

omit [Spatial Box] in
theorem Rooted.prune (rooted : tree.Rooted) : (tree.prune (corner :: parent)).Rooted := by
  constructor
  · rw [lookup_prune, if_neg (by simp)]
    exact rooted.root
  · intro first other child present
    rw [lookup_prune] at present
    split at present
    · cases present
    · rename_i apart
      -- A node outside has its parent outside.
      rw [lookup_prune, if_neg fun under => apart (under.trans (List.suffix_cons first other))]
      exact rooted.parent first other child present

theorem height_prune : (tree.prune (corner :: parent)).height = tree.height := by
  rw [height, lookup_prune, if_neg (by simp)]
  rfl

theorem Sound.prune (sound : tree.Sound) : (tree.prune (corner :: parent)).Sound := by
  have still {other : Path} {node : OctNode Box}
      (present : (tree.prune (corner :: parent)).nodes.lookup other = some node) :
      tree.nodes.lookup other = some node := by
    rw [lookup_prune] at present
    split at present
    · cases present
    · exact present
  refine ⟨sound.rooted.prune, fun path node present => ?_,
    fun path node present => sound.queue path node (still present),
    fun path node present => sound.built path node (still present),
    fun path node present => sound.fresh path node (still present),
    fun path node present time empty => ?_⟩
  · rw [height_prune]
    exact sound.shallow path node (still present)
  · have childless := children_eq_nil.mp (sound.ended path node (still present) time empty)
    apply children_eq_nil.mpr
    intro first
    rw [lookup_prune, childless first]
    simp

/-- A node that is divided may get a new child, if its time is not over. -/
theorem Sound.add (sound : tree.Sound) (present : tree.nodes.lookup parent = some above)
    (free : tree.nodes.lookup (corner :: parent) = none)
    (divides : isSmallest above.region = false)
    (lives : above.lifespan = 0 → above.objects ≠ []) (objects : List ObjectPtr) :
    (tree.setNode (corner :: parent)
      (OctNode.create (octant above.region corner) objects)).Sound := by
  have height : (tree.setNode (corner :: parent)
      (OctNode.create (octant above.region corner) objects)).height = tree.height := by
    rw [OctTree.height, lookup_setNode, if_neg (by simp)]
    rfl
  have cases_ (other : Path) (inner : OctNode Box)
      (found : (tree.setNode (corner :: parent)
        (OctNode.create (octant above.region corner) objects)).nodes.lookup other = some inner) :
      (other = corner :: parent ∧ inner = OctNode.create (octant above.region corner) objects) ∨
        tree.nodes.lookup other = some inner := by
    rw [lookup_setNode] at found
    split at found
    · rename_i same
      exact .inl ⟨same, (Option.some.inj found).symm⟩
    · exact .inr found
  constructor
  · apply sound.rooted.setNode
    intro first other same
    obtain ⟨-, rfl⟩ := List.cons.inj same
    exact ⟨above, present⟩
  · intro other inner found
    rw [height]
    obtain ⟨rfl, rfl⟩ | old := cases_ other inner found
    · -- The octant has less depth than the region that was divided.
      have less := depth_octant above.region corner divides
      have deep := sound.shallow parent above present
      simp only [OctNode.create, List.length_cons]
      omega
    · exact sound.shallow other inner old
  · intro other inner found
    obtain ⟨rfl, rfl⟩ | old := cases_ other inner found
    · exact fun _ => rfl
    · exact sound.queue other inner old
  · intro other inner found
    obtain ⟨rfl, rfl⟩ | old := cases_ other inner found
    · intro ready
      cases ready
    · exact sound.built other inner old
  · intro other inner found
    obtain ⟨rfl, rfl⟩ | old := cases_ other inner found
    · exact fun _ => OctNode.create_lives
    · exact sound.fresh other inner old
  · intro other inner found time empty
    apply children_eq_nil.mpr
    intro first
    rw [lookup_setNode]
    obtain ⟨rfl, rfl⟩ | old := cases_ other inner found
    · rw [if_neg (by simp)]
      exact sound.rooted.below_none free (List.suffix_cons first _)
    · have childless := children_eq_nil.mp (sound.ended other inner old time empty)
      by_cases same : first :: other = corner :: parent
      · obtain ⟨rfl, rfl⟩ := List.cons.inj same
        rw [present] at old
        cases old
        exact absurd empty (lives time)
      · rw [if_neg same, childless first]

end Sound

end OctTree

end Recap.Game
