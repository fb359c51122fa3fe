import Recap.Game.OctreeHolding

/-! What an update does to a tree, node by node and for the objects that it moves. -/

namespace Recap.Game.OctTree

open Spatial Totals

variable {Box : Type} {tree tree' tree'' : OctTree Box} {path place other : Path}
  {node : OctNode Box} {object : ObjectPtr} {objects more : List ObjectPtr}

section Grown

/-- A node has at most got more objects, and a new node has none that is marked. -/
structure Grown (tree tree' : OctTree Box) (place : Path) : Prop where
  old : ∀ node, tree.nodes.lookup place = some node → ∃ more,
    tree'.nodes.lookup place = some { node with objects := node.objects ++ more } ∧
      ∀ object ∈ more, (tree.objects object).marked = false
  new : tree.nodes.lookup place = none → ∀ node, tree'.nodes.lookup place = some node →
    ∀ object ∈ node.objects, (tree.objects object).marked = false

/-- Nothing about the objects has changed but whether they are dirty. -/
def SameObjects (tree tree' : OctTree Box) : Prop :=
  ∀ object, ∃ dirty, tree'.objects object = { tree.objects object with dirty := dirty }

theorem SameObjects.marked (same : SameObjects tree tree') (object : ObjectPtr) :
    (tree'.objects object).marked = (tree.objects object).marked := by
  obtain ⟨dirty, equal⟩ := same object
  rw [equal]

theorem SameObjects.refl (tree : OctTree Box) : SameObjects tree tree :=
  fun object => ⟨(tree.objects object).dirty, rfl⟩

theorem SameObjects.trans (first : SameObjects tree tree') (second : SameObjects tree' tree'') :
    SameObjects tree tree'' := by
  intro object
  obtain ⟨_, before⟩ := first object
  obtain ⟨dirty, after⟩ := second object
  exact ⟨dirty, by rw [after, before]⟩

theorem Grown.of_lookup (same : tree'.nodes.lookup place = tree.nodes.lookup place) :
    Grown tree tree' place := by
  constructor
  · intro node found
    exact ⟨[], by simp [same, found], by simp⟩
  · intro free node found
    rw [same, free] at found
    cases found

theorem Grown.trans (marks : SameObjects tree tree') (first : Grown tree tree' place)
    (second : Grown tree' tree'' place) : Grown tree tree'' place := by
  constructor
  · intro node found
    obtain ⟨before, present, unmarked⟩ := first.old node found
    obtain ⟨after, final, unmarked'⟩ := second.old _ present
    refine ⟨before ++ after, by simp [final], ?_⟩
    intro object member
    obtain member | member := List.mem_append.mp member
    · exact unmarked object member
    · rw [← marks.marked]
      exact unmarked' object member
  · intro free node found object member
    cases middle : tree'.nodes.lookup place with
    | none =>
      rw [← marks.marked]
      exact second.new middle node found object member
    | some early =>
      -- The node was made by the first of the two changes.
      obtain ⟨after, final, unmarked⟩ := second.old early middle
      rw [final] at found
      cases found
      obtain member | member := List.mem_append.mp member
      · exact first.new free early middle object member
      · rw [← marks.marked]
        exact unmarked object member

end Grown

section Clean

/-- No node from a place down stores an object that is marked. -/
def Clean (tree : OctTree Box) (path : Path) : Prop :=
  ∀ other node, path <:+ other → tree.nodes.lookup other = some node →
    ∀ object ∈ node.objects, (tree.objects object).marked = false

theorem Clean.grown (clean : tree.Clean path) (marks : SameObjects tree tree')
    (grown : ∀ other, path <:+ other → Grown tree tree' other) : tree'.Clean path := by
  -- A node is either new, or has its old objects with some more.
  intro other node below found object member
  rw [marks.marked]
  cases before : tree.nodes.lookup other with
  | none => exact (grown other below).new before node found object member
  | some old =>
    obtain ⟨more, after, unmarked⟩ := (grown other below).old old before
    rw [after] at found
    cases found
    obtain member | member := List.mem_append.mp member
    · exact clean other old below before object member
    · exact unmarked object member

theorem clean_of_children (here : tree.nodes.lookup path = some node)
    (own : ∀ object ∈ node.objects, (tree.objects object).marked = false)
    (below : ∀ corner, tree.Clean (corner :: path)) : tree.Clean path := by
  intro other inner under found
  obtain same | ⟨corner, under⟩ := (suffix_iff path other).mp under
  · subst same
    rw [here] at found
    cases found
    exact own
  · exact below corner other inner under found

end Clean

section Evolves

variable [Spatial Box]

/--
What a change below a place may do to a sound tree.

It takes in some objects, and loses none but those that are marked. Outside, it only lets nodes grow.
-/
structure Evolves (tree : OctTree Box) (path : Path) (gained : List ObjectPtr)
    (tree' : OctTree Box) : Prop where
  sound : tree'.Sound
  height : tree'.height = tree.height
  objects : SameObjects tree tree'
  enqueued : tree'.enqueued = tree.enqueued
  held : ∀ object, (tree.objects object).marked = false →
    tree'.held object = tree.held object + gained.count object
  outside : ∀ other, ¬ path <:+ other → Grown tree tree' other

theorem Evolves.refl (sound : tree.Sound) (path : Path) : Evolves tree path [] tree :=
  ⟨sound, rfl, .refl tree, rfl, fun _ _ => rfl, fun _ _ => .of_lookup rfl⟩

theorem Evolves.trans (first : Evolves tree path objects tree')
    (second : Evolves tree' path more tree'') : Evolves tree path (objects ++ more) tree'' := by
  constructor
  · exact second.sound
  · exact second.height.trans first.height
  · exact first.objects.trans second.objects
  · exact second.enqueued.trans first.enqueued
  · intro object unmarked
    rw [second.held object (by rw [first.objects.marked]; exact unmarked),
      first.held object unmarked, List.count_append, Nat.add_assoc]
  · intro other apart
    exact (first.outside other apart).trans first.objects (second.outside other apart)

/-- What happens below a child happens below its parent. -/
theorem Evolves.up {corner : Fin 8} (evolves : Evolves tree (corner :: path) objects tree') :
    Evolves tree path objects tree' :=
  { evolves with
    outside := fun other apart =>
      evolves.outside other fun under => apart ((List.suffix_cons corner path).trans under) }

/-- A node's fields other than its objects are as they were, and its objects are still there. -/
theorem Evolves.parent {corner : Fin 8} (evolves : Evolves tree (corner :: path) objects tree')
    (found : tree.nodes.lookup path = some node) :
    ∃ more, tree'.nodes.lookup path = some { node with objects := node.objects ++ more } ∧
      ∀ object ∈ more, (tree.objects object).marked = false :=
  (evolves.outside path (not_suffix_self corner path)).old node found

/-- A node may lend its objects to what happens afterwards. -/
theorem Evolves.after_setNode {old : OctNode Box} (found : tree.nodes.lookup path = some old)
    (evolves : Evolves (tree.setNode path node) path objects tree')
    (region : node.region = old.region)
    (lent : ∀ object, (tree.objects object).marked = false →
      node.weight object + objects.count object = old.weight object) :
    Evolves tree path [] tree' := by
  constructor
  · exact evolves.sound
  · rw [evolves.height, height_setNode found region]
  · exact evolves.objects
  · exact evolves.enqueued
  · intro object unmarked
    have set := @held_setNode _ tree path node old found object
    have balance := lent object unmarked
    rw [evolves.held object unmarked, List.count_nil]
    omega
  · intro other apart
    have same : (tree.setNode path node).nodes.lookup other = tree.nodes.lookup other := by
      rw [lookup_setNode, if_neg fun here : other = path => apart (here ▸ List.suffix_refl _)]
    have outside := evolves.outside other apart
    constructor
    · intro inner present
      exact outside.old inner (same.trans present)
    · intro free
      exact outside.new (same.trans free)

end Evolves

section Insert

variable [Spatial Box]

theorem Placed.enqueued (placed : Placed tree object place tree') :
    tree'.enqueued = tree.enqueued := by
  cases placed <;> rfl

/-- A node that was there has got nothing but the object. -/
theorem Placed.old (placed : Placed tree object place tree')
    (found : tree.nodes.lookup other = some node) : ∃ more,
      tree'.nodes.lookup other = some { node with objects := node.objects ++ more } ∧
        ∀ added ∈ more, added = object := by
  cases placed with
  | @own _ top present =>
    rw [lookup_setNode]
    split
    · rename_i same
      rw [same, present] at found
      cases found
      exact ⟨[object], rfl, fun added member => List.mem_singleton.mp member⟩
    · exact ⟨[], by simp [found], by simp⟩
  | new above free divides filled inside =>
    rw [lookup_setNode]
    split
    · rename_i same
      rw [same, free] at found
      cases found
    · exact ⟨[], by simp [found], by simp⟩

theorem Placed.grown (placed : Placed tree object place tree')
    (unmarked : (tree.objects object).marked = false) (other : Path) : Grown tree tree' other := by
  -- Only the node where the object was placed has one more.
  constructor
  · intro node found
    obtain ⟨more, after, only⟩ := placed.old found
    refine ⟨more, after, ?_⟩
    intro added member
    rw [only added member]
    exact unmarked
  · intro free node found added member
    cases placed with
    | own present =>
      rw [lookup_setNode] at found
      split at found
      · rename_i same
        rw [same, present] at free
        cases free
      · rw [free] at found
        cases found
    | new above free' divides filled inside =>
      rw [lookup_setNode] at found
      split at found
      · cases found
        rw [List.mem_singleton.mp member]
        exact unmarked
      · rw [free] at found
        cases found

theorem Placed.held (placed : Placed tree object place tree') (other : ObjectPtr) :
    tree'.held other = tree.held other + [object].count other := by
  -- The place is a node that was there, or one that was made for the object.
  cases placed with
  | @own _ node found =>
    have set := @held_setNode _ tree _ { node with objects := node.objects ++ [object] } node
      found other
    simp only [OctNode.weight, List.count_append] at set
    omega
  | @new _ corner node above free divides filled inside =>
    rw [held_setNode_free free]
    simp [OctNode.weight, OctNode.create]

theorem Placed.sound (placed : Placed tree object place tree') (sound : tree.Sound) :
    tree'.Sound := by
  cases placed with
  | @own place node found =>
    refine sound.setNode found rfl (sound.queue _ node found) (sound.built _ node found)
      (sound.fresh _ node found) ?_
    -- The node is not empty any more.
    intro _ empty
    simp at empty
  | @new parent corner node above free divides filled inside =>
    apply sound.add above free divides
    intro time empty
    exact filled empty (sound.ended parent node above time empty)

theorem Placed.height (placed : Placed tree object place tree') : tree'.height = tree.height := by
  cases placed with
  | @own place node found => exact height_setNode found rfl
  | new above free divides filled inside =>
    rw [OctTree.height, lookup_setNode, if_neg (by simp)]
    rfl

theorem Placed.evolves (placed : Placed tree object place tree') (sound : tree.Sound)
    (unmarked : path = [] ∨ (tree.objects object).marked = false) :
    Evolves tree path [object] tree' := by
  -- The root is the one place where nothing is asked of the object.
  refine ⟨placed.sound sound, placed.height, ?_, placed.enqueued, fun other _ => placed.held other,
    fun other apart => ?_⟩
  · rw [SameObjects, placed.objects]
    exact SameObjects.refl tree
  · obtain root | unmarked := unmarked
    · subst root
      exact absurd List.nil_suffix apart
    · exact placed.grown unmarked other

theorem Sound.span_le (sound : tree.Sound) : tree.span ≤ tree.height := by
  apply List.max_le_of_forall_le
  intro length member
  obtain ⟨path, present, rfl⟩ := List.mem_map.mp member
  obtain ⟨node, found⟩ := Option.isSome_iff_exists.mp (AList.lookup_isSome.mpr (AList.mem_keys.mpr present))
  have deep := sound.shallow path node found
  omega

/-- An object is put somewhere, or else given up on. -/
inductive Gone (tree : OctTree Box) (object : ObjectPtr) : OctTree Box → Prop where
  | placed {place : Path} {tree' : OctTree Box} (placed : Placed tree object place tree') :
      Gone tree object tree'
  | dropped : Gone tree object { tree with dropped := object :: tree.dropped }

theorem Gone.evolves (gone : Gone tree object tree') (sound : tree.Sound)
    (unmarked : path = [] ∨ (tree.objects object).marked = false) :
    Evolves tree path [object] tree' := by
  -- A dropped object is counted as well, beside the tree.
  cases gone with
  | placed placed => exact placed.evolves sound unmarked
  | dropped =>
    refine ⟨sound.of_nodes rfl, rfl, .refl tree, rfl, fun other _ => ?_, fun _ _ => .of_lookup rfl⟩
    simp only [held]
    rw [← List.singleton_append, List.count_append]
    omega

theorem Gone.old (gone : Gone tree object tree') (found : tree.nodes.lookup other = some node) :
    ∃ more, tree'.nodes.lookup other = some { node with objects := node.objects ++ more } ∧
      ∀ added ∈ more, added = object := by
  cases gone with
  | placed placed => exact placed.old found
  | dropped => exact ⟨[], by simp [found], by simp⟩

theorem Gone.grown (gone : Gone tree object tree')
    (unmarked : (tree.objects object).marked = false) (other : Path) : Grown tree tree' other := by
  cases gone with
  | placed placed => exact placed.grown unmarked other
  | dropped => exact .of_lookup rfl

/-- The bound on nested calls is enough for the way up and down a sound tree. -/
theorem insertOrDrop_gone (sound : tree.Sound) (found : tree.nodes.lookup place = some node)
    (object : ObjectPtr) :
    ∃ tree', tree.insertOrDrop place object = some tree' ∧ Gone tree object tree' := by
  -- Both outcomes of an insert are taken care of, and fuel for the height is enough.
  have deep := sound.shallow place node found
  have wide := sound.span_le
  obtain ⟨result, runs, outcome⟩ := @insert_ends _ _ tree object sound.rooted place node found
  have run := runs (2 * tree.height + 1) (by omega)
  obtain rfl | ⟨place', tree', rfl, placed⟩ := outcome
  · refine ⟨_, ?_, .dropped⟩
    rw [insertOrDrop, run]
    rfl
  · refine ⟨tree', ?_, .placed placed⟩
    rw [insertOrDrop, run]
    rfl

end Insert

section Build

variable [Spatial Box] {corner : Fin 8}

/-- A new child takes objects in, and the one in whose place it is made is given up on. -/
theorem Sound.createNode (sound : tree.Sound) (found : tree.nodes.lookup path = some node)
    (divides : isSmallest node.region = false) (lives : node.lifespan ≠ 0)
    (objects : List ObjectPtr) :
    Evolves tree path objects
      (tree.createNode (corner :: path) (octant node.region corner) objects) := by
  -- The new node hangs below the one that was found, where nothing else was left.
  have above : (tree.prune (corner :: path)).nodes.lookup path = some node := by
    rw [lookup_prune, if_neg (not_suffix_self corner path)]
    exact found
  have free : (tree.prune (corner :: path)).nodes.lookup (corner :: path) = none := by
    rw [lookup_prune, if_pos (List.suffix_refl _)]
  have added := sound.prune.add above free divides (fun time => absurd time lives) objects
  constructor
  · exact added.of_nodes rfl
  · rw [height, height, lookup_createNode, if_neg (by simp), if_neg (by simp)]
  · exact .refl tree
  · rfl
  · exact fun object _ => held_createNode _ _ object
  · intro other apart
    apply Grown.of_lookup
    have outside : ¬ corner :: path <:+ other := fun under =>
      apart ((List.suffix_cons corner path).trans under)
    rw [lookup_createNode, if_neg (fun same : other = corner :: path =>
      outside (same ▸ List.suffix_refl _)), if_neg outside]

/-- The node that is built has lost objects to its children, and nothing else about it changes. -/
def Rebuilt (tree : OctTree Box) (path : Path) (node : OctNode Box) : Prop :=
  ∃ objects, tree.nodes.lookup path = some { node with objects := objects }

/-- The loop over the corners takes in what each octant gets. -/
theorem build_corners {bound : Nat} {region : Box} (parts : Fin 8 → List ObjectPtr)
    (same : node.region = region) (divides : isSmallest region = false) (lives : node.lifespan ≠ 0)
    (builds : ∀ (tree : OctTree Box) (path : Path) (node : OctNode Box), tree.Sound →
      depth node.region < bound → tree.nodes.lookup path = some node → node.lifespan ≠ 0 →
      ∃ tree', (∀ fuel ≥ bound, tree.buildTree fuel path = some tree') ∧
        Evolves tree path [] tree' ∧ Rebuilt tree' path node)
    (short : ∀ corner, depth (octant region corner) < bound) (corners : List (Fin 8)) :
    ∀ tree : OctTree Box, tree.Sound → Rebuilt tree path node →
      ∃ tree', (∀ fuel ≥ bound, corners.foldlM (fun t corner =>
          if parts corner = [] then some t
          else
            (t.createNode (corner :: path) (octant region corner) (parts corner)).buildTree fuel
              (corner :: path)) tree = some tree') ∧
        Evolves tree path (corners.flatMap parts) tree' ∧ Rebuilt tree' path node := by
  subst same
  induction corners with
  | nil => exact fun tree sound here => ⟨tree, fun _ _ => rfl, .refl sound path, here⟩
  | cons corner corners ih =>
    intro tree sound here
    by_cases nothing : parts corner = []
    · obtain ⟨tree', runs, evolves, there⟩ := ih tree sound here
      refine ⟨tree', fun fuel enough => ?_, ?_, there⟩
      · rw [List.foldlM_cons, if_pos nothing, Option.bind_eq_bind, Option.bind_some]
        exact runs fuel enough
      · rwa [List.flatMap_cons, nothing, List.nil_append]
    · obtain ⟨objects, found⟩ := here
      have made := @Sound.createNode _ tree path _ _ corner sound found divides lives (parts corner)
      have child : (tree.createNode (corner :: path) (octant node.region corner)
          (parts corner)).nodes.lookup (corner :: path) =
            some (OctNode.create (octant node.region corner) (parts corner)) := by
        rw [lookup_createNode, if_pos rfl]
      have parent : (tree.createNode (corner :: path) (octant node.region corner)
          (parts corner)).nodes.lookup path = some { node with objects := objects } := by
        rw [lookup_createNode, if_neg (by simp), if_neg (not_suffix_self corner path), found]
      obtain ⟨built, childRuns, evolves, -⟩ := builds _ (corner :: path) _ made.sound
        (short corner) child OctNode.create_lives
      -- To the node, its child's building does nothing.
      obtain ⟨more, still, -⟩ := evolves.parent parent
      obtain ⟨tree', runs, rest, there⟩ := ih built evolves.sound ⟨_, still⟩
      refine ⟨tree', fun fuel enough => ?_, ?_, there⟩
      · rw [List.foldlM_cons, if_neg nothing, childRuns fuel enough, Option.bind_eq_bind,
          Option.bind_some]
        exact runs fuel enough
      · have all := (made.trans evolves.up).trans rest
        rwa [List.append_nil] at all

/-- Building below a node loses nothing, as it gives up on what it replaces. -/
theorem buildTree_evolves (bound : Nat) :
    ∀ (tree : OctTree Box) (path : Path) (node : OctNode Box), tree.Sound →
      depth node.region < bound → tree.nodes.lookup path = some node → node.lifespan ≠ 0 →
      ∃ tree', (∀ fuel ≥ bound, tree.buildTree fuel path = some tree') ∧
        Evolves tree path [] tree' ∧ Rebuilt tree' path node := by
  induction bound with
  | zero =>
    intro _ _ node _ short
    cases short
  | succ bound ih =>
    intro tree path node sound short found lives
    by_cases stops : tree.stays node = true
    · refine ⟨tree, fun fuel enough => ?_, .refl sound path, ⟨node.objects, found⟩⟩
      obtain ⟨fuel, rfl⟩ := Nat.exists_eq_add_of_le' (Nat.one_le_of_lt enough)
      rw [buildTree_succ found, if_pos stops]
    · have divided := divided_of_not_stays stops
      have kept : (tree.setNode path
          { node with objects := tree.placedIn node.region node.objects none }).Sound :=
        sound.setNode found rfl (sound.queue path node found) (sound.built path node found)
          (sound.fresh path node found) fun time => absurd time lives
      obtain ⟨tree', runs, evolves, there⟩ := build_corners
        (fun corner => tree.placedIn node.region node.objects (some corner)) rfl divided lives
        (fun tree path node sound short => ih tree path node sound short)
        (fun corner => by
          have less := depth_octant node.region corner divided
          omega)
        (List.finRange 8) _ kept ⟨_, by rw [lookup_setNode, if_pos rfl]⟩
      refine ⟨tree', fun fuel enough => ?_, ?_, there⟩
      · obtain ⟨fuel, rfl⟩ := Nat.exists_eq_add_of_le' (Nat.one_le_of_lt enough)
        rw [buildTree_succ found, if_neg stops]
        exact runs fuel (by omega)
      · -- What the corners take in is what the node has lost.
        apply evolves.after_setNode found rfl
        intro object _
        have parts := @count_placedIn _ _ tree node.region node.objects object
        simp only [OctNode.weight, List.count_flatMap, Function.comp_def]
        omega

end Build

section Update

variable [Spatial Box]

/-- The objects of a queue are put somewhere or given up on, one after the other. -/
theorem queue_evolves (queue : List ObjectPtr) : ∀ (tree : OctTree Box) (node : OctNode Box),
    tree.Sound → tree.nodes.lookup path = some node →
    (∀ object ∈ queue, path = [] ∨ (tree.objects object).marked = false) →
    ∃ tree', queue.foldlM (insertOrDrop path) tree = some tree' ∧
      Evolves tree path queue tree' ∧
      ∃ more, tree'.nodes.lookup path = some { node with objects := node.objects ++ more } := by
  -- The induction follows the queue, and each insert leaves the node where it is.
  induction queue with
  | nil => exact fun tree node sound found => fun _ =>
      ⟨tree, rfl, .refl sound path, [], by simp [found]⟩
  | cons object queue ih =>
    intro tree node sound found unmarked
    obtain ⟨middle, run, gone⟩ := insertOrDrop_gone sound found object
    have evolves := gone.evolves sound (unmarked object List.mem_cons_self)
    obtain ⟨before, still, -⟩ := gone.old found
    obtain ⟨tree', runs, rest, after, there⟩ := ih middle _ evolves.sound still
      fun other member => by
        rw [evolves.objects.marked]
        exact unmarked other (List.mem_cons_of_mem _ member)
    refine ⟨tree', ?_, evolves.trans rest, before ++ after, ?_⟩
    · rw [List.foldlM_cons, run, Option.bind_eq_bind, Option.bind_some]
      exact runs
    · simpa using there

/-- A node that is prepared is built, and has its queue in its tree. -/
theorem prepare_evolves (sound : tree.Sound) (found : tree.nodes.lookup path = some node) :
    ∃ tree', tree.prepare path = some tree' ∧ Evolves tree path [] tree' ∧
      ∃ node', tree'.nodes.lookup path = some node' ∧ node'.ready = true := by
  unfold prepare
  rw [found, Option.bind_eq_bind, Option.bind_some]
  by_cases ready : node.ready = true
  · exact ⟨tree, by rw [if_pos ready]; rfl, .refl sound path, node, found, ready⟩
  · rw [if_neg ready]
    have unqueued (below : path ≠ []) : node.queue = [] := sound.queue path node found (.inl below)
    by_cases built : node.built = true
    · rw [if_pos built]
      have kept : (tree.setNode path { node with queue := [], ready := true }).Sound :=
        sound.setNode found rfl (fun _ => rfl) (fun _ => built) (sound.fresh path node found)
          (sound.ended path node found)
      obtain ⟨tree', runs, evolves, more, there⟩ := queue_evolves node.queue _ _ kept
        (by rw [lookup_setNode, if_pos rfl]) fun object member => by
          -- Only the root has a queue.
          by_cases root : path = []
          · exact .inl root
          · rw [unqueued root] at member
            cases member
      refine ⟨tree', runs, evolves.after_setNode found rfl fun object _ => ?_, _, there, rfl⟩
      simp [OctNode.weight]
    · rw [if_neg built]
      have fresh := sound.fresh path node found (Bool.eq_false_of_not_eq_true built)
      have kept : (tree.setNode path { node with
          objects := node.objects ++ node.queue, queue := [], built := true, ready := true }).Sound :=
        sound.setNode found rfl (fun _ => rfl) (fun _ => rfl) (fun _ => fresh)
          fun time => absurd time fresh
      have deep := sound.shallow path node found
      have here : (tree.setNode path { node with
          objects := node.objects ++ node.queue, queue := [], built := true,
          ready := true }).nodes.lookup path = some { node with
            objects := node.objects ++ node.queue, queue := [], built := true, ready := true } := by
        rw [lookup_setNode, if_pos rfl]
      obtain ⟨tree', runs, evolves, objects, there⟩ := buildTree_evolves (tree.height + 1) _ path
        _ kept (by change depth node.region < _; omega) here fresh
      have height : (tree.setNode path { node with
          objects := node.objects ++ node.queue, queue := [], built := true,
          ready := true }).height = tree.height := height_setNode found rfl
      refine ⟨tree', ?_, evolves.after_setNode found rfl fun object _ => ?_, _, there, rfl⟩
      · exact runs _ (Nat.succ_le_succ height.ge)
      · simp [OctNode.weight]

omit [Spatial Box] in
/-- A node that ages to its end is empty, and is without children unless it was at its end before. -/
theorem age_eq (active : Bool) (node : OctNode Box) : ∃ maxLifespan lifespan,
    node.age active = { node with maxLifespan := maxLifespan, lifespan := lifespan } ∧
      (lifespan = 0 → node.objects = [] ∧ (active = true → node.lifespan = 0)) := by
  -- An empty node with an active child waits, and one with objects starts again from -1.
  unfold OctNode.age
  split
  · rename_i empty
    split
    · exact ⟨_, _, rfl, fun time => ⟨empty, fun _ => time⟩⟩
    · rename_i idle
      split
      · exact ⟨_, _, rfl, fun _ => ⟨empty, fun active => absurd active idle⟩⟩
      · split
        · exact ⟨_, _, rfl, fun _ => ⟨empty, fun active => absurd active idle⟩⟩
        · exact ⟨_, _, rfl, fun time => ⟨empty, fun _ => time⟩⟩
  · split
    · exact ⟨_, _, rfl, fun time => absurd time (by decide)⟩
    · rename_i young
      refine ⟨_, _, rfl, fun time => ?_⟩
      rw [not_not.mp young] at time
      cases time

omit [Spatial Box] in
/-- An object that is clean has not moved. -/
theorem not_mem_takeMoved (list : List ObjectPtr) : ∀ (objects : ObjectPtr → Occupant Box)
    {object : ObjectPtr}, (objects object).dirty = false → object ∉ (takeMoved list objects).1 := by
  -- The induction follows the list, of which only dirty objects are taken.
  induction list with
  | nil => simp [takeMoved]
  | cons first rest ih =>
    intro objects object clean
    unfold takeMoved
    split
    · rename_i dirty
      have different : object ≠ first := fun same => by simp [same, dirty] at clean
      have later := @ih (Function.update objects first { objects first with dirty := false }) object
        (by rwa [Function.update_of_ne different])
      simpa [different] using later
    · exact ih objects clean

omit [Spatial Box] in
/-- Every object that has moved is taken once, and is clean from then on. -/
theorem takeMoved_once (list : List ObjectPtr) : ∀ objects : ObjectPtr → Occupant Box,
    (takeMoved list objects).1.Nodup ∧ (∀ object ∈ (takeMoved list objects).1, object ∈ list) ∧
      ∀ object, ∃ dirty,
        (takeMoved list objects).2 object = { objects object with dirty := dirty } := by
  -- The induction follows the list. An object that is taken is not dirty any more.
  induction list with
  | nil =>
    intro objects
    refine ⟨List.nodup_nil, fun _ => id, fun object => ⟨(objects object).dirty, rfl⟩⟩
  | cons first rest ih =>
    intro objects
    unfold takeMoved
    split
    · obtain ⟨once, inside, same⟩ := ih
        (Function.update objects first { objects first with dirty := false })
      refine ⟨List.nodup_cons.mpr ⟨?_, once⟩, fun object member => ?_, fun object => ?_⟩
      · apply not_mem_takeMoved
        rw [Function.update_self]
      · obtain same | member := List.mem_cons.mp member
        · exact same ▸ List.mem_cons_self
        · exact List.mem_cons_of_mem _ (inside object member)
      · obtain ⟨dirty, equal⟩ := same object
        refine ⟨dirty, equal.trans ?_⟩
        by_cases here : object = first
        · rw [here, Function.update_self]
        · rw [Function.update_of_ne here]
    · obtain ⟨once, inside, same⟩ := ih objects
      exact ⟨once, fun object member => List.mem_cons_of_mem _ (inside object member), same⟩

/-- A node loses its marked objects, and keeps those that have moved until they are put elsewhere. -/
theorem collect_evolves (sound : tree.Sound) (found : tree.nodes.lookup path = some node)
    (ready : node.ready = true) :
    ∃ moved tree' node', tree.collect path = some (moved, tree') ∧ Evolves tree path [] tree' ∧
      tree'.nodes.lookup path = some node' ∧ node'.ready = true ∧
      (∀ object ∈ node'.objects, (tree'.objects object).marked = false) ∧ moved.Nodup ∧
      (∀ object ∈ moved, object ∈ node'.objects) ∧ (moved ≠ [] → node'.lifespan ≠ 0) := by
  obtain ⟨maxLifespan, lifespan, aged, time⟩ := age_eq (tree.children path ≠ []) node
  have member (object : ObjectPtr) : object ∈ node.objects.filter
      (fun object => !(tree.objects object).marked) ↔
        object ∈ node.objects ∧ (tree.objects object).marked = false := by
    simp
  obtain ⟨once, inside, same⟩ := takeMoved_once
    (node.objects.filter fun object => !(tree.objects object).marked) tree.objects
  have kept : (tree.setNode path { node with
      objects := node.objects.filter fun object => !(tree.objects object).marked,
      maxLifespan := maxLifespan, lifespan := lifespan }).Sound := by
    refine sound.setNode found rfl (sound.queue path node found) (sound.built path node found)
      (fun fresh => ?_) fun ends _ => ?_
    · have built := sound.built path node found ready
      rw [built] at fresh
      cases fresh
    · -- A node with children has not come to its end now, and then not before.
      by_contra active
      obtain ⟨empty, before⟩ := time ends
      exact active (sound.ended path node found (before (by simpa using active)) empty)
  have evolves : Evolves (tree.setNode path { node with
      objects := node.objects.filter fun object => !(tree.objects object).marked,
      maxLifespan := maxLifespan, lifespan := lifespan }) path [] { tree.setNode path { node with
        objects := node.objects.filter fun object => !(tree.objects object).marked,
        maxLifespan := maxLifespan, lifespan := lifespan } with
      objects := (takeMoved (node.objects.filter fun object => !(tree.objects object).marked)
        tree.objects).2 } :=
    ⟨kept.of_nodes rfl, rfl, same, rfl, fun _ _ => rfl, fun _ _ => .of_lookup rfl⟩
  have here : (tree.setNode path { node with
      objects := node.objects.filter fun object => !(tree.objects object).marked,
      maxLifespan := maxLifespan, lifespan := lifespan }).nodes.lookup path = some { node with
        objects := node.objects.filter fun object => !(tree.objects object).marked,
        maxLifespan := maxLifespan, lifespan := lifespan } := by
    rw [lookup_setNode, if_pos rfl]
  refine ⟨_, _, _, ?_, evolves.after_setNode found rfl fun object unmarked => ?_, here, ready, fun object stored => ?_, once, inside, fun moves => ?_⟩
  · rw [collect, found, Option.bind_eq_bind, Option.bind_some, aged]
    rfl
  · -- Only marked objects are lost.
    have counted : (node.objects.filter fun object => !(tree.objects object).marked).count object =
        node.objects.count object := List.count_filter (by simp [unmarked])
    simp only [OctNode.weight, counted, List.count_nil, Nat.add_zero]
  · obtain ⟨dirty, equal⟩ := same object
    simp only [equal]
    exact ((member object).mp stored).2
  · -- A node with an object that moves is not at its end.
    intro ends
    obtain ⟨object, moved⟩ := List.exists_mem_of_ne_nil _ moves
    have stored := ((member object).mp (inside object moved)).1
    rw [(time ends).1] at stored
    cases stored

/-- A child whose time is over is deleted if it is empty, and nothing is below it then. -/
theorem reap_evolves (sound : tree.Sound) (path : Path) (corner : Fin 8) :
    Evolves tree path [] (reap path tree corner) ∧
      (reap path tree corner).nodes.lookup path = tree.nodes.lookup path := by
  -- A child is only cut off when its time is over and it is empty.
  unfold reap
  cases found : tree.nodes.lookup (corner :: path) with
  | none => exact ⟨.refl sound path, rfl⟩
  | some child =>
    dsimp only
    by_cases time : child.lifespan = 0
    · rw [if_pos time]
      by_cases empty : child.objects = []
      · rw [if_pos empty]
        have childless := sound.ended _ child found time empty
        have unqueued := sound.queue _ child found (.inl (List.cons_ne_nil corner path))
        refine ⟨⟨sound.prune, height_prune, .refl tree, rfl, fun object _ => ?_, fun other apart => ?_⟩,
          ?_⟩
        · have pruned := @held_prune _ tree (corner :: path) object
          have nothing := @count_objectsBelow_empty _ tree _ child sound.rooted found childless object
            (by simp [OctNode.weight, empty, unqueued])
          rw [nothing] at pruned
          exact pruned
        · apply Grown.of_lookup
          rw [lookup_prune, if_neg fun under => apart ((List.suffix_cons corner path).trans under)]
        · rw [lookup_prune, if_neg (not_suffix_self corner path)]
      · rw [if_neg empty]
        have kept : (tree.setNode (corner :: path) { child with lifespan := -1 }).Sound :=
          sound.setNode found rfl (sound.queue _ child found) (sound.built _ child found)
            (fun _ => OctNode.minusOne_lives) (fun _ none_ => absurd none_ empty)
        refine ⟨(Evolves.after_setNode found (.refl kept (corner :: path)) rfl fun _ _ => ?_).up, ?_⟩
        · simp [OctNode.weight]
        · rw [lookup_setNode, if_neg (by simp)]
    · rw [if_neg time]
      exact ⟨.refl sound path, rfl⟩

theorem reap_all (corners : List (Fin 8)) : ∀ tree : OctTree Box, tree.Sound →
    Evolves tree path [] (corners.foldl (reap path) tree) ∧
      (corners.foldl (reap path) tree).nodes.lookup path = tree.nodes.lookup path := by
  -- The induction follows the corners.
  induction corners with
  | nil => exact fun tree sound => ⟨.refl sound path, rfl⟩
  | cons corner corners ih =>
    intro tree sound
    obtain ⟨first, same⟩ := reap_evolves sound path corner
    obtain ⟨rest, same'⟩ := ih _ first.sound
    exact ⟨first.trans rest, same'.trans same⟩

/-- The way up from a node ends at a node. -/
theorem climb_ends (rooted : tree.Rooted) (box : Box) : ∀ (path : Path) (node : OctNode Box),
    tree.nodes.lookup path = some node → ∃ current top,
      tree.climb box path = some current ∧ tree.nodes.lookup current = some top := by
  -- The induction follows the path up, and the root is always there.
  intro path
  induction path with
  | nil => exact fun node found => ⟨[], node, rfl, found⟩
  | cons corner parent ih =>
    intro node found
    by_cases inside : contains node.region box = true
    · refine ⟨corner :: parent, node, ?_, found⟩
      simp [climb, found, inside]
    · obtain ⟨above, present⟩ := rooted.parent corner parent node found
      obtain ⟨current, top, climbs, there⟩ := ih above present
      refine ⟨current, top, ?_, there⟩
      simp [climb, found, inside, climbs]

omit [Spatial Box] in
/-- A node that an object was taken from. -/
def without (node : OctNode Box) (object : ObjectPtr) : OctNode Box :=
  { node with objects := node.objects.erase object }

theorem reinsert_eq (found : tree.nodes.lookup path = some node) (stored : object ∈ node.objects) :
    reinsert path tree object =
      (if isPoint (tree.objects object).box then some path
        else tree.climb (tree.objects object).box path).bind fun current =>
          (tree.setNode path (without node object)).insertOrDrop current object := by
  simp only [reinsert, found, Option.bind_eq_bind, Option.bind_some, if_pos stored]
  split <;> rfl

/-- An object that has moved is taken from its node and put where it is now, or given up on. -/
theorem reinsert_evolves (sound : tree.Sound) (found : tree.nodes.lookup path = some node)
    (lives : node.lifespan ≠ 0) (clean : tree.Clean path) (stored : object ∈ node.objects) :
    ∃ tree' more, reinsert path tree object = some tree' ∧ Evolves tree path [] tree' ∧
      tree'.Clean path ∧ tree'.nodes.lookup path =
        some { node with objects := node.objects.erase object ++ more } := by
  have unmarked := clean path node (List.suffix_refl _) found object stored
  have kept : (tree.setNode path (without node object)).Sound :=
    sound.setNode found rfl (sound.queue path node found) (sound.built path node found)
      (sound.fresh path node found) fun time => absurd time lives
  have here : (tree.setNode path (without node object)).nodes.lookup path =
      some (without node object) := by
    rw [lookup_setNode, if_pos rfl]
  -- The way up is looked for before the object is taken, and its end is still there afterwards.
  obtain ⟨current, top, starts, present⟩ : ∃ current top,
      (if isPoint (tree.objects object).box = true then some path
        else tree.climb (tree.objects object).box path) = some current ∧
      (tree.setNode path (without node object)).nodes.lookup current = some top := by
    split
    · exact ⟨path, _, rfl, here⟩
    · obtain ⟨current, top, climbs, there⟩ :=
        climb_ends sound.rooted (tree.objects object).box path node found
      by_cases same : current = path
      · exact ⟨current, _, climbs, by rw [same, here]⟩
      · exact ⟨current, top, climbs, by rw [lookup_setNode, if_neg same, there]⟩
  obtain ⟨tree', run, gone⟩ := insertOrDrop_gone kept present object
  have evolves : Evolves (tree.setNode path (without node object)) path [object] tree' :=
    gone.evolves kept (.inr unmarked)
  obtain ⟨more, there, -⟩ := gone.old here
  refine ⟨tree', more, ?_, ?_, ?_, there⟩
  · rw [reinsert_eq found stored, starts, Option.bind_some, run]
  · refine evolves.after_setNode found rfl fun other _ => ?_
    -- One copy of the object was taken, and that one is put back.
    have one := List.count_pos_iff.mpr stored
    simp only [OctNode.weight, without, List.count_erase, List.count_singleton, beq_iff_eq]
    split_ifs with same
    · rw [← same]
      omega
    · omega
  · have cleaned : (tree.setNode path (without node object)).Clean path := by
      intro other inner below present' added member
      rw [lookup_setNode] at present'
      split at present'
      · cases present'
        exact clean path node (List.suffix_refl _) found added (List.mem_of_mem_erase member)
      · exact clean other inner below present' added member
    exact cleaned.grown evolves.objects fun other _ => gone.grown unmarked other

/-- All objects that have moved are put elsewhere, one after the other. -/
theorem reinsert_all (moved : List ObjectPtr) : ∀ (tree : OctTree Box) (node : OctNode Box),
    tree.Sound → tree.nodes.lookup path = some node → (moved ≠ [] → node.lifespan ≠ 0) →
    tree.Clean path → moved.Nodup → (∀ object ∈ moved, object ∈ node.objects) →
    ∃ tree' objects, moved.foldlM (reinsert path) tree = some tree' ∧ Evolves tree path [] tree' ∧
      tree'.Clean path ∧ tree'.nodes.lookup path = some { node with objects := objects } := by
  induction moved with
  | nil =>
    intro tree node sound found _ clean _ _
    exact ⟨tree, node.objects, rfl, .refl sound path, clean, found⟩
  | cons object moved ih =>
    intro tree node sound found lives clean once stored
    obtain ⟨fresh, once⟩ := List.nodup_cons.mp once
    have living := lives (List.cons_ne_nil _ _)
    obtain ⟨middle, more, run, evolves, cleaned, there⟩ := reinsert_evolves sound found living clean
      (stored object List.mem_cons_self)
    obtain ⟨tree', objects, runs, rest, done, after⟩ := ih middle _ evolves.sound there
      (fun _ => living) cleaned once fun other member => by
        -- Another object that has moved is still where it was.
        have different : other ≠ object := fun same => fresh (same ▸ member)
        apply List.mem_append_left
        exact (List.mem_erase_of_ne different).mpr (stored other (List.mem_cons_of_mem _ member))
    refine ⟨tree', objects, ?_, evolves.trans rest, done, after⟩
    rw [List.foldlM_cons, run, Option.bind_eq_bind, Option.bind_some]
    exact runs

/-- The children are updated one after the other, and each leaves its own subtree clean. -/
theorem children_evolve {levels : Nat}
    (updates : ∀ (tree : OctTree Box) (path : Path) (node : OctNode Box), tree.Sound →
      tree.height < levels + path.length → tree.nodes.lookup path = some node →
      ∃ tree', (∀ fuel ≥ levels, tree.update fuel path = some tree') ∧
        Evolves tree path [] tree' ∧ tree'.Clean path ∧
        ∃ node', tree'.nodes.lookup path = some node' ∧ node'.ready = true)
    (corners : List (Fin 8)) : ∀ (tree : OctTree Box) (node : OctNode Box), tree.Sound →
      tree.height < levels + 1 + path.length → tree.nodes.lookup path = some node →
      (∀ corner ∈ corners, ∃ child, tree.nodes.lookup (corner :: path) = some child) →
      (∀ corner, corner ∉ corners → tree.Clean (corner :: path)) →
      ∃ tree' more, (∀ fuel ≥ levels,
          corners.foldlM (fun tree corner => tree.update fuel (corner :: path)) tree = some tree') ∧
        Evolves tree path [] tree' ∧ (∀ corner, tree'.Clean (corner :: path)) ∧
        tree'.nodes.lookup path = some { node with objects := node.objects ++ more } ∧
        ∀ object ∈ more, (tree.objects object).marked = false := by
  induction corners with
  | nil =>
    intro tree node sound _ found _ clean
    exact ⟨tree, [], fun _ _ => rfl, .refl sound path, fun corner => clean corner (by simp),
      by simp [found], by simp⟩
  | cons corner corners ih =>
    intro tree node sound deep found children clean
    obtain ⟨child, present⟩ := children corner List.mem_cons_self
    obtain ⟨middle, run, evolves, cleaned, updated, ready, -⟩ := updates tree (corner :: path) child sound
      (by rw [List.length_cons]; omega) present
    obtain ⟨before, still, unmarked⟩ := evolves.parent found
    obtain ⟨tree', after, runs, rest, done, there, unmarked'⟩ := ih middle _ evolves.sound
      (by rw [evolves.height]; exact deep) still
      (fun other member => by
        by_cases same : other = corner
        · exact ⟨_, same ▸ ready⟩
        · -- A sibling is not deleted.
          obtain ⟨sibling, was⟩ := children other (List.mem_cons_of_mem _ member)
          obtain ⟨more, is, -⟩ := (evolves.outside (other :: path) fun under =>
            same (corner_unique under (List.suffix_refl _)).symm).old sibling was
          exact ⟨_, is⟩)
      (fun other past => by
        by_cases same : other = corner
        · exact same ▸ cleaned
        · -- What is below a sibling has only got objects that are not marked.
          refine (clean other (by simp [same, past])).grown evolves.objects fun inner below => ?_
          exact evolves.outside inner fun under => same (corner_unique below under))
    refine ⟨tree', before ++ after, fun fuel enough => ?_, evolves.up.trans rest, done, ?_, ?_⟩
    · rw [List.foldlM_cons, run fuel enough, Option.bind_eq_bind, Option.bind_some]
      exact runs fuel enough
    · simpa using there
    · intro object member
      obtain member | member := List.mem_append.mp member
      · exact unmarked object member
      · rw [← evolves.objects.marked]
        exact unmarked' object member

/--
An update comes to its end and loses no object that is not marked.

From the node down, no object is left that is marked, and the node is ready.
-/
theorem update_evolves (levels : Nat) :
    ∀ (tree : OctTree Box) (path : Path) (node : OctNode Box), tree.Sound →
      tree.height < levels + path.length → tree.nodes.lookup path = some node →
      ∃ tree', (∀ fuel ≥ levels, tree.update fuel path = some tree') ∧
        Evolves tree path [] tree' ∧ tree'.Clean path ∧
        ∃ node', tree'.nodes.lookup path = some node' ∧ node'.ready = true := by
  induction levels with
  | zero =>
    intro tree path node sound deep found
    have shallow := sound.shallow path node found
    omega
  | succ levels ih =>
    intro tree path node sound deep found
    obtain ⟨prepared, prepares, first, built, present, ready⟩ := prepare_evolves sound found
    obtain ⟨moved, collected, kept, collects, second, there, ready', clean, once, stored, lives⟩ :=
      collect_evolves first.sound present ready
    obtain ⟨third, same⟩ := @reap_all _ path _ (List.finRange 8) collected second.sound
    rw [there] at same
    -- What the children's loop starts from has the children that are visited, and no others.
    have visited (corner : Fin 8)
        (member : corner ∈ ((List.finRange 8).foldl (reap path) collected).children path) :
        ∃ child, ((List.finRange 8).foldl (reap path) collected).nodes.lookup (corner :: path) =
          some child := mem_children.mp member
    have others (corner : Fin 8)
        (past : corner ∉ ((List.finRange 8).foldl (reap path) collected).children path) :
        ((List.finRange 8).foldl (reap path) collected).Clean (corner :: path) := by
      intro other inner below found' object _
      have free : ((List.finRange 8).foldl (reap path) collected).nodes.lookup (corner :: path) =
          none := by
        rw [mem_children] at past
        exact Option.eq_none_iff_forall_not_mem.mpr fun child inside => past ⟨child, inside⟩
      rw [third.sound.rooted.below_none free below] at found'
      cases found'
    have height : ((List.finRange 8).foldl (reap path) collected).height = tree.height := by
      rw [third.height, second.height, first.height]
    obtain ⟨updated, more, runs, fourth, done, still, unmarked⟩ := children_evolve ih
      (((List.finRange 8).foldl (reap path) collected).children path) _ kept third.sound
      (by rw [height]; omega) same visited others
    have cleaned : updated.Clean path := by
      apply clean_of_children still
      · intro object member
        rw [fourth.objects.marked]
        obtain member | member := List.mem_append.mp member
        · rw [third.objects.marked]
          exact clean object member
        · exact unmarked object member
      · exact done
    obtain ⟨final, objects, reinserts, fifth, left, after⟩ := reinsert_all moved updated _
      fourth.sound still lives cleaned once fun object member =>
        List.mem_append_left _ (stored object member)
    refine ⟨final, fun fuel enough => ?_, (((first.trans second).trans third).trans fourth).trans fifth,
      left, _, after, ready'⟩
    obtain ⟨fuel, rfl⟩ := Nat.exists_eq_add_of_le' (Nat.one_le_of_lt enough)
    simp only [update, prepares, collects, Option.bind_eq_bind, Option.bind_some,
      runs fuel (by omega)]
    exact reinserts

end Update

end Recap.Game.OctTree
