import Recap.Game.Octree

/-! The shape of an octree: how its nodes hang together, what they store, and what lies inside what. -/

namespace Recap.Game.OctTree

open Spatial Totals

variable {Box : Type}

section Lookup

variable (tree : OctTree Box) (path other : Path) (node : OctNode Box)

@[simp] theorem lookup_setNode :
    (tree.setNode path node).nodes.lookup other =
      if other = path then some node else tree.nodes.lookup other := by
  rw [setNode]
  by_cases same : other = path
  · subst same
    simp
  · simp [AList.lookup_insert_ne same, same]

@[simp] theorem objects_setNode : (tree.setNode path node).objects = tree.objects := rfl

@[simp] theorem dropped_setNode : (tree.setNode path node).dropped = tree.dropped := rfl

variable {tree path}

theorem mem_children {corner : Fin 8} :
    corner ∈ tree.children path ↔ ∃ child, tree.nodes.lookup (corner :: path) = some child := by
  simp [children, Option.isSome_iff_exists]

theorem children_eq_nil :
    tree.children path = [] ↔ ∀ corner : Fin 8, tree.nodes.lookup (corner :: path) = none := by
  simp [children, List.filter_eq_nil_iff]

end Lookup

section Below

/-- A place is at or below another one if it is that one, or at or below one of its children. -/
theorem suffix_iff (path other : Path) :
    path <:+ other ↔ other = path ∨ ∃ corner : Fin 8, corner :: path <:+ other := by
  constructor
  · intro below
    obtain ⟨front, rfl⟩ := below
    -- The last corner on the way down is the child's.
    cases front using List.reverseRecOn with
    | nil => exact .inl rfl
    | append_singleton front corner => exact .inr ⟨corner, front, by simp⟩
  · rintro (rfl | ⟨corner, below⟩)
    · exact List.suffix_refl _
    · exact (List.suffix_cons corner path).trans below

/-- No place is at or below two children of one node. -/
theorem corner_unique {path other : Path} {first second : Fin 8} (left : first :: path <:+ other)
    (right : second :: path <:+ other) : first = second := by
  -- Both are the end of the same length.
  have same := List.suffix_of_suffix_length_le left right (by simp)
  have equal := same.eq_of_length (by simp)
  exact (List.cons.inj equal).1

theorem not_suffix_self (corner : Fin 8) (path : Path) : ¬ corner :: path <:+ path := by
  intro below
  have long := below.length_le
  simp at long

/-- The parts of what is below a place: the place itself, and what is below each child. -/
def part (path : Path) : Option (Fin 8) → Path → Bool
  | none, other => other = path
  | some corner, other => (corner :: path).isSuffixOf other

/-- Every place below another one is in exactly one of its parts. -/
theorem countP_part (path other : Path) :
    ((none :: (List.finRange 8).map some).countP fun index => part path index other) =
      if path.isSuffixOf other then 1 else 0 := by
  rw [List.countP_cons, List.countP_map]
  by_cases self : other = path
  · -- The place itself is not below any child.
    subst self
    have none_ : (List.finRange 8).countP ((fun index => part other index other) ∘ some) = 0 := by
      refine List.countP_eq_zero.mpr fun corner _ => ?_
      simp [part, not_suffix_self]
    rw [none_]
    simp [part]
  · by_cases below : path <:+ other
    · obtain same | ⟨corner, under⟩ := (suffix_iff path other).mp below
      · exact absurd same self
      · -- It is below one child, and below no other.
        have only : ∀ index ∈ List.finRange 8,
            ((fun index => part path index other) ∘ some) index = true ↔
              (index == corner) = true := by
          intro index _
          simp only [Function.comp_apply, part, List.isSuffixOf_iff_suffix, beq_iff_eq]
          exact ⟨fun other => corner_unique other under, fun same => same ▸ under⟩
        rw [List.countP_congr only]
        have once : (List.finRange 8).countP (fun index => index == corner) = 1 :=
          List.count_eq_one_of_mem (List.nodup_finRange 8) (List.mem_finRange corner)
        rw [once]
        simp [part, self, below]
    · have none_ : (List.finRange 8).countP ((fun index => part path index other) ∘ some) = 0 := by
        refine List.countP_eq_zero.mpr fun corner _ => ?_
        simp only [Function.comp_apply, part, List.isSuffixOf_iff_suffix]
        exact fun under => below ((suffix_iff path other).mpr (.inr ⟨corner, under⟩))
      rw [none_]
      simp [part, self, below]

end Below

/-- Every node but the root hangs below another one. -/
structure Rooted (tree : OctTree Box) : Prop where
  root : ∃ node, tree.nodes.lookup [] = some node
  parent : ∀ corner path child, tree.nodes.lookup (corner :: path) = some child →
    ∃ node, tree.nodes.lookup path = some node

namespace Rooted

variable {tree : OctTree Box} {path : Path}

/-- Everything above a node is there. -/
theorem above (rooted : tree.Rooted) {other : Path} {node : OctNode Box}
    (found : tree.nodes.lookup other = some node) (below : path <:+ other) :
    ∃ node, tree.nodes.lookup path = some node := by
  -- The way up is by induction on the place that is below.
  induction other generalizing node with
  | nil => exact ⟨node, by rwa [List.suffix_nil.mp below]⟩
  | cons corner parent ih =>
    obtain same | below := List.suffix_cons_iff.mp below
    · exact ⟨node, by rwa [same]⟩
    · obtain ⟨above, found⟩ := rooted.parent corner parent node found
      exact ih found below

/-- A place without a node has none below it. -/
theorem below_none (rooted : tree.Rooted) (missing : tree.nodes.lookup path = none) {other : Path}
    (below : path <:+ other) : tree.nodes.lookup other = none := by
  cases found : tree.nodes.lookup other with
  | none => rfl
  | some node =>
    obtain ⟨above, present⟩ := rooted.above found below
    rw [missing] at present
    cases present

/-- A node at a child's place keeps the tree in one piece if there is a parent. -/
theorem setNode (rooted : tree.Rooted) (node : OctNode Box)
    (hangs : ∀ corner parent, path = corner :: parent → ∃ above, tree.nodes.lookup parent = some above) :
    (tree.setNode path node).Rooted := by
  -- What was there is still there, possibly as another node.
  have still : ∀ other above, tree.nodes.lookup other = some above →
      ∃ above, (tree.setNode path node).nodes.lookup other = some above := by
    intro other above found
    rw [lookup_setNode]
    split
    · exact ⟨node, rfl⟩
    · exact ⟨above, found⟩
  refine ⟨?_, fun corner parent child found => ?_⟩
  · obtain ⟨root, found⟩ := rooted.root
    exact still [] root found
  · rw [lookup_setNode] at found
    split at found
    · rename_i same
      obtain ⟨above, present⟩ := hangs corner parent same.symm
      exact still parent above present
    · obtain ⟨above, present⟩ := rooted.parent corner parent child found
      exact still parent above present

end Rooted

section Stored

variable (tree : OctTree Box) (path : Path)

/-- The objects that the nodes of the tree store. -/
def stored : List ObjectPtr :=
  tree.nodes.entries.flatMap fun entry => entry.2.objects

/-- The objects that a node and those below it store. -/
def storedBelow : List ObjectPtr :=
  (restrict (fun other => path.isSuffixOf other) tree.nodes).entries.flatMap fun entry =>
    entry.2.objects

theorem storedBelow_nil : tree.storedBelow [] = tree.stored := by
  -- Every place is below the root.
  have all : tree.nodes.entries.filter (fun entry => List.isSuffixOf [] entry.1) =
      tree.nodes.entries := List.filter_eq_self.mpr fun entry _ => by simp
  simp only [storedBelow, stored, restrict, all]

theorem count_storedBelow (object : ObjectPtr) :
    (tree.storedBelow path).count object =
      total (fun node => node.objects.count object)
        (restrict (fun other => path.isSuffixOf other) tree.nodes) := by
  rw [storedBelow, List.count_flatMap]
  rfl

variable {tree path}

theorem mem_storedBelow {object : ObjectPtr} :
    object ∈ tree.storedBelow path ↔ ∃ other node, path <:+ other ∧
      tree.nodes.lookup other = some node ∧ object ∈ node.objects := by
  simp only [storedBelow, restrict, List.mem_flatMap, List.mem_filter, List.isSuffixOf_iff_suffix]
  constructor
  · intro member
    obtain ⟨entry, ⟨present, below⟩, inside⟩ := member
    exact ⟨entry.1, entry.2, below, AList.mem_lookup_iff.mpr present, inside⟩
  · intro held
    obtain ⟨other, node, below, found, inside⟩ := held
    exact ⟨⟨other, node⟩, ⟨AList.mem_lookup_iff.mp found, below⟩, inside⟩

/-- A node stores its own objects, and what its children's subtrees do. -/
theorem storedBelow_perm {node : OctNode Box} (found : tree.nodes.lookup path = some node) :
    (tree.storedBelow path).Perm
      (node.objects ++ (List.finRange 8).flatMap fun corner => tree.storedBelow (corner :: path)) := by
  -- Every object is counted in each part once.
  refine List.perm_iff_count.mpr fun object => ?_
  rw [List.count_append, List.count_flatMap, count_storedBelow,
    ← total_restrict_sum _ (part path) _ _ (countP_part path), List.map_cons, List.sum_cons,
    List.map_map]
  have own := @total_restrict_single _ _ _ (fun node => node.objects.count object) _ _ _ found
  congr 1
  refine congrArg List.sum (List.map_congr_left fun corner _ => ?_)
  rw [Function.comp_apply, Function.comp_apply, count_storedBelow]
  rfl

/-- A subtree stores nothing if it has no node. -/
theorem Rooted.storedBelow_eq_nil (rooted : tree.Rooted) (missing : tree.nodes.lookup path = none) :
    tree.storedBelow path = [] := by
  refine List.eq_nil_iff_forall_not_mem.mpr fun object member => ?_
  obtain ⟨other, node, below, found, _⟩ := mem_storedBelow.mp member
  rw [rooted.below_none missing below] at found
  cases found

/-- What adds nothing may be left out. -/
theorem flatMap_filter_of_nil {α β : Type} {keep : α → Bool} {added : α → List β}
    (nothing : ∀ turn, keep turn = false → added turn = []) (turns : List α) :
    (turns.filter keep).flatMap added = turns.flatMap added := by
  induction turns with
  | nil => rfl
  | cons turn rest ih =>
    cases kept : keep turn with
    | true => rw [List.filter_cons_of_pos kept, List.flatMap_cons, List.flatMap_cons, ih]
    | false =>
      rw [List.filter_cons_of_neg (by simp [kept]), List.flatMap_cons, nothing turn kept, ih,
        List.nil_append]

/-- Only the children that there are store anything. -/
theorem Rooted.storedBelow_perm (rooted : tree.Rooted) {node : OctNode Box}
    (found : tree.nodes.lookup path = some node) :
    (tree.storedBelow path).Perm
      (node.objects ++ (tree.children path).flatMap fun corner => tree.storedBelow (corner :: path)) := by
  have parts := OctTree.storedBelow_perm found
  have present := @flatMap_filter_of_nil _ _
    (fun corner => (tree.nodes.lookup (corner :: path)).isSome)
    (fun corner => tree.storedBelow (corner :: path))
    (fun corner missing => rooted.storedBelow_eq_nil (by simpa using missing)) (List.finRange 8)
  rwa [← present] at parts

/-- A node without children stores its own objects and nothing else. -/
theorem Rooted.storedBelow_childless (rooted : tree.Rooted) (childless : tree.children path = [])
    {node : OctNode Box} (found : tree.nodes.lookup path = some node) :
    (tree.storedBelow path).Perm node.objects := by
  have parts := rooted.storedBelow_perm found
  rwa [childless, List.flatMap_nil, List.append_nil] at parts

variable {other : Path}

/-- What a new node in a subtree stores replaces what the old one there did. -/
theorem count_storedBelow_setNode (below : path <:+ other) (node : OctNode Box) (object : ObjectPtr) :
    ((tree.setNode other node).storedBelow path).count object +
        ((tree.nodes.lookup other).map fun node => node.objects.count object).getD 0 =
      (tree.storedBelow path).count object + node.objects.count object := by
  rw [count_storedBelow, count_storedBelow]
  exact total_restrict_insert (List.isSuffixOf_iff_suffix.mpr below) node tree.nodes

/-- Subtrees whose nodes are the same store the same. -/
theorem count_storedBelow_congr {tree' : OctTree Box}
    (same : ∀ other, path <:+ other → tree'.nodes.lookup other = tree.nodes.lookup other)
    (object : ObjectPtr) :
    (tree'.storedBelow path).count object = (tree.storedBelow path).count object := by
  rw [count_storedBelow, count_storedBelow]
  refine total_congr fun other => ?_
  rw [lookup_restrict, lookup_restrict]
  split
  · rename_i below
    exact same other (List.isSuffixOf_iff_suffix.mp below)
  · rfl

end Stored

section Contained

variable [Spatial Box]

/-- Below a node, objects lie inside the regions of their nodes, and regions inside those above. -/
structure Nested (tree : OctTree Box) (path : Path) : Prop where
  objects : ∀ other node, path <:+ other → other ≠ path → tree.nodes.lookup other = some node →
    ∀ object ∈ node.objects, contains node.region (tree.objects object).box = true
  regions : ∀ corner other child node, path <:+ other →
    tree.nodes.lookup (corner :: other) = some child → tree.nodes.lookup other = some node →
      contains node.region child.region = true

/-- The objects of every node but the root lie inside its region, and every region but the root's
inside the one above. -/
def Contained (tree : OctTree Box) : Prop :=
  tree.Nested []

theorem Nested.child {tree : OctTree Box} {path : Path} (nested : tree.Nested path) (corner : Fin 8) :
    tree.Nested (corner :: path) := by
  constructor
  · intro other node below _ found
    have under := (List.suffix_cons corner path).trans below
    refine nested.objects other node under (fun same => ?_) found
    exact not_suffix_self corner path (same ▸ below)
  · intro next other child node below
    exact nested.regions next other child node ((List.suffix_cons corner path).trans below)

end Contained

section Checks

variable {tree : OctTree Box}

theorem forall_nodes {holds : Path → OctNode Box → Prop} :
    (∀ path node, tree.nodes.lookup path = some node → holds path node) ↔
      ∀ entry ∈ tree.nodes.entries, holds entry.1 entry.2 := by
  constructor
  · intro all entry present
    exact all entry.1 entry.2 (AList.mem_lookup_iff.mpr present)
  · intro all path node found
    exact all ⟨path, node⟩ (AList.mem_lookup_iff.mp found)

theorem rooted_iff : tree.Rooted ↔ (tree.nodes.lookup []).isSome ∧
    ∀ entry ∈ tree.nodes.entries, (tree.nodes.lookup entry.1.tail).isSome := by
  rw [← @forall_nodes _ _ fun path _ => (tree.nodes.lookup path.tail).isSome]
  simp only [Option.isSome_iff_exists]
  constructor
  · intro rooted
    refine ⟨rooted.root, fun path node found => ?_⟩
    cases path with
    | nil => exact ⟨node, found⟩
    | cons corner parent => exact rooted.parent corner parent node found
  · intro ⟨root, parents⟩
    exact ⟨root, fun corner path child found => parents (corner :: path) child found⟩

theorem contained_iff [Spatial Box] : tree.Contained ↔ ∀ entry ∈ tree.nodes.entries, entry.1 ≠ [] →
    (∀ object ∈ entry.2.objects, contains entry.2.region (tree.objects object).box = true) ∧
      ∀ above ∈ tree.nodes.lookup entry.1.tail, contains above.region entry.2.region = true := by
  rw [← @forall_nodes _ _ fun path node => path ≠ [] →
    (∀ object ∈ node.objects, contains node.region (tree.objects object).box = true) ∧
      ∀ above ∈ tree.nodes.lookup path.tail, contains above.region node.region = true]
  constructor
  · intro contained path node found below
    refine ⟨contained.objects path node List.nil_suffix below found, fun above present => ?_⟩
    cases path with
    | nil => exact absurd rfl below
    | cons corner parent =>
      exact contained.regions corner parent node above List.nil_suffix found present
  · intro all
    constructor
    · intro other node _ below found
      exact (all other node found below).1
    · intro corner other child node _ found present
      exact (all (corner :: other) child found (List.cons_ne_nil _ _)).2 node present

instance : Decidable tree.Rooted :=
  decidable_of_iff _ rooted_iff.symm

instance [Spatial Box] : Decidable tree.Contained :=
  decidable_of_iff _ contained_iff.symm

end Checks

/-- A bound on how far down the nodes of a tree are. -/
def span (tree : OctTree Box) : Nat :=
  (tree.nodes.keys.map List.length).foldr max 0

theorem length_le_span {tree : OctTree Box} {path : Path} {node : OctNode Box}
    (found : tree.nodes.lookup path = some node) : path.length ≤ tree.span := by
  have present : path ∈ tree.nodes.keys :=
    AList.mem_keys.mp (AList.lookup_isSome.mp (by rw [found]; rfl))
  exact List.le_max_of_le' 0 (List.mem_map_of_mem present) le_rfl

end Recap.Game.OctTree
