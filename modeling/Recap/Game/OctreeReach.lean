import Recap.Game.OctreeQuery

/-! What a query finds in any tree: the objects of the nodes that it comes to. -/

namespace Recap.Game

namespace OctTree

variable {Box : Type} {tree : OctTree Box} {meets : Box → Bool} {path : Path}

/-- A query at a node comes to another one below: all on the way are built, and all but the first
are met. -/
inductive ReachedFrom (tree : OctTree Box) (meets : Box → Bool) (path : Path) : Path → Prop where
  | here {node : OctNode Box} (found : tree.nodes.lookup path = some node)
      (built : node.built = true) : ReachedFrom tree meets path path
  | child {other : Path} {corner : Fin 8} {node : OctNode Box}
      (above : ReachedFrom tree meets path other)
      (found : tree.nodes.lookup (corner :: other) = some node)
      (met : meets node.region = true) (built : node.built = true) :
      ReachedFrom tree meets path (corner :: other)

/-- What is reached from a child that is met is reached from its parent. -/
theorem ReachedFrom.up {corner : Fin 8} {top child : OctNode Box} {other : Path}
    (present : tree.nodes.lookup path = some top) (ready : top.built = true)
    (found : tree.nodes.lookup (corner :: path) = some child) (met : meets child.region = true)
    (reached : ReachedFrom tree meets (corner :: path) other) : ReachedFrom tree meets path other := by
  -- The first step down is put in front of the others.
  induction reached with
  | here found' built =>
    rw [found] at found'
    cases found'
    exact .child (.here present ready) found met built
  | child above found' met' built ih => exact .child ih found' met' built

/-- A query goes on from a node that is built, to the node itself or through a child that is met. -/
theorem reachedFrom_iff {top : OctNode Box} (present : tree.nodes.lookup path = some top)
    {other : Path} :
    ReachedFrom tree meets path other ↔ top.built = true ∧
      (other = path ∨ ∃ corner child, tree.nodes.lookup (corner :: path) = some child ∧
        meets child.region = true ∧ ReachedFrom tree meets (corner :: path) other) := by
  -- The way down ends at the node, or its first step is a child.
  constructor
  · intro reached
    induction reached with
    | here found built =>
      rw [present] at found
      cases found
      exact ⟨built, .inl rfl⟩
    | child above found met built ih =>
      rename_i other corner node
      refine ⟨ih.1, .inr ?_⟩
      obtain same | ⟨first, child, lookup, hit, further⟩ := ih.2
      · subst same
        exact ⟨corner, node, found, met, .here found built⟩
      · exact ⟨first, child, lookup, hit, .child further found met built⟩
  · rintro ⟨built, same | ⟨corner, child, lookup, hit, further⟩⟩
    · rw [same]
      exact .here present built
    · exact further.up present built lookup hit

/-- A query only comes to nodes below the one that it starts at. -/
theorem ReachedFrom.suffix {other : Path} (reached : ReachedFrom tree meets path other) :
    path <:+ other := by
  induction reached with
  | here found built => exact List.suffix_refl _
  | child above found met built ih => exact ih.trans (List.suffix_cons _ _)

theorem reachedFrom_cons {corner : Fin 8} {other : Path} :
    ReachedFrom tree meets path (corner :: other) ↔
      ∃ node ∈ tree.nodes.lookup (corner :: other), node.built = true ∧
        (corner :: other = path ∨ meets node.region = true ∧ ReachedFrom tree meets path other) := by
  constructor
  · intro reached
    cases reached with
    | here found built => exact ⟨_, found, built, .inl rfl⟩
    | child above found met built => exact ⟨_, found, built, .inr ⟨met, above⟩⟩
  · rintro ⟨node, found, built, same | ⟨met, above⟩⟩
    · subst same
      exact .here found built
    · exact .child above found met built

theorem reachedFrom_nil : ReachedFrom tree meets path [] ↔
    path = [] ∧ ∃ node ∈ tree.nodes.lookup [], node.built = true := by
  constructor
  · intro reached
    cases reached with
    | here found built => exact ⟨rfl, _, found, built⟩
  · rintro ⟨rfl, node, found, built⟩
    exact .here found built

/-- Whether a query comes to a place is found on the way up from it. -/
instance ReachedFrom.decide (tree : OctTree Box) (meets : Box → Bool) (path : Path) :
    ∀ other, Decidable (ReachedFrom tree meets path other)
  | [] => decidable_of_iff _ reachedFrom_nil.symm
  | _ :: other =>
    have := ReachedFrom.decide tree meets path other
    decidable_of_iff _ reachedFrom_cons.symm

section Parts

open Totals

/-- The parts of what a query comes to from a node: the node itself, and what it comes to from each
child that it goes on to. -/
def reachedPart (tree : OctTree Box) (meets : Box → Bool) (path : Path) :
    Option (Fin 8) → Path → Bool
  | none, other => other = path
  | some corner, other =>
    ((tree.nodes.lookup (corner :: path)).map fun child => meets child.region).getD false &&
      decide (ReachedFrom tree meets (corner :: path) other)

theorem reachedPart_some {corner : Fin 8} {other : Path} :
    reachedPart tree meets path (some corner) other = true ↔
      ∃ child, tree.nodes.lookup (corner :: path) = some child ∧ meets child.region = true ∧
        ReachedFrom tree meets (corner :: path) other := by
  cases found : tree.nodes.lookup (corner :: path) <;> simp [reachedPart, found]

/-- What a query comes to from a node that is built is in exactly one of the parts. -/
theorem countP_reachedPart {top : OctNode Box} (present : tree.nodes.lookup path = some top)
    (built : top.built = true) (other : Path) :
    ((none :: (List.finRange 8).map some).countP fun index =>
        reachedPart tree meets path index other) =
      if decide (ReachedFrom tree meets path other) then 1 else 0 := by
  rw [List.countP_cons, List.countP_map]
  by_cases self : other = path
  · -- The node itself is not below any child.
    have none_ : (List.finRange 8).countP
        ((fun index => reachedPart tree meets path index other) ∘ some) = 0 := by
      apply List.countP_eq_zero.mpr
      intro corner _ inside
      obtain ⟨child, -, -, reached⟩ := reachedPart_some.mp inside
      exact not_suffix_self corner path (self ▸ reached.suffix)
    have reached : ReachedFrom tree meets path path := .here present built
    rw [none_]
    simp [reachedPart, self, reached]
  · by_cases reached : ReachedFrom tree meets path other
    · obtain ⟨-, same | ⟨corner, child, lookup, met, further⟩⟩ := (reachedFrom_iff present).mp reached
      · exact absurd same self
      · -- It is come to from one child, and is below no other.
        have only : ∀ index ∈ List.finRange 8,
            ((fun index => reachedPart tree meets path index other) ∘ some) index = true ↔
              (index == corner) = true := by
          intro index _
          rw [Function.comp_apply, reachedPart_some, beq_iff_eq]
          constructor
          · rintro ⟨-, -, -, under⟩
            exact corner_unique under.suffix further.suffix
          · rintro rfl
            exact ⟨child, lookup, met, further⟩
        rw [List.countP_congr only]
        have once : (List.finRange 8).countP (fun index => index == corner) = 1 :=
          List.count_eq_one_of_mem (List.nodup_finRange 8) (List.mem_finRange corner)
        rw [once]
        simp [reachedPart, self, reached]
    · have none_ : (List.finRange 8).countP
          ((fun index => reachedPart tree meets path index other) ∘ some) = 0 := by
        apply List.countP_eq_zero.mpr
        intro corner _ inside
        obtain ⟨child, lookup, met, further⟩ := reachedPart_some.mp inside
        exact reached ((reachedFrom_iff present).mpr ⟨built, .inr ⟨corner, child, lookup, met, further⟩⟩)
      rw [none_]
      simp [reachedPart, self, reached]

end Parts

section Search

open Totals

variable {types : List NounType}

/-- How often an object is in the nodes that a query comes to. -/
def countReached (tree : OctTree Box) (meets : Box → Bool) (path : Path) (object : ObjectPtr) : Nat :=
  total (fun node => node.objects.count object)
    (restrict (fun other => ReachedFrom tree meets path other) tree.nodes)

/-- Nothing is come to from a node that is not built. -/
theorem countReached_not_built {top : OctNode Box} (present : tree.nodes.lookup path = some top)
    (built : top.built = false) (object : ObjectPtr) :
    countReached tree meets path object = 0 := by
  rw [countReached, total_eq_zero_iff]
  intro other node found
  rw [lookup_restrict] at found
  simp [reachedFrom_iff present, built] at found

/-- The own objects of a node that is built are come to, and so are those of its parts. -/
theorem countReached_built {top : OctNode Box} (present : tree.nodes.lookup path = some top)
    (built : top.built = true) (object : ObjectPtr) :
    countReached tree meets path object = top.objects.count object +
      ((List.finRange 8).map fun corner => total (fun node => node.objects.count object)
        (restrict (reachedPart tree meets path (some corner)) tree.nodes)).sum := by
  rw [countReached, ← total_restrict_sum _ (reachedPart tree meets path) _ _
    (countP_reachedPart present built), List.map_cons, List.sum_cons, List.map_map]
  have own := @total_restrict_single _ _ _ (fun node => node.objects.count object) _ _ _ present
  congr 1

/-- Of a child that is met, its part is all that is come to from it, and of any other nothing. -/
theorem total_reachedPart (corner : Fin 8) (object : ObjectPtr) :
    total (fun node => node.objects.count object)
        (restrict (reachedPart tree meets path (some corner)) tree.nodes) =
      if ((tree.nodes.lookup (corner :: path)).map fun child => meets child.region).getD false then
        countReached tree meets (corner :: path) object
      else 0 := by
  split
  · rename_i met
    unfold countReached
    congr 2
    funext other
    simp [reachedPart, met]
  · rename_i missed
    rw [total_eq_zero_iff]
    intro other node found
    rw [lookup_restrict] at found
    simp [reachedPart, missed] at found

/-- With enough nested calls, a query adds what is wanted of the nodes that it comes to. -/
theorem getObjects_counts : ∀ levels path, tree.span < levels + path.length →
    (tree.nodes.lookup path).isSome →
    ∃ added, (∀ fuel ≥ levels, ∀ objects,
        tree.getObjects meets types fuel path objects = some (objects ++ added)) ∧
      ∀ object, added.count object =
        if tree.wanted meets types object then countReached tree meets path object else 0 := by
  intro levels
  -- No node is below the lowest level, so the levels run out after the children do.
  induction levels with
  | zero =>
    intro path long present
    obtain ⟨node, found⟩ := Option.isSome_iff_exists.mp present
    have short := length_le_span found
    omega
  | succ levels ih =>
    intro path long present
    obtain ⟨node, found⟩ := Option.isSome_iff_exists.mp present
    cases built : node.built with
    | false =>
      refine ⟨[], fun fuel enough objects => ?_, fun object => ?_⟩
      · obtain ⟨fuel, rfl⟩ := Nat.exists_eq_add_of_le' (Nat.one_le_of_lt enough)
        simp [getObjects, found, built]
      · simp [countReached_not_built found built]
    | true =>
      -- Each turn of the loop adds the part of one child, and what has no child has no part.
      have turn (corner : Fin 8) : ∃ added, (corner ∈ tree.children path →
          ∀ fuel ≥ levels, ∀ objects, (do
              let child ← tree.nodes.lookup (corner :: path)
              if meets child.region then getObjects meets types fuel tree (corner :: path) objects
              else return objects) = some (objects ++ added)) ∧
            (corner ∉ tree.children path → added = []) ∧
            ∀ object, added.count object = if tree.wanted meets types object then
              total (fun node => node.objects.count object)
                (restrict (reachedPart tree meets path (some corner)) tree.nodes) else 0 := by
        simp only [total_reachedPart]
        cases lookup : tree.nodes.lookup (corner :: path) with
        | none =>
          refine ⟨[], fun member => ?_, fun _ => rfl, fun object => by simp⟩
          obtain ⟨child, there⟩ := mem_children.mp member
          rw [lookup] at there
          cases there
        | some child =>
          have member := mem_children.mpr ⟨child, lookup⟩
          cases met : meets child.region with
          | true =>
            obtain ⟨added, adds, same⟩ := ih (corner :: path)
              (by rw [List.length_cons]; omega) (by rw [lookup]; rfl)
            refine ⟨added, fun _ fuel enough objects => ?_, fun past => absurd member past,
              fun object => ?_⟩
            · simp only [Option.bind_eq_bind, Option.bind_some, met, if_true]
              exact adds fuel enough objects
            · simp [same, met]
          | false =>
            refine ⟨[], fun _ fuel _ objects => ?_, fun _ => rfl, fun object => ?_⟩
            · simp [met]
            · simp [met]
      choose added adds past counts using turn
      have all : (tree.children path).flatMap added = (List.finRange 8).flatMap added := by
        apply flatMap_filter_of_nil
        intro corner missing
        apply past
        simp [children, missing]
      refine ⟨node.objects.filter (tree.wanted meets types) ++ (tree.children path).flatMap added,
        fun fuel enough objects => ?_, fun object => ?_⟩
      · obtain ⟨fuel, rfl⟩ := Nat.exists_eq_add_of_le' (Nat.one_le_of_lt enough)
        rw [getObjects_succ found built,
          foldlM_append _ fun corner member => adds corner member fuel (by omega),
          List.append_assoc]
      · rw [List.count_append, all, List.count_flatMap, countReached_built found built]
        simp only [Function.comp_def, counts]
        by_cases wanted : tree.wanted meets types object = true
        · simp only [wanted, if_true]
          rw [List.count_filter wanted]
        · simp [List.count_eq_zero.mpr, wanted]

/-- What is added are the wanted objects of the nodes that are come to. -/
theorem countReached_pos {object : ObjectPtr} : 0 < countReached tree meets path object ↔
    ∃ other node, ReachedFrom tree meets path other ∧ tree.nodes.lookup other = some node ∧
      object ∈ node.objects := by
  have zero := @total_eq_zero_iff _ _ _ (fun node : OctNode Box => node.objects.count object)
    (restrict (fun other => ReachedFrom tree meets path other) tree.nodes)
  simp only [lookup_restrict] at zero
  rw [Nat.pos_iff_ne_zero, countReached, Ne, zero]
  push Not
  constructor
  · rintro ⟨other, node, found, some_⟩
    split at found
    · rename_i reached
      exact ⟨other, node, of_decide_eq_true reached, found, List.count_pos_iff.mp (by omega)⟩
    · cases found
  · rintro ⟨other, node, reached, found, inside⟩
    have some_ := List.count_pos_iff.mpr inside
    exact ⟨other, node, by simp [reached, found], by omega⟩

theorem getObjects_reaches (levels : Nat) (path : Path) (long : tree.span < levels + path.length)
    (present : (tree.nodes.lookup path).isSome) :
    ∃ added, (∀ fuel ≥ levels, ∀ objects,
        tree.getObjects meets types fuel path objects = some (objects ++ added)) ∧
      ∀ object, object ∈ added ↔ ∃ other node, ReachedFrom tree meets path other ∧
        tree.nodes.lookup other = some node ∧ object ∈ node.objects ∧
        tree.wanted meets types object = true := by
  obtain ⟨added, adds, counts⟩ := @getObjects_counts _ tree meets types levels path long present
  refine ⟨added, adds, fun object => ?_⟩
  rw [← List.count_pos_iff, counts]
  by_cases wanted : tree.wanted meets types object = true
  · rw [if_pos wanted, countReached_pos]
    simp [wanted]
  · rw [if_neg wanted]
    simp [wanted]

end Search

end OctTree

end Recap.Game
