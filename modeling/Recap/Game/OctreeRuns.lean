import Recap.Game.OctreeUpdate
import Recap.Lib.Runs

/-! The tree over a whole run: what is enqueued, moves and is marked, and what each update keeps. -/

namespace Recap.Game

/-- What happens to the tree of an instance, and to the objects in it. -/
inductive OctEvent (Box : Type) where
  | enqueue (object : ObjectPtr)
  /-- A new bounding box, which makes the object dirty. -/
  | move (object : ObjectPtr) (box : Box)
  | mark (object : ObjectPtr)
  /-- An update of the root. -/
  | update

namespace OctTree

open Spatial Totals Runs

variable {Box : Type} [Spatial Box] {tree tree' : OctTree Box} {object : ObjectPtr}

omit [Spatial Box] in
/-- The tree with another state of one object. -/
def setObject (tree : OctTree Box) (object : ObjectPtr) (occupant : Occupant Box) : OctTree Box :=
  { tree with objects := Function.update tree.objects object occupant }

def step (tree : OctTree Box) : OctEvent Box → Option (OctTree Box)
  | .enqueue object => tree.enqueue object
  | .move object box =>
    some (tree.setObject object { tree.objects object with box := box, dirty := true })
  | .mark object => some (tree.setObject object { tree.objects object with marked := true })
  | .update => tree.update (tree.height + 1) []

/-- What an update of the root is to leave behind. -/
structure Conserves (tree : OctTree Box) : Prop where
  once : ∀ object ∈ tree.enqueued, (tree.objects object).marked = false →
    ∃ path node, tree.nodes.lookup path = some node ∧ node.objects.count object = 1 ∧
      ∀ other inner, tree.nodes.lookup other = some inner → other ≠ path → object ∉ inner.objects
  gone : ∀ path node, tree.nodes.lookup path = some node →
    ∀ object ∈ node.objects, (tree.objects object).marked = false

/-- No object is enqueued again, and an update does not give up on any that is not marked. -/
def KeepsAll (tree : OctTree Box) : OctEvent Box → Prop
  | .enqueue object => (tree.objects object).marked = true ∨ object ∉ tree.enqueued
  | .update => ∀ next, tree.step .update = some next → ∀ object ∈ next.dropped,
    (tree.objects object).marked = true
  | _ => True

instance (tree : OctTree Box) (event : OctEvent Box) : Decidable (tree.KeepsAll event) :=
  match event with
  | .enqueue object =>
    inferInstanceAs (Decidable ((tree.objects object).marked = true ∨ object ∉ tree.enqueued))
  | .move _ _ | .mark _ => .isTrue trivial
  | .update => inferInstanceAs (Decidable (∀ next ∈ tree.step .update,
      ∀ object ∈ next.dropped, (tree.objects object).marked = true))

/-- Every object that is not marked was enqueued at most once, and is then held and not given up on. -/
structure Accounted (tree : OctTree Box) : Prop where
  sound : tree.Sound
  held : ∀ object, (tree.objects object).marked = false →
    tree.held object = tree.enqueued.count object
  once : ∀ object, (tree.objects object).marked = false → tree.enqueued.count object ≤ 1
  dropped : ∀ object ∈ tree.dropped, (tree.objects object).marked = true

omit [Spatial Box] in
theorem lookup_empty {objects : ObjectPtr → Occupant Box} {region : Box} {path : Path}
    {node : OctNode Box} (found : (empty objects region).nodes.lookup path = some node) :
    path = [] ∧ node = OctNode.create region [] := by
  have present := AList.mem_lookup_iff.mp found
  simp only [empty, AList.singleton_entries, List.mem_singleton] at present
  cases present
  exact ⟨rfl, rfl⟩

/-- A tree without anything is sound. -/
theorem sound_empty (objects : ObjectPtr → Occupant Box) (region : Box) :
    (empty objects region).Sound := by
  -- The root is the only node, so that every part is about the empty path alone.
  have root : (empty objects region).nodes.lookup [] = some (OctNode.create region []) := rfl
  constructor
  · constructor
    · exact ⟨_, root⟩
    · intro corner path child found
      cases (lookup_empty found).1
  · intro path node found
    obtain ⟨rfl, rfl⟩ := lookup_empty found
    simp [height, root]
  · intro path node found _
    obtain ⟨rfl, rfl⟩ := lookup_empty found
    rfl
  · intro path node found ready
    obtain ⟨rfl, rfl⟩ := lookup_empty found
    cases ready
  · intro path node found _
    obtain ⟨rfl, rfl⟩ := lookup_empty found
    exact OctNode.create_lives
  · intro path node found _ _
    apply children_eq_nil.mpr
    intro corner
    apply Option.eq_none_iff_forall_not_mem.mpr
    intro child inside
    cases (lookup_empty inside).1

theorem accounted_empty (objects : ObjectPtr → Occupant Box) (region : Box) :
    (empty objects region).Accounted := by
  refine ⟨sound_empty objects region, fun object _ => ?_, fun object _ => Nat.zero_le _, ?_⟩
  · -- The root is there, and has nothing.
    simp [held, empty, total, OctNode.weight, OctNode.create]
  · intro object member
    cases member

/-- Enqueuing puts the object into the queue of the root, which is not ready any more. -/
theorem Sound.enqueue (sound : tree.Sound) (object : ObjectPtr) :
    ∃ root, tree.nodes.lookup [] = some root ∧
      tree.enqueue object = some { tree.setNode []
        { root with queue := root.queue ++ [object], ready := false } with
          enqueued := object :: tree.enqueued } ∧
      (tree.setNode [] { root with queue := root.queue ++ [object], ready := false }).Sound := by
  obtain ⟨root, found⟩ := sound.rooted.root
  refine ⟨root, found, ?_, ?_⟩
  · rw [OctTree.enqueue, found]
    rfl
  · refine sound.setNode found rfl (fun queued => ?_) (fun ready => ?_) (sound.fresh [] root found)
      (sound.ended [] root found)
    · obtain below | ready := queued
      · exact absurd rfl below
      · cases ready
    · cases ready

/-- No step is refused by a sound tree, and every step keeps it sound. -/
theorem Sound.step (sound : tree.Sound) (event : OctEvent Box) :
    ∃ next, tree.step event = some next ∧ next.Sound := by
  cases event with
  | enqueue object =>
    obtain ⟨root, -, taken, kept⟩ := sound.enqueue object
    exact ⟨_, taken, kept.of_nodes rfl⟩
  | move object box => exact ⟨_, rfl, sound.of_nodes rfl⟩
  | mark object => exact ⟨_, rfl, sound.of_nodes rfl⟩
  | update =>
    obtain ⟨root, found⟩ := sound.rooted.root
    obtain ⟨next, runs, evolves, -⟩ := update_evolves (tree.height + 1) tree [] root sound
      (by simp) found
    exact ⟨next, runs _ le_rfl, evolves.sound⟩

/-- After an update of the root, nothing is left in a queue, and nothing marked in a list. -/
theorem Sound.update (sound : tree.Sound) (taken : tree.step .update = some tree') :
    Evolves tree [] [] tree' ∧ tree'.Clean [] ∧
      ∀ path node, tree'.nodes.lookup path = some node → node.queue = [] := by
  obtain ⟨root, found⟩ := sound.rooted.root
  obtain ⟨next, runs, evolves, clean, updated, there, ready⟩ :=
    update_evolves (tree.height + 1) tree [] root sound (by simp) found
  have same : next = tree' := Option.some.inj ((runs _ le_rfl).symm.trans taken)
  subst same
  refine ⟨evolves, clean, fun path node present => ?_⟩
  apply evolves.sound.queue path node present
  by_cases below : path = []
  · subst below
    rw [there] at present
    cases present
    exact .inr ready
  · exact .inl below

/-- Allowed steps keep the accounts. -/
theorem Accounted.step (accounted : tree.Accounted) {event : OctEvent Box}
    (keeps : tree.KeepsAll event) (taken : tree.step event = some tree') : tree'.Accounted := by
  obtain ⟨sound, held, once, dropped⟩ := accounted
  cases event with
  | enqueue object =>
    obtain ⟨root, found, enqueues, kept⟩ := sound.enqueue object
    have same := Option.some.inj (enqueues.symm.trans taken)
    subst same
    have more (other : ObjectPtr) : (tree.setNode [] { root with
        queue := root.queue ++ [object], ready := false }).held other =
          tree.held other + [object].count other := by
      have set := @held_setNode _ tree [] { root with
        queue := root.queue ++ [object], ready := false } root found other
      simp only [OctNode.weight, List.count_append] at set
      omega
    refine ⟨kept.of_nodes rfl, fun other unmarked => ?_, fun other unmarked => ?_, dropped⟩
    · have account := held other unmarked
      have set := more other
      simp only [List.count_cons, List.count_nil] at set ⊢
      change (tree.setNode [] _).held other = _
      omega
    · have before := once other unmarked
      simp only [List.count_cons]
      split_ifs with same
      · -- The object was not enqueued before.
        obtain rfl := eq_of_beq same
        obtain marked | fresh := keeps
        · rw [show (tree.objects object).marked = false from unmarked] at marked
          cases marked
        · rw [List.count_eq_zero.mpr fresh]
      · exact before
  | move object box =>
    cases Option.some.inj taken
    have marks (other : ObjectPtr) : ((tree.setObject object { tree.objects object with
        box := box, dirty := true }).objects other).marked = (tree.objects other).marked := by
      simp only [setObject, Function.update_apply]
      split_ifs with same
      · rw [same]
      · rfl
    refine ⟨sound.of_nodes rfl, fun other unmarked => held other (by rwa [marks] at unmarked),
      fun other unmarked => once other (by rwa [marks] at unmarked), fun other member => ?_⟩
    rw [marks]
    exact dropped other member
  | mark object =>
    cases Option.some.inj taken
    have marks (other : ObjectPtr) : ((tree.setObject object { tree.objects object with
        marked := true }).objects other).marked = true ↔
          other = object ∨ (tree.objects other).marked = true := by
      simp only [setObject, Function.update_apply]
      split_ifs with same
      · simp [same]
      · simp [same]
    have before {other : ObjectPtr} (unmarked : ((tree.setObject object { tree.objects object with
        marked := true }).objects other).marked = false) : (tree.objects other).marked = false := by
      apply Bool.eq_false_of_not_eq_true
      intro marked
      rw [(marks other).mpr (.inr marked)] at unmarked
      cases unmarked
    exact ⟨sound.of_nodes rfl, fun other unmarked => held other (before unmarked),
      fun other unmarked => once other (before unmarked),
      fun other member => (marks other).mpr (.inr (dropped other member))⟩
  | update =>
    obtain ⟨evolves, -, -⟩ := sound.update taken
    have marks := evolves.objects.marked
    refine ⟨evolves.sound, fun other unmarked => ?_, fun other unmarked => ?_, fun other member => ?_⟩
    · rw [marks] at unmarked
      rw [evolves.held other unmarked, evolves.enqueued, held other unmarked]
      rfl
    · rw [evolves.enqueued]
      exact once other (by rwa [marks] at unmarked)
    · rw [marks]
      exact keeps tree' taken other member

/-- A cube around a place. -/
def cube (x y z : ℚ) : BoundingBox :=
  ⟨⟨x, y, z⟩, ⟨1, 1, 1⟩⟩

/-- A run in which one of two objects leaves the region of the root. -/
def leaving : List (OctEvent BoundingBox) :=
  [.enqueue 0, .enqueue 1, .move 0 (cube (-100) 100 100), .update, .move 0 (cube 3000 100 100)]

end OctTree

end Recap.Game
