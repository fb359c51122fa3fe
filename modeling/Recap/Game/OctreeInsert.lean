import Recap.Game.OctreeBuild

/-! An insertion adds one object at one place, inside the regions that lead there. -/

namespace Recap.Game.OctTree

open Spatial Totals

variable {Box : Type} [Spatial Box]

section Place

variable {tree tree' : OctTree Box} {object : ObjectPtr} {path place : Path}

/-- Where an insertion puts its object: at the end of a node's list, or alone in a new node. -/
inductive Placed (tree : OctTree Box) (object : ObjectPtr) : Path → OctTree Box → Prop where
  | own {place : Path} {node : OctNode Box} (found : tree.nodes.lookup place = some node) :
      Placed tree object place
        (tree.setNode place { node with objects := node.objects ++ [object] })
  | new {parent : Path} {corner : Fin 8} {node : OctNode Box}
      (above : tree.nodes.lookup parent = some node)
      (free : tree.nodes.lookup (corner :: parent) = none)
      (divides : isSmallest node.region = false)
      (filled : node.objects = [] → tree.children parent ≠ [])
      (inside : contains (octant node.region corner) (tree.objects object).box = true) :
      Placed tree object (corner :: parent)
        (tree.setNode (corner :: parent) (OctNode.create (octant node.region corner) [object]))

theorem Placed.objects (placed : Placed tree object place tree') : tree'.objects = tree.objects := by
  cases placed <;> rfl

theorem Placed.dropped (placed : Placed tree object place tree') : tree'.dropped = tree.dropped := by
  cases placed <;> rfl

theorem Placed.rooted (placed : Placed tree object place tree') (rooted : tree.Rooted) :
    tree'.Rooted := by
  -- The node that is set was there, or its parent was.
  cases placed with
  | own found =>
    apply rooted.setNode
    intro corner parent same
    subst same
    exact rooted.parent corner parent _ found
  | new above free divides filled inside =>
    apply rooted.setNode
    intro first parent same
    obtain ⟨-, rfl⟩ := List.cons.inj same
    exact ⟨_, above⟩

/-- Below every node on the way to its place, the object is there once more. -/
theorem Placed.count (placed : Placed tree object place tree') (below : path <:+ place)
    (other : ObjectPtr) : (tree'.storedBelow path).count other =
      (tree.storedBelow path).count other + if object = other then 1 else 0 := by
  cases placed with
  | @own _ node found =>
    have set := @count_storedBelow_setNode _ tree _ _ below
      { node with objects := node.objects ++ [object] } other
    rw [found] at set
    simp only [Option.map_some, Option.getD_some, List.count_append, List.count_singleton,
      beq_iff_eq] at set
    omega
  | @new _ corner node above free divides filled inside =>
    have set := @count_storedBelow_setNode _ tree _ _ below
      (OctNode.create (octant node.region corner) [object]) other
    rw [free] at set
    simpa [OctNode.create, List.count_singleton] using set

theorem Placed.perm (placed : Placed tree object place tree') (below : path <:+ place) :
    (tree'.storedBelow path).Perm (object :: tree.storedBelow path) := by
  apply List.perm_iff_count.mpr
  intro other
  rw [placed.count below, List.count_cons]
  simp

/-- What the region of a place contains. -/
def Within (tree : OctTree Box) (place : Path) (object : ObjectPtr) : Prop :=
  ∀ node, tree.nodes.lookup place = some node →
    contains node.region (tree.objects object).box = true

/-- An object that is put inside its node's region keeps everything inside, if a new region is. -/
theorem Placed.contained (placed : Placed tree object place tree') (rooted : tree.Rooted)
    (contained : tree.Contained) (within : Within tree' place object)
    (divides : ∀ parent corner node, place = corner :: parent →
      tree.nodes.lookup place = none → tree.nodes.lookup parent = some node →
      contains (octant node.region corner) (tree.objects object).box = true →
      contains node.region (octant node.region corner) = true) : tree'.Contained := by
  cases placed with
  | @own _ top found =>
    -- The regions are as they were, and one node has one object more.
    have region (other : Path) (node : OctNode Box)
        (present : (tree.setNode place { top with objects := top.objects ++ [object] }).nodes.lookup
          other = some node) :
        ∃ old, tree.nodes.lookup other = some old ∧ old.region = node.region := by
      rw [lookup_setNode] at present
      split at present
      · rename_i same
        cases present
        exact ⟨top, same ▸ found, rfl⟩
      · exact ⟨node, present, rfl⟩
    constructor
    · intro other node _ different present member inside
      by_cases same : other = place
      · subst same
        have inRegion := within node present
        rw [lookup_setNode, if_pos rfl] at present
        cases present
        obtain old | new := List.mem_append.mp inside
        · exact contained.objects other top List.nil_suffix different found member old
        · rw [List.mem_singleton.mp new]
          exact inRegion
      · rw [lookup_setNode, if_neg same] at present
        exact contained.objects other node List.nil_suffix different present member inside
    · intro corner other child node _ present above
      obtain ⟨oldChild, lower, sameChild⟩ := region _ _ present
      obtain ⟨old, upper, sameNode⟩ := region _ _ above
      rw [← sameChild, ← sameNode]
      exact contained.regions corner other oldChild old List.nil_suffix lower upper
  | @new parent first top above free divided filled inside =>
    constructor
    · intro other node _ different present member inside
      by_cases same : other = first :: parent
      · subst same
        have inRegion := within node present
        rw [lookup_setNode, if_pos rfl] at present
        cases present
        rw [List.mem_singleton.mp inside]
        exact inRegion
      · rw [lookup_setNode, if_neg same] at present
        exact contained.objects other node List.nil_suffix different present member inside
    · intro corner other child node _ present upper
      rw [lookup_setNode] at present upper
      by_cases new : other = first :: parent
      · -- A new node has no child.
        subst new
        rw [if_neg (by simp), rooted.below_none free (List.suffix_cons corner _)] at present
        cases present
      · rw [if_neg new] at upper
        split at present
        · rename_i same
          obtain ⟨rfl, rfl⟩ := List.cons.inj same
          cases present
          rw [above] at upper
          cases upper
          exact divides other corner top rfl free above inside
        · exact contained.regions corner other child node List.nil_suffix present upper

end Place

section Descend

variable {tree : OctTree Box} {object : ObjectPtr} {path : Path} {node : OctNode Box} {levels : Nat}

/-- With enough nested calls, a call puts its object at a place below a node that contains it. -/
def InsertsWithin (tree : OctTree Box) (object : ObjectPtr) (path : Path) (levels : Nat)
    (call : Nat → Option (Bool × OctTree Box)) : Prop :=
  ∃ place tree', path <:+ place ∧ Placed tree object place tree' ∧ Within tree' place object ∧
    ∀ fuel ≥ levels, call fuel = some (true, tree')

/-- An object that is put into a node's own list is within the node. -/
theorem insertsWithin_own (found : tree.nodes.lookup path = some node)
    (inside : contains node.region (tree.objects object).box = true)
    {call : Nat → Option (Bool × OctTree Box)}
    (calls : ∀ fuel ≥ levels, call fuel =
      some (true, tree.setNode path { node with objects := node.objects ++ [object] })) :
    InsertsWithin tree object path levels call := by
  refine ⟨path, _, List.suffix_refl _, .own found, fun other present => ?_, calls⟩
  rw [lookup_setNode, if_pos rfl] at present
  cases present
  exact inside

/-- The object goes to the first child that contains it, to a new one, or to the node itself. -/
theorem insertBelow_within (found : tree.nodes.lookup path = some node)
    (passes : ¬ ((node.objects = [] ∧ tree.children path = []) ∨ isSmallest node.region = true))
    (inside : contains node.region (tree.objects object).box = true)
    (deeper : ∀ corner child, tree.nodes.lookup (corner :: path) = some child →
      contains child.region (tree.objects object).box = true →
      InsertsWithin tree object (corner :: path) levels
        fun fuel => tree.insert fuel (corner :: path) object) (corners : List (Fin 8)) :
    InsertsWithin tree object path levels fun fuel =>
      insertBelow (fun tree path => tree.insert fuel path object) path object
        (corners.map fun corner => (corner, tree.childOctant path node.region corner)) tree := by
  induction corners with
  | nil =>
    apply insertsWithin_own found inside
    intro fuel _
    rw [List.map_nil, insertBelow, found]
    rfl
  | cons corner corners ih =>
    by_cases fits : contains (tree.childOctant path node.region corner) (tree.objects object).box = true
    · cases present : tree.nodes.lookup (corner :: path) with
      | none =>
        -- There is no child yet, so the new one has the octant's region.
        have region : tree.childOctant path node.region corner = octant node.region corner := by
          rw [childOctant, present]
        rw [region] at fits
        obtain ⟨filled, divides⟩ := not_or.mp passes
        refine ⟨corner :: path, _, List.suffix_cons corner path,
          .new found present (Bool.eq_false_of_not_eq_true divides)
            (fun empty childless => filled ⟨empty, childless⟩) fits,
          fun other set => ?_, fun fuel _ => ?_⟩
        · rw [lookup_setNode, if_pos rfl] at set
          cases set
          exact fits
        · beta_reduce
          rw [List.map_cons, insertBelow, region, if_pos fits, present]
      | some child =>
        have region : tree.childOctant path node.region corner = child.region := by
          rw [childOctant, present]
        rw [region] at fits
        obtain ⟨place, tree', below, placed, within, calls⟩ := deeper corner child present fits
        refine ⟨place, tree', (List.suffix_cons corner path).trans below, placed, within,
          fun fuel enough => ?_⟩
        have taken := calls fuel enough
        beta_reduce at taken ⊢
        rw [List.map_cons, insertBelow, region, if_pos fits, present]
        simp [taken]
    · obtain ⟨place, tree', below, placed, within, calls⟩ := ih
      refine ⟨place, tree', below, placed, within, fun fuel enough => ?_⟩
      beta_reduce
      rw [List.map_cons, insertBelow, if_neg fits]
      exact calls fuel enough

/-- A node without anything takes every object, as does one that is not divided. -/
theorem insert_own (found : tree.nodes.lookup path = some node)
    (own : (node.objects = [] ∧ tree.children path = []) ∨ isSmallest node.region = true)
    (fuel : Nat) : tree.insert (fuel + 1) path object =
      some (true, tree.setNode path { node with objects := node.objects ++ [object] }) := by
  simp only [insert, found, Option.bind_eq_bind, Option.bind_some, own, if_true]
  rfl

/-- An object inside a node's region is taken, as a child is only asked about what it contains. -/
theorem insert_within : ∀ levels path node, tree.span < levels + path.length →
    tree.nodes.lookup path = some node →
    contains node.region (tree.objects object).box = true →
    InsertsWithin tree object path levels fun fuel => tree.insert fuel path object := by
  intro levels
  -- No node is below the lowest level, so the levels run out after the children do.
  induction levels with
  | zero =>
    intro path node long found
    have short := length_le_span found
    omega
  | succ levels ih =>
    intro path node long found inside
    by_cases own : (node.objects = [] ∧ tree.children path = []) ∨ isSmallest node.region = true
    · apply insertsWithin_own found inside
      intro fuel enough
      obtain ⟨fuel, rfl⟩ := Nat.exists_eq_add_of_le' (Nat.one_le_of_lt enough)
      exact insert_own found own fuel
    · obtain ⟨place, tree', below, placed, within, calls⟩ := @insertBelow_within _ _ tree object
        path node levels found own inside
        (fun corner child present fits => ih (corner :: path) child
          (by rw [List.length_cons]; omega) present fits) (List.finRange 8)
      refine ⟨place, tree', below, placed, within, fun fuel enough => ?_⟩
      obtain ⟨fuel, rfl⟩ := Nat.exists_eq_add_of_le' (Nat.one_le_of_lt enough)
      have taken := calls fuel (by omega)
      simp only [insert, found, Option.bind_eq_bind, Option.bind_some, if_neg own, inside, if_true]
      exact taken

/--
An insertion ends at any node: it goes up to a node that takes the object, and then down.

If it comes to the root and the root refuses the object too, nothing has changed.
-/
theorem insert_ends (rooted : tree.Rooted) : ∀ path node, tree.nodes.lookup path = some node →
    ∃ result, (∀ fuel ≥ path.length + tree.span + 1, tree.insert fuel path object = some result) ∧
      (result = (false, tree) ∨
        ∃ place tree', result = (true, tree') ∧ Placed tree object place tree') := by
  intro path
  induction path with
  | nil =>
    intro node found
    by_cases own : (node.objects = [] ∧ tree.children [] = []) ∨ isSmallest node.region = true
    · refine ⟨_, fun fuel enough => ?_, .inr ⟨_, _, rfl, .own found⟩⟩
      obtain ⟨fuel, rfl⟩ := Nat.exists_eq_add_of_le' (Nat.one_le_of_lt enough)
      exact insert_own found own fuel
    · by_cases inside : contains node.region (tree.objects object).box = true
      · obtain ⟨place, tree', -, placed, -, runs⟩ := @insert_within _ _ tree object
          (tree.span + 1) [] node (by simp) found inside
        exact ⟨_, fun fuel enough => runs fuel (by simpa using enough), .inr ⟨_, _, rfl, placed⟩⟩
      · -- There is nothing above the root.
        refine ⟨_, fun fuel enough => ?_, .inl rfl⟩
        obtain ⟨fuel, rfl⟩ := Nat.exists_eq_add_of_le' (Nat.one_le_of_lt enough)
        simp only [insert, found, Option.bind_eq_bind, Option.bind_some, if_neg own,
          if_neg inside]
        rfl
  | cons corner parent ih =>
    intro node found
    by_cases own : (node.objects = [] ∧ tree.children (corner :: parent) = []) ∨
        isSmallest node.region = true
    · refine ⟨_, fun fuel enough => ?_, .inr ⟨_, _, rfl, .own found⟩⟩
      obtain ⟨fuel, rfl⟩ := Nat.exists_eq_add_of_le' (Nat.one_le_of_lt enough)
      exact insert_own found own fuel
    · by_cases inside : contains node.region (tree.objects object).box = true
      · obtain ⟨place, tree', -, placed, -, runs⟩ := @insert_within _ _ tree object
          (tree.span + 1) (corner :: parent) node (by omega) found inside
        exact ⟨_, fun fuel enough => runs fuel (by omega), .inr ⟨_, _, rfl, placed⟩⟩
      · obtain ⟨above, present⟩ := rooted.parent corner parent node found
        obtain ⟨result, runs, outcome⟩ := ih above present
        refine ⟨result, fun fuel enough => ?_, outcome⟩
        rw [List.length_cons] at enough
        obtain ⟨fuel, rfl⟩ := Nat.exists_eq_add_of_le' (Nat.one_le_of_lt enough)
        simp only [insert, found, Option.bind_eq_bind, Option.bind_some, if_neg own,
          if_neg inside]
        exact runs fuel (by omega)

end Descend

end Recap.Game.OctTree

namespace Recap.Game

namespace BoundingBox

/-- No extent is below zero, as in every box whose first corner is the lower one. -/
def Proper (box : BoundingBox) : Prop :=
  0 ≤ box.extent.x ∧ 0 ≤ box.extent.y ∧ 0 ≤ box.extent.z

instance (box : BoundingBox) : Decidable box.Proper := by
  unfold Proper
  infer_instance

theorem Proper.octant {region : BoundingBox} (proper : region.Proper) (corner : Fin 8) :
    (region.octant corner).Proper := by
  obtain ⟨x, y, z⟩ := proper
  rw [Proper, octant_extent]
  exact ⟨by linarith, by linarith, by linarith⟩

/-- A region that no extent turns around contains its octants, which touch its middle. -/
theorem Proper.contains_octant {region : BoundingBox} (proper : region.Proper) (corner : Fin 8) :
    region.contains (region.octant corner) = true := by
  obtain ⟨x, y, z⟩ := proper
  -- The centre of an octant is half an extent away, and half an extent is what is left around it.
  have axis (center extent : ℚ) (wide : 0 ≤ extent) :
      |center - (center - extent + extent + (center - extent)) / 2| ≤ extent - extent / 2 ∧
        |center - (center + extent + (center - extent + extent)) / 2| ≤ extent - extent / 2 := by
    constructor <;> rw [abs_le] <;> constructor <;> linarith
  have inX := axis region.center.x region.extent.x x
  have inY := axis region.center.y region.extent.y y
  have inZ := axis region.center.z region.extent.z z
  apply decide_eq_true
  rw [octant_extent]
  fin_cases corner
  all_goals
    simp only [BoundingBox.octant, ofCorners, getMin, getMax, Vec3.add_x, Vec3.add_y, Vec3.add_z,
      Vec3.sub_x, Vec3.sub_y, Vec3.sub_z]
    grind

/-- An octant that contains a proper box is proper, and so is the region around it. -/
theorem Proper.of_contains {region box : BoundingBox} (proper : box.Proper)
    (inside : region.contains box = true) : region.Proper := by
  obtain ⟨x, y, z⟩ := proper
  obtain ⟨inX, inY, inZ⟩ := of_decide_eq_true inside
  exact ⟨by linarith [abs_nonneg (region.center.x - box.center.x)],
    by linarith [abs_nonneg (region.center.y - box.center.y)],
    by linarith [abs_nonneg (region.center.z - box.center.z)]⟩

theorem Proper.of_octant {region : BoundingBox} {corner : Fin 8}
    (proper : (region.octant corner).Proper) : region.Proper := by
  rw [Proper, octant_extent] at proper
  obtain ⟨x, y, z⟩ := proper
  exact ⟨by linarith, by linarith, by linarith⟩

/-- Where the region or the box is proper, an octant that contains the box is inside the region. -/
theorem divides_of_proper (region box : BoundingBox) (corner : Fin 8)
    (proper : region.Proper ∨ box.Proper) (inside : (region.octant corner).contains box = true) :
    region.contains (region.octant corner) = true ∧ ((region.octant corner).Proper ∨ box.Proper) := by
  obtain proper | proper := proper
  · exact ⟨proper.contains_octant corner, .inl (proper.octant corner)⟩
  · have around := (proper.of_contains inside).of_octant
    exact ⟨around.contains_octant corner, .inr proper⟩

end BoundingBox

namespace OctTree

/-- Building below a node ends, keeps its objects, and puts each one that leaves it inside the node
that it goes to. -/
def BuildsContained (tree : OctTree BoundingBox) (path : Path) (node : OctNode BoundingBox) : Prop :=
  ∃ tree', (∀ fuel > node.region.depth, tree.buildTree fuel path = some tree') ∧
    (tree'.storedBelow path).Perm node.objects ∧ tree'.Nested path

/-- An insertion is taken, adds its object once, and keeps everything inside its node. -/
def InsertsContained (tree : OctTree BoundingBox) (path : Path) (object : ObjectPtr) : Prop :=
  ∃ tree', (∀ fuel > tree.span, tree.insert fuel path object = some (true, tree')) ∧
    (tree'.storedBelow path).Perm (object :: tree.storedBelow path) ∧ tree'.Contained

/--
Building and inserting keep the objects, and keep them inside their nodes.

Building needs the region or each object's box to be proper, and inserting the regions from the node
down or the object's box.
-/
theorem builds_and_inserts :
    (∀ (tree : OctTree BoundingBox) (path : Path) (node : OctNode BoundingBox), tree.Rooted →
        tree.nodes.lookup path = some node → tree.children path = [] →
        (∀ object ∈ node.objects, node.region.Proper ∨ (tree.objects object).box.Proper) →
        tree.BuildsContained path node) ∧
      ∀ (tree : OctTree BoundingBox) (path : Path) (node : OctNode BoundingBox) (object : ObjectPtr),
        tree.Rooted → tree.Contained → tree.nodes.lookup path = some node →
        node.region.contains (tree.objects object).box = true →
        ((∀ other node, path <:+ other → tree.nodes.lookup other = some node → node.region.Proper) ∨
          (tree.objects object).box.Proper) →
        tree.InsertsContained path object := by
  constructor
  · intro tree path node rooted found childless proper
    obtain ⟨tree', runs, built⟩ := buildTree_built BoundingBox.divides_of_proper
      (node.region.depth + 1) tree path node (Nat.lt_succ_self _) rooted found childless
    exact ⟨tree', runs, List.perm_iff_count.mpr built.keeps, built.nested proper⟩
  · intro tree path node object rooted contained found inside proper
    obtain ⟨place, tree', below, placed, within, runs⟩ := insert_within (tree.span + 1) path node
      (by omega) found inside
    refine ⟨tree', runs, placed.perm below, placed.contained rooted contained within ?_⟩
    intro parent corner top same free above fits
    -- The place of a new node is not the one that was asked, and so its parent is below that.
    have under : path <:+ parent := by
      subst same
      obtain here | under := List.suffix_cons_iff.mp below
      · rw [here, free] at found
        cases found
      · exact under
    obtain regions | box := proper
    · exact (regions parent top under above).contains_octant corner
    · exact (BoundingBox.divides_of_proper _ _ corner (.inr box) fits).1

/-- A region with an object, and with a boundary that is turned around along the first axis. -/
def turnedAround : OctTree BoundingBox :=
  (empty (fun _ => ⟨⟨⟨2, -2, -2⟩, ⟨-3, 1, 1⟩⟩, .creature, false, false⟩)
    ⟨⟨0, 0, 0⟩, ⟨-4, 4, 4⟩⟩).setNode [] (OctNode.create ⟨⟨0, 0, 0⟩, ⟨-4, 4, 4⟩⟩ [0])

/-- Two objects in a corner of a region, and one in the corner beside it. -/
def corners : OctTree BoundingBox :=
  let place : ObjectPtr → BoundingBox
    | 0 => ⟨⟨2, 2, 2⟩, ⟨1, 1, 1⟩⟩
    | _ => ⟨⟨-2, 2, 2⟩, ⟨1, 1, 1⟩⟩
  (empty (fun object => ⟨place object, .creature, false, false⟩)
    ⟨⟨0, 0, 0⟩, ⟨4, 4, 4⟩⟩).setNode [] (OctNode.create ⟨⟨0, 0, 0⟩, ⟨4, 4, 4⟩⟩ [0, 1])

/-- Two objects are built into two octants, and one more is inserted beside them. -/
theorem builds_and_inserts_corners :
    corners.BuildsContained [] (OctNode.create ⟨⟨0, 0, 0⟩, ⟨4, 4, 4⟩⟩ [0, 1]) ∧
      corners.InsertsContained [] 2 := by
  constructor
  · apply builds_and_inserts.1 corners [] _ (by decide) (lookup_setNode _ _ _ _)
      (by decide)
    intro object _
    exact .inl (by decide)
  · apply builds_and_inserts.2 corners [] (OctNode.create ⟨⟨0, 0, 0⟩, ⟨4, 4, 4⟩⟩ [0, 1]) 2
      (by decide +kernel) (by decide +kernel) (lookup_setNode _ _ _ _) (by decide +kernel)
    exact .inr (by decide)

/-- The octants of a region that is turned around are not inside it. -/
theorem not_builds_contained :
    ¬ ((∀ (tree : OctTree BoundingBox) (path : Path) (node : OctNode BoundingBox), tree.Rooted →
        tree.nodes.lookup path = some node → tree.children path = [] →
        tree.BuildsContained path node) ∧
      ∀ (tree : OctTree BoundingBox) (path : Path) (node : OctNode BoundingBox) (object : ObjectPtr),
        tree.Rooted → tree.Contained → tree.nodes.lookup path = some node →
        node.region.contains (tree.objects object).box = true →
        tree.InsertsContained path object) := by
  rintro ⟨builds, -⟩
  obtain ⟨tree', runs, -, nested⟩ := builds turnedAround []
    (OctNode.create ⟨⟨0, 0, 0⟩, ⟨-4, 4, 4⟩⟩ [0]) (by decide) (lookup_setNode _ _ _ _)
    (by decide)
  have built := runs 5 (by decide)
  -- The object is in the first octant, and its child has that octant's region.
  have regions : ((turnedAround.buildTree 5 []).bind fun tree =>
      (tree.nodes.lookup [0]).map fun child => child.region) =
        some (BoundingBox.octant ⟨⟨0, 0, 0⟩, ⟨-4, 4, 4⟩⟩ 0) := by decide +kernel
  have root : ((turnedAround.buildTree 5 []).bind fun tree =>
      (tree.nodes.lookup []).map fun node => node.region) =
        some ⟨⟨0, 0, 0⟩, ⟨-4, 4, 4⟩⟩ := by decide +kernel
  rw [built, Option.bind_some, Option.map_eq_some_iff] at regions root
  obtain ⟨child, present, region⟩ := regions
  obtain ⟨node, above, around⟩ := root
  have inside := nested.regions 0 [] child node List.nil_suffix present above
  rw [region, around] at inside
  revert inside
  decide +kernel

end OctTree

end Recap.Game
