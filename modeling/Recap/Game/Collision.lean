import Recap.Game.Octree

/-! Bounding boxes and spheres with exact coordinates, and the octants of a box. -/

namespace Recap.Game

@[ext] structure Vec3 where
  x : ℚ
  y : ℚ
  z : ℚ
deriving DecidableEq

namespace Vec3

instance : Add Vec3 where
  add first second := ⟨first.x + second.x, first.y + second.y, first.z + second.z⟩

instance : Sub Vec3 where
  sub first second := ⟨first.x - second.x, first.y - second.y, first.z - second.z⟩

variable (first second : Vec3)

@[simp] theorem add_x : (first + second).x = first.x + second.x := rfl
@[simp] theorem add_y : (first + second).y = first.y + second.y := rfl
@[simp] theorem add_z : (first + second).z = first.z + second.z := rfl
@[simp] theorem sub_x : (first - second).x = first.x - second.x := rfl
@[simp] theorem sub_y : (first - second).y = first.y - second.y := rfl
@[simp] theorem sub_z : (first - second).z = first.z - second.z := rfl

end Vec3

structure BoundingBox where
  center : Vec3
  extent : Vec3
deriving DecidableEq

structure BoundingSphere where
  center : Vec3
  radius : ℚ

namespace BoundingBox

/-- The box between two corners. -/
def ofCorners (min max : Vec3) : BoundingBox where
  center := ⟨(max.x + min.x) / 2, (max.y + min.y) / 2, (max.z + min.z) / 2⟩
  extent := ⟨(max.x - min.x) / 2, (max.y - min.y) / 2, (max.z - min.z) / 2⟩

def getMin (box : BoundingBox) : Vec3 :=
  box.center - box.extent

def getMax (box : BoundingBox) : Vec3 :=
  box.center + box.extent

def isPoint (box : BoundingBox) : Bool :=
  box.extent.x = 0 ∨ box.extent.y = 0 ∨ box.extent.z = 0

def contains (box other : BoundingBox) : Bool :=
  |box.center.x - other.center.x| ≤ box.extent.x - other.extent.x ∧
    |box.center.y - other.center.y| ≤ box.extent.y - other.extent.y ∧
    |box.center.z - other.center.z| ≤ box.extent.z - other.extent.z

def intersects (box other : BoundingBox) : Bool :=
  |box.center.x - other.center.x| ≤ box.extent.x + other.extent.x ∧
    |box.center.y - other.center.y| ≤ box.extent.y + other.extent.y ∧
    |box.center.z - other.center.z| ≤ box.extent.z + other.extent.z

/-- No extent is above the smallest one that the tree divides. -/
def isSmallest (box : BoundingBox) : Bool :=
  box.extent.x ≤ 1 ∧ box.extent.y ≤ 1 ∧ box.extent.z ≤ 1

def octant (region : BoundingBox) (corner : Fin 8) : BoundingBox :=
  let rMin := region.getMin
  let rMax := region.getMax
  let rCenter := rMin + region.extent
  match corner with
  | 0 => ofCorners rMin rCenter
  | 1 => ofCorners ⟨rCenter.x, rMin.y, rMin.z⟩ ⟨rMax.x, rCenter.y, rCenter.z⟩
  | 2 => ofCorners ⟨rCenter.x, rMin.y, rCenter.z⟩ ⟨rMax.x, rCenter.y, rMax.z⟩
  | 3 => ofCorners ⟨rMin.x, rMin.y, rCenter.z⟩ ⟨rCenter.x, rCenter.y, rMax.z⟩
  | 4 => ofCorners ⟨rMin.x, rCenter.y, rMin.z⟩ ⟨rCenter.x, rMax.y, rCenter.z⟩
  | 5 => ofCorners ⟨rCenter.x, rCenter.y, rMin.z⟩ ⟨rMax.x, rMax.y, rCenter.z⟩
  | 6 => ofCorners rCenter rMax
  | 7 => ofCorners ⟨rMin.x, rCenter.y, rCenter.z⟩ ⟨rCenter.x, rMax.y, rMax.z⟩

/-- A bound on how often a region can be divided, since each division halves its extents. -/
def depth (region : BoundingBox) : Nat :=
  ⌈max region.extent.x (max region.extent.y region.extent.z)⌉₊

theorem octant_extent (region : BoundingBox) (corner : Fin 8) :
    (region.octant corner).extent =
      ⟨region.extent.x / 2, region.extent.y / 2, region.extent.z / 2⟩ := by
  ext
  all_goals
    fin_cases corner <;>
      simp only [octant, ofCorners, getMin, getMax, Vec3.add_x, Vec3.add_y, Vec3.add_z, Vec3.sub_x,
        Vec3.sub_y, Vec3.sub_z] <;> ring

/-- A region that is divided has an extent above one, so half of that rounds up to less. -/
theorem depth_octant (region : BoundingBox) (corner : Fin 8) (divides : region.isSmallest = false) :
    (region.octant corner).depth < region.depth := by
  unfold depth
  rw [octant_extent]
  simp only
  -- The largest extent is halved along with the others.
  have half : max (region.extent.x / 2) (max (region.extent.y / 2) (region.extent.z / 2)) =
      max region.extent.x (max region.extent.y region.extent.z) / 2 := by
    rw [max_div_div_right (by norm_num), max_div_div_right (by norm_num)]
  have large : 1 < max region.extent.x (max region.extent.y region.extent.z) := by
    simp only [isSmallest, decide_eq_false_iff_not, not_and_or, not_le] at divides
    simpa only [lt_max_iff] using divides
  rw [half]
  generalize max region.extent.x (max region.extent.y region.extent.z) = extent at large ⊢
  have above := Nat.le_ceil extent
  have two : 2 ≤ ⌈extent⌉₊ := Nat.lt_ceil.mpr (by exact_mod_cast large)
  refine Nat.lt_of_le_of_lt (Nat.ceil_le (n := ⌈extent⌉₊ - 1).mpr ?_) (by omega)
  have wide : (2 : ℚ) ≤ ⌈extent⌉₊ := by exact_mod_cast two
  rw [Nat.cast_sub (by omega), Nat.cast_one]
  linarith

instance : Spatial BoundingBox where
  isPoint := isPoint
  contains := contains
  isSmallest := isSmallest
  octant := octant
  depth := depth
  depth_octant := depth_octant

end BoundingBox

end Recap.Game
