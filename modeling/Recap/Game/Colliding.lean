import Recap.Game.OctreeReach

/-! The objects that a collision volume of another object meets, and what is made of them. -/

namespace Recap.Game

namespace BoundingSphere

/-- `glm::clamp` of a coordinate. -/
def clamp (value low high : ℚ) : ℚ := min (max value low) high

/-- The point of a box that is closest to the centre is in the sphere. -/
def intersects (sphere : BoundingSphere) (box : BoundingBox) : Bool :=
  let x := clamp sphere.center.x box.getMin.x box.getMax.x - sphere.center.x
  let y := clamp sphere.center.y box.getMin.y box.getMax.y - sphere.center.y
  let z := clamp sphere.center.z box.getMin.z box.getMax.z - sphere.center.z
  0 ≤ sphere.radius ∧ x * x + y * y + z * z ≤ sphere.radius * sphere.radius

end BoundingSphere

/-- The tree of the object manager, which has its root from the start. -/
structure ObjectWorld where
  tree : OctTree BoundingBox
  root : (tree.nodes.lookup []).isSome

namespace ObjectWorld

open OctTree

variable (world : ObjectWorld)

/-- An object is found by a query: its type is asked for, its box is met, and the query comes to a
node that has it. -/
def Finds (meets : BoundingBox → Bool) (types : List NounType) (object : ObjectPtr) : Prop :=
  accepts types (world.tree.objects object).type = true ∧
    meets (world.tree.objects object).box = true ∧
    ∃ path node, ReachedFrom world.tree meets [] path ∧
      world.tree.nodes.lookup path = some node ∧ object ∈ node.objects

/-- A query of the root comes to an end. -/
theorem getObjects_isSome (meets : BoundingBox → Bool) (types : List NounType) :
    (world.tree.getObjects meets types (world.tree.span + 1) [] []).isSome := by
  obtain ⟨added, adds, -⟩ := @getObjects_reaches _ world.tree meets types
    (world.tree.span + 1) [] (by simp) world.root
  rw [adds _ le_rfl]
  rfl

def getObjects (meets : BoundingBox → Bool) (types : List NounType) : List ObjectPtr :=
  (world.tree.getObjects meets types (world.tree.span + 1) [] []).get
    (world.getObjects_isSome meets types)

theorem mem_getObjects {meets : BoundingBox → Bool} {types : List NounType} {object : ObjectPtr} :
    object ∈ world.getObjects meets types ↔ world.Finds meets types object := by
  -- What the query adds is what is wanted of the nodes that it comes to.
  obtain ⟨added, adds, same⟩ := @getObjects_reaches _ world.tree meets types
    (world.tree.span + 1) [] (by simp) world.root
  have found : world.getObjects meets types = added := by
    simp [getObjects, adds _ le_rfl]
  rw [found, same]
  simp only [wanted, Bool.and_eq_true, Finds]
  constructor
  · rintro ⟨path, node, reached, lookup, inside, accepted, met⟩
    exact ⟨accepted, met, path, node, reached, lookup, inside⟩
  · rintro ⟨accepted, met, path, node, reached, lookup, inside⟩
    exact ⟨path, node, reached, lookup, inside, accepted, met⟩

def getObjectsInRegion (region : BoundingBox) (types : List NounType) : List ObjectPtr :=
  world.getObjects region.intersects types

def getObjectsInRadius (region : BoundingSphere) (types : List NounType) : List ObjectPtr :=
  world.getObjects region.intersects types

end ObjectWorld

inductive CollisionShape where
  | sphere | box
  /-- Any other number that the file of a noun may have. -/
  | unknown
deriving DecidableEq

structure CollisionVolume where
  mBoxExtents : Vec3
  mSphereRadius : ℚ
  mShape : CollisionShape
deriving DecidableEq

structure ProjectileData where
  mCreatureCollisionVolume : Option CollisionVolume
  mOtherCollisionVolume : Option CollisionVolume

/-- The noun of an object, by what it says of projectiles. -/
structure ProjectileNoun where
  projectileData : Option ProjectileData

/-- What each thread keeps to make its queries with. -/
structure LocalVolumes where
  localSphere : BoundingSphere
  localBox : BoundingBox

/-- Whether a volume meets a box when it is centred at a point. -/
def CollisionVolume.meets (volume : CollisionVolume) (center : Vec3) : BoundingBox → Bool :=
  match volume.mShape with
  | .sphere => BoundingSphere.intersects ⟨center, volume.mSphereRadius⟩
  | .box => BoundingBox.intersects ⟨center, volume.mBoxExtents⟩
  | .unknown => fun _ => false

namespace ObjectWorld

variable (world : ObjectWorld) (locals : LocalVolumes) (object : ObjectPtr)

/-- Where an object is, by its bounding box. -/
def center : Vec3 := (world.tree.objects object).box.center

/-- `Object::GetCollidingObjectsWith`, with what it leaves in the volumes of its thread. -/
def getCollidingObjectsWith (collisionVolume : CollisionVolume) (types : List NounType) :
    List ObjectPtr × LocalVolumes :=
  let result := []
  match collisionVolume.mShape with
  | .sphere =>
    let locals := { locals with
      localSphere := ⟨world.center object, collisionVolume.mSphereRadius⟩ }
    -- What the query returns is assigned to nothing.
    let _ := world.getObjectsInRadius locals.localSphere types
    (result, locals)
  | .box =>
    let locals := { locals with localBox := ⟨world.center object, collisionVolume.mBoxExtents⟩ }
    let _ := world.getObjectsInRegion locals.localBox types
    (result, locals)
  | .unknown => (result, locals)

/-- The collision volume of a noun for other objects, if it has one. -/
def otherVolume (noun : Option ProjectileNoun) : Option CollisionVolume :=
  noun.bind fun noun => noun.projectileData.bind ProjectileData.mOtherCollisionVolume

def isColliding (noun : Option ProjectileNoun) : Bool :=
  match otherVolume noun with
  | none => false
  | some otherCollision =>
    !(world.getCollidingObjectsWith locals object otherCollision []).1.isEmpty

/-- `Locomotion::CollideWithCreature`, with its test of each object. -/
def collideWithCreature (testCollision : ObjectPtr → Bool) (ignoreCreatureCollide : Bool)
    (noun : Option ProjectileNoun) : Bool :=
  if ignoreCreatureCollide then false
  else
    match noun.bind fun noun => noun.projectileData.bind ProjectileData.mCreatureCollisionVolume with
    | none => false
    | some creatureCollisionVolume =>
      (world.getCollidingObjectsWith locals object creatureCollisionVolume [.creature]).1.any
        testCollision

/-- What the query of a volume at an object reports. -/
def reported (volume : CollisionVolume) (types : List NounType) : List ObjectPtr :=
  match volume.mShape with
  | .sphere => world.getObjectsInRadius ⟨world.center object, volume.mSphereRadius⟩ types
  | .box => world.getObjectsInRegion ⟨world.center object, volume.mBoxExtents⟩ types
  | .unknown => []

theorem mem_reported {volume : CollisionVolume} {types : List NounType} {other : ObjectPtr} :
    other ∈ world.reported object volume types ↔
      world.Finds (volume.meets (world.center object)) types other := by
  -- Each shape has its own query.
  unfold reported CollisionVolume.meets
  cases volume.mShape with
  | sphere | box => exact world.mem_getObjects
  | unknown => simp [Finds]

/-- Whatever the queries find, the list that is returned is the one that was made before them. -/
theorem getCollidingObjectsWith_nil (volume : CollisionVolume) (types : List NounType) :
    (world.getCollidingObjectsWith locals object volume types).1 = [] := by
  unfold getCollidingObjectsWith
  cases volume.mShape <;> rfl

theorem isColliding_false (noun : Option ProjectileNoun) :
    world.isColliding locals object noun = false := by
  -- An empty list is the same to it as no volume.
  unfold isColliding
  cases otherVolume noun with
  | none => rfl
  | some volume => simp [getCollidingObjectsWith_nil]

/-- No projectile hits a creature. -/
theorem collideWithCreature_false (testCollision : ObjectPtr → Bool) (ignoreCreatureCollide : Bool)
    (noun : Option ProjectileNoun) :
    world.collideWithCreature locals object testCollision ignoreCreatureCollide noun = false := by
  unfold collideWithCreature
  split
  · rfl
  · split
    · rfl
    · simp [getCollidingObjectsWith_nil]

/-- The objects returned are those of the query, and an object collides if there is one for it. -/
structure CollidesExactly (volume : CollisionVolume) (types : List NounType)
    (noun : Option ProjectileNoun) : Prop where
  objects : (world.getCollidingObjectsWith locals object volume types).1 =
    world.reported object volume types
  colliding : world.isColliding locals object noun = true ↔
    ∃ volume ∈ otherVolume noun, ∃ other, other ∈ world.reported object volume []

/-- Collisions are exact where there is nothing to collide with: neither for the volume nor for the
object itself. -/
theorem collidesExactly_iff (volume : CollisionVolume) (types : List NounType)
    (noun : Option ProjectileNoun) :
    world.CollidesExactly locals object volume types noun ↔
      (∀ other, ¬ world.Finds (volume.meets (world.center object)) types other) ∧
        ∀ volume ∈ otherVolume noun, ∀ other,
          ¬ world.Finds (volume.meets (world.center object)) [] other := by
  -- The code has answered without the query.
  simp only [← mem_reported]
  constructor
  · rintro ⟨objects, colliding⟩
    rw [getCollidingObjectsWith_nil] at objects
    constructor
    · intro other found
      rw [← objects] at found
      cases found
    · intro volume own other found
      have collides := colliding.mpr ⟨volume, own, other, found⟩
      rw [isColliding_false] at collides
      cases collides
  · rintro ⟨nothing, alone⟩
    constructor
    · rw [getCollidingObjectsWith_nil]
      exact (List.eq_nil_iff_forall_not_mem.mpr nothing).symm
    · rw [isColliding_false]
      constructor
      · intro collides
        cases collides
      · rintro ⟨volume, own, other, found⟩
        exact absurd found (alone volume own other)

/-- A sphere around an object in the middle of the tree meets the object, and nothing is returned. -/
theorem not_collidesExactly : ¬ ∀ (world : ObjectWorld) (locals : LocalVolumes) (object : ObjectPtr)
    (volume : CollisionVolume) (types : List NounType) (noun : Option ProjectileNoun),
    world.CollidesExactly locals object volume types noun := by
  intro all
  have exact := all ⟨OctTree.crossing, by decide⟩
    ⟨⟨⟨0, 0, 0⟩, 0⟩, ⟨⟨0, 0, 0⟩, ⟨0, 0, 0⟩⟩⟩ 0 ⟨⟨0, 0, 0⟩, 1, .sphere⟩ [.creature] none
  have objects := exact.objects
  rw [getCollidingObjectsWith_nil] at objects
  revert objects
  decide +kernel

end ObjectWorld

end Recap.Game
