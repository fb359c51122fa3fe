import Recap.Game.Instance
import Recap.Lib.Totals

/-! The octree that keeps the instance's objects by their place in space. -/

namespace Recap.Game

inductive NounType where
  | none | creature | vehicle | obstacle | spawnPoint | pathPoint | trigger | pointLight | spotLight
  | lineLight | parallelLight | hemisphereLight | animator | animated | graphicsControl | material
  | flora | levelshopObject | terrain | weapon | building | handle | healthOrb | manaOrb
  | resurrectOrb | movie | loot | placableEffect | luaJob | abilityObject | levelExitPoint | decal
  | water | grass | door | crystal | interactable | projectile | destructibleOrnament | mapCamera
  | occluder | splineCamera | splineCameraNode | bossPortal
deriving DecidableEq

/-- What the tree asks about bounding boxes, and what bounds how often a region can be divided. -/
class Spatial (Box : Type) where
  isPoint : Box → Bool
  contains : Box → Box → Bool
  /-- No extent of the region is above the smallest one. -/
  isSmallest : Box → Bool
  octant : Box → Fin 8 → Box
  depth : Box → Nat
  depth_octant : ∀ region corner, isSmallest region = false → depth (octant region corner) < depth region

/-- What the tree reads of an object. -/
structure Occupant (Box : Type) where
  box : Box
  type : NounType
  dirty : Bool
  marked : Bool

/-- The place of a node, which is the corners that lead to it, the last one first. -/
abbrev Path := List (Fin 8)

structure OctNode (Box : Type) where
  region : Box
  objects : List ObjectPtr
  queue : List ObjectPtr
  maxLifespan : Int8
  lifespan : Int8
  built : Bool
  ready : Bool

namespace OctNode

variable {Box : Type}

/-- A node as its creation leaves it. -/
def create (region : Box) (objects : List ObjectPtr) : OctNode Box where
  region := region
  objects := objects
  queue := []
  maxLifespan := 8
  lifespan := -1
  built := false
  ready := false

/-- A node without objects and children ages, and any other with objects is young again. -/
def age (active : Bool) (node : OctNode Box) : OctNode Box :=
  if node.objects = [] then
    if active then node
    else if node.lifespan = -1 then { node with lifespan := node.maxLifespan }
    else if node.lifespan > 0 then { node with lifespan := node.lifespan - 1 }
    else node
  else if node.lifespan ≠ -1 then
    { node with
      maxLifespan := if node.maxLifespan ≤ 64 then node.maxLifespan * 2 else node.maxLifespan
      lifespan := -1 }
  else node

end OctNode

/--
The tree, and the objects it points to.

It also keeps the objects that were given up on: those that the root has refused, and those of a
node that another one was put in the place of. No function of the tree reads these.
-/
structure OctTree (Box : Type) where
  objects : ObjectPtr → Occupant Box
  nodes : AList fun _ : Path => OctNode Box
  enqueued : List ObjectPtr
  dropped : List ObjectPtr

namespace OctTree

open Spatial

variable {Box : Type} [Spatial Box]

/-- The tree of a region before anything is enqueued. -/
def empty (objects : ObjectPtr → Occupant Box) (region : Box) : OctTree Box where
  objects := objects
  nodes := AList.singleton [] (OctNode.create region [])
  enqueued := []
  dropped := []

section Nodes

omit [Spatial Box]

def setNode (tree : OctTree Box) (path : Path) (node : OctNode Box) : OctTree Box :=
  { tree with nodes := tree.nodes.insert path node }

/-- The corners at which a node has children. -/
def children (tree : OctTree Box) (path : Path) : List (Fin 8) :=
  (List.finRange 8).filter fun corner => (tree.nodes.lookup (corner :: path)).isSome

/-- A node is no longer part of the tree, and neither is anything below it. -/
def prune (tree : OctTree Box) (path : Path) : OctTree Box :=
  { tree with nodes := Totals.restrict (fun other => !path.isSuffixOf other) tree.nodes }

/-- All objects of a node and of the nodes below it. -/
def objectsBelow (tree : OctTree Box) (path : Path) : List ObjectPtr :=
  (Totals.restrict (fun other => path.isSuffixOf other) tree.nodes).entries.flatMap fun entry =>
    entry.2.objects ++ entry.2.queue

end Nodes

/-- How often the root can be divided. -/
def height (tree : OctTree Box) : Nat :=
  ((tree.nodes.lookup []).map fun root => depth root.region).getD 0

section Insert

/-- Tries the corners in turn. What none of them takes stays with the node. -/
def insertBelow (insert : OctTree Box → Path → Option (Bool × OctTree Box)) (path : Path)
    (object : ObjectPtr) : List (Fin 8 × Box) → OctTree Box → Option (Bool × OctTree Box)
  | [], tree => do
    let node ← tree.nodes.lookup path
    return (true, tree.setNode path { node with objects := node.objects ++ [object] })
  | (corner, region) :: rest, tree =>
    if contains region (tree.objects object).box then
      match tree.nodes.lookup (corner :: path) with
      | none => some (true, tree.setNode (corner :: path) (OctNode.create region [object]))
      | some _ => do
        let (taken, tree) ← insert tree (corner :: path)
        if taken then return (true, tree) else insertBelow insert path object rest tree
    else insertBelow insert path object rest tree

/-- The region of a child, or what it would be. -/
def childOctant (tree : OctTree Box) (path : Path) (region : Box) (corner : Fin 8) : Box :=
  match tree.nodes.lookup (corner :: path) with
  | some child => child.region
  | none => octant region corner

/-- Inserts an object at a node, with a bound on the number of nested calls. -/
def insert : Nat → OctTree Box → Path → ObjectPtr → Option (Bool × OctTree Box)
  | 0, _, _, _ => none
  | fuel + 1, tree, path, object => do
    let node ← tree.nodes.lookup path
    if (node.objects = [] ∧ tree.children path = []) ∨ isSmallest node.region then
      return (true, tree.setNode path { node with objects := node.objects ++ [object] })
    else if contains node.region (tree.objects object).box then
      insertBelow (fun tree path => tree.insert fuel path object) path object
        ((List.finRange 8).map fun corner => (corner, tree.childOctant path node.region corner)) tree
    else
      match path with
      | [] => return (false, tree)
      | _ :: parent => tree.insert fuel parent object

/-- Inserts an object, which is given up on if it is refused. -/
def insertOrDrop (path : Path) (tree : OctTree Box) (object : ObjectPtr) : Option (OctTree Box) := do
  let (taken, tree) ← tree.insert (2 * tree.height + 1) path object
  return if taken then tree else { tree with dropped := object :: tree.dropped }

end Insert

section Build

/-- The first octant that contains an object's box. A box that is a point is in none. -/
def octantOf (tree : OctTree Box) (region : Box) (object : ObjectPtr) : Option (Fin 8) :=
  let box := (tree.objects object).box
  if isPoint box then none
  else (List.finRange 8).find? fun corner => contains (octant region corner) box

/-- Makes a node at a corner, in the place of the one that may be there. -/
def createNode (tree : OctTree Box) (path : Path) (region : Box) (objects : List ObjectPtr) :
    OctTree Box :=
  let lost := tree.objectsBelow path
  let tree := (tree.prune path).setNode path (OctNode.create region objects)
  { tree with dropped := lost ++ tree.dropped }

/-- Distributes the objects of a node to children, with a bound on the number of nested calls. -/
def buildTree : Nat → OctTree Box → Path → Option (OctTree Box)
  | 0, _, _ => none
  | fuel + 1, tree, path => do
    let node ← tree.nodes.lookup path
    let fits : Bool := match node.objects with
      | [object] => contains node.region (tree.objects object).box
      | _ => false
    if fits || isSmallest node.region then return tree
    else
      let part (place : Option (Fin 8)) :=
        node.objects.filter fun object => tree.octantOf node.region object = place
      (List.finRange 8).foldlM (fun tree corner =>
          if part (some corner) = [] then some tree
          else
            (tree.createNode (corner :: path) (octant node.region corner)
              (part (some corner))).buildTree fuel (corner :: path))
        (tree.setNode path { node with objects := part none })

end Build

section Update

/-- Builds a new node with all that was enqueued, or inserts that into one that is built. -/
def prepare (tree : OctTree Box) (path : Path) : Option (OctTree Box) := do
  let node ← tree.nodes.lookup path
  if node.ready then return tree
  else if node.built then
    let tree := tree.setNode path { node with queue := [], ready := true }
    node.queue.foldlM (insertOrDrop path) tree
  else
    let tree := tree.setNode path
      { node with objects := node.objects ++ node.queue, queue := [], built := true, ready := true }
    tree.buildTree (tree.height + 1) path

/-- The objects that have moved, which are clean from here on. -/
def takeMoved : List ObjectPtr → (ObjectPtr → Occupant Box) → List ObjectPtr × (ObjectPtr → Occupant Box)
  | [], objects => ([], objects)
  | object :: rest, objects =>
    if (objects object).dirty then
      let (moved, objects) :=
        takeMoved rest (Function.update objects object { objects object with dirty := false })
      (object :: moved, objects)
    else takeMoved rest objects

/-- Ages a node, takes the marked objects away, and tells which of the others have moved. -/
def collect (tree : OctTree Box) (path : Path) : Option (List ObjectPtr × OctTree Box) := do
  let node ← tree.nodes.lookup path
  let node := node.age (tree.children path ≠ [])
  let kept := node.objects.filter fun object => !(tree.objects object).marked
  let (moved, objects) := takeMoved kept tree.objects
  return (moved, { tree.setNode path { node with objects := kept } with objects := objects })

/-- Deletes a child whose time is over, or lets it live on if it has objects. -/
def reap (path : Path) (tree : OctTree Box) (corner : Fin 8) : OctTree Box :=
  match tree.nodes.lookup (corner :: path) with
  | none => tree
  | some child =>
    if child.lifespan = 0 then
      if child.objects = [] then tree.prune (corner :: path)
      else tree.setNode (corner :: path) { child with lifespan := -1 }
    else tree

/-- The lowest node from the given one up that contains a box, or else the root. -/
def climb (tree : OctTree Box) (box : Box) : Path → Option Path
  | [] => some []
  | corner :: parent => do
    let node ← tree.nodes.lookup (corner :: parent)
    if contains node.region box then return corner :: parent else tree.climb box parent

/-- Takes an object that has moved from its node, and inserts it where it is now. -/
def reinsert (path : Path) (tree : OctTree Box) (object : ObjectPtr) : Option (OctTree Box) := do
  let box := (tree.objects object).box
  let current ← if isPoint box then some path else tree.climb box path
  let node ← tree.nodes.lookup path
  if object ∈ node.objects then
    (tree.setNode path { node with objects := node.objects.erase object }).insertOrDrop current object
  else none

/-- Updates a node and what is below it, with a bound on the number of nested calls. -/
def update : Nat → OctTree Box → Path → Option (OctTree Box)
  | 0, _, _ => none
  | fuel + 1, tree, path => do
    let tree ← tree.prepare path
    let (moved, tree) ← tree.collect path
    let tree := (List.finRange 8).foldl (reap path) tree
    let tree ← (tree.children path).foldlM (fun tree corner => tree.update fuel (corner :: path)) tree
    moved.foldlM (reinsert path) tree

end Update

section Query

omit [Spatial Box]

/-- Whether an object of a type is asked for. Without types, every object is. -/
def accepts (types : List NounType) (type : NounType) : Bool :=
  types = [] ∨ type ∈ types

/-- Adds the objects of a node and those below it that meet a region, with a bound on the number of
nested calls. -/
def getObjects (meets : Box → Bool) (types : List NounType) :
    Nat → OctTree Box → Path → List ObjectPtr → Option (List ObjectPtr)
  | 0, _, _, _ => none
  | fuel + 1, tree, path, objects => do
    let node ← tree.nodes.lookup path
    if !node.built then return objects
    else
      let own := node.objects.filter fun object =>
        accepts types (tree.objects object).type && meets (tree.objects object).box
      (tree.children path).foldlM (fun objects corner => do
          let child ← tree.nodes.lookup (corner :: path)
          if meets child.region then getObjects meets types fuel tree (corner :: path) objects
          else return objects)
        (objects ++ own)

end Query

def enqueue (tree : OctTree Box) (object : ObjectPtr) : Option (OctTree Box) := do
  let root ← tree.nodes.lookup []
  return { tree.setNode [] { root with queue := root.queue ++ [object], ready := false } with
    enqueued := object :: tree.enqueued }

end OctTree

end Recap.Game
