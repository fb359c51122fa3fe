import Recap.Game.Colliding
import Recap.Game.OctreeRuns

/-! What a query answers right after an update, and which objects it misses. -/

namespace Recap.Game

/-- What may be asked for: the objects in a box, or those in a sphere. -/
inductive QueryRegion where
  | box (region : BoundingBox)
  | sphere (region : BoundingSphere)

def QueryRegion.intersects : QueryRegion → BoundingBox → Bool
  | .box region => region.intersects
  | .sphere region => region.intersects

namespace OctTree

open Totals Runs

section Once

variable {Box : Type} {tree : OctTree Box} {meets : Box → Bool} {path : Path} {object : ObjectPtr}

end Once

variable {tree : OctTree BoundingBox}

end OctTree

end Recap.Game
