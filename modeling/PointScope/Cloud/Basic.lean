/-!
Points in space and clouds of them.
-/

namespace PointScope

/-- A triple of coordinates. The geometry of a view is stated over any number type, so that it can
be studied over exact numbers; points use doubles. -/
structure Vec3 (α : Type) where
  x : α
  y : α
  z : α
deriving BEq, DecidableEq, Repr

/-- A point in world space. The vertical axis of a height field is `y`. -/
abbrev Point := Vec3 Float

namespace Point

def origin : Point := ⟨0.0, 0.0, 0.0⟩

def distance (a b : Point) : Float :=
  let dx := b.x - a.x
  let dy := b.y - a.y
  let dz := b.z - a.z
  (dx * dx + dy * dy + dz * dz).sqrt

/-- The length of a way between two points along the axes. -/
def manhattanDistance (a b : Point) : Float :=
  (b.x - a.x).abs + (b.y - a.y).abs + (b.z - a.z).abs

def add (a b : Point) : Point := ⟨a.x + b.x, a.y + b.y, a.z + b.z⟩

end Point

/-- Points in the order they were added, which is the order they are drawn in. Equal points are
kept. -/
abbrev Cloud := List Point

/-- The sum of all points of a cloud, from the first to the last. -/
def Cloud.sum (cloud : Cloud) : Point := cloud.foldl Point.add Point.origin

end PointScope
