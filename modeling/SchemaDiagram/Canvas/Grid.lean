/-
# The grid of the canvas

Positions are aligned to a grid, and a table that is placed automatically stays inside the
bounds.

* `clamp` : the nearest position inside the bounds, on the grid where the bounds have room;
* `snap` : the nearest grid point of a move, never negative;
* `anchor` : where the first table goes.
-/
import SchemaDiagram.Canvas.Box

namespace SchemaDiagram

variable {α : Type} [Arithmetic α]

/-- The upper left corner of the region in which tables are placed. -/
def Bounds.anchor (b : Bounds) : Point Int := ⟨b.minX + b.padding, b.minY + b.padding⟩

/-- The lower right limit of the upper left corner of a box with the given number of fields.
It may lie before the anchor when the bounds are too small. -/
def Config.farLimit (c : Config) (fieldCount : Nat) : Point Int :=
  ⟨c.bounds.minX + c.bounds.width - c.metrics.width - c.bounds.padding,
    c.bounds.minY + c.bounds.height - c.metrics.tableHeight fieldCount - c.bounds.padding⟩

/-- The multiple of the grid size nearest to a coordinate. -/
def toGrid (grid : Nat) (value : α) : Except ArithmeticFault Int := do
  return (← Arithmetic.nearestQuotient value grid) * grid

/-- Aligns a coordinate to the grid between two limits.  Limits without a multiple of the grid
size between them are met exactly, the lower one first. -/
def clampBetween (grid : Nat) (low high : Int) (value : α) : Except ArithmeticFault Int := do
  let snapped ← toGrid grid value
  let fromAbove ←
    if high < snapped then (· * (grid : Int)) <$> Arithmetic.floorQuotient α high grid
    else pure snapped
  let fromBelow ←
    if fromAbove < low then (· * (grid : Int)) <$> Arithmetic.ceilQuotient α low grid
    else pure fromAbove
  return min (max fromBelow low) (max low high)

/-- Keeps a table inside the bounds, aligned to the grid. -/
def Config.clamp (c : Config) (fieldCount : Nat) (p : Point α) :
    Except ArithmeticFault (Point Int) := do
  let low := c.bounds.anchor
  let high := c.farLimit fieldCount
  let grid := c.layout.gridSize
  return ⟨← clampBetween grid low.x high.x p.x, ← clampBetween grid low.y high.y p.y⟩

/-- The nearest grid point of a position that is moved, with no negative coordinate. -/
def snap (grid : Nat) (p delta : Point α) : Except ArithmeticFault (Point Int) := do
  let x ← toGrid grid (← Arithmetic.add p.x delta.x)
  let y ← toGrid grid (← Arithmetic.add p.y delta.y)
  return ⟨max 0 x, max 0 y⟩

end SchemaDiagram
