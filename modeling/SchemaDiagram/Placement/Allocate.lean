/-
# Finding room for a table

A new table goes to the first clear position of a series of candidates: a slot in rows of a fixed
number of columns, a spiral around that slot, the places right of and below all other tables, and
a number of random points.  Each candidate is clamped to the bounds first.  If none is clear, the
table goes to a last resort that may overlap others.

* `Placement` : a position with the stage at which it was found;
* `Config.slot`, `Config.spiralProbe`, `Config.besidePoint`, `Config.belowPoint`,
  `Config.randomProbe` : the candidates;
* `Config.allocate` : the placement of a table beside those that have their place.
-/
import SchemaDiagram.Canvas.Fault
import SchemaDiagram.Canvas.Grid
import SchemaDiagram.Log
import SchemaDiagram.Number.Angle
import SchemaDiagram.Placement.Twister

namespace SchemaDiagram

/-! ## Placements -/

/-- How a position was found. -/
inductive Stage where
  /-- The anchor of the canvas, for the first table. -/
  | anchor
  | grid
  | spiral
  | right
  | below
  | random
  /-- A position that may overlap other tables. -/
  | lastResort
deriving DecidableEq, Repr

/-- The name of a stage. -/
def Stage.name : Stage → String
  | .anchor => "anchor"
  | .grid => "grid"
  | .spiral => "spiral"
  | .right => "right"
  | .below => "below"
  | .random => "random"
  | .lastResort => "last resort"

/-- A position for a table, the stage at which it was found, and how many tables had their place
before. -/
structure Placement where
  position : Point Int
  stage : Stage
  placedBefore : Nat
deriving DecidableEq, Repr

/-- A point as it is shown in a message. -/
def Point.shown (p : Point Int) : String :=
  "Point(x=" ++ wholeText p.x ++ ", y=" ++ wholeText p.y ++ ")"

/-- What is told about a placement; the first table's is not worth telling. -/
def Placement.log (p : Placement) : List LogEntry :=
  match p.stage with
  | .anchor => []
  | .lastResort => [⟨.warning, "No free canvas slot for table " ++ wholeText p.placedBefore ++
      ", placing at " ++ p.position.shown ++ "; it may overlap"⟩]
  | stage => [⟨.debug, "Placed table " ++ wholeText p.placedBefore ++ " at " ++ p.position.shown ++
      " (" ++ stage.name ++ ")"⟩]

/-! ## Candidates -/

namespace Config

/-- The distance between the columns of slots. -/
def columnPitch (c : Config) : Nat := c.metrics.width + 2 * c.layout.tableSpacing

/-- The distance between the rows of slots, for tables of the given number of fields. -/
def rowPitch (c : Config) (fieldCount : Nat) : Nat :=
  c.metrics.tableHeight fieldCount + 2 * c.layout.tableSpacing

/-- The slot of the `index`-th table, row by row. -/
def slot (c : Config) (fieldCount index : Nat) : Point Int :=
  ⟨c.bounds.anchor.x + (index % c.layout.columns : Nat) * c.columnPitch,
    c.bounds.anchor.y + (index / c.layout.columns : Nat) * c.rowPitch fieldCount⟩

/-- How many directions one turn of the spiral has. -/
def spiralDirections (c : Config) : Nat := 359 / c.layout.spiralStepDegrees + 1

/-- How many points the spiral has. -/
def spiralLength (c : Config) : Nat :=
  min c.layout.maxSpiralAttempts (c.layout.spiralRadii * c.spiralDirections)

variable {α : Type} [Arithmetic α]

/-- A coordinate at some radius from a whole centre, in a direction given by a sine or cosine. -/
def offsetBy (center : Int) (radius : Nat) (direction : Binary64) : Except ArithmeticFault α := do
  let shift ← Arithmetic.mul (Arithmetic.ofInt (radius : Nat)) (Arithmetic.ofReal direction)
  Arithmetic.add (Arithmetic.ofInt center) shift

/-- The `k`-th point of the spiral around a centre: all directions of one radius, then those of
the next. -/
def spiralProbe (c : Config) (fieldCount : Nat) (center : Point Int) (k : Nat) :
    Except ArithmeticFault (Point α) := do
  let radius := k / c.spiralDirections + 1
  let angle := k % c.spiralDirections * c.layout.spiralStepDegrees
  return ⟨← offsetBy center.x (radius * c.columnPitch) (Angle.cosine angle),
    ← offsetBy center.y (radius * c.rowPitch fieldCount) (Angle.sine angle)⟩

/-- The lower right corner of the anchor and all placed tables. -/
def usedCorner (c : Config) (placed : List (Box α)) : Except ArithmeticFault (Point α) :=
  farCorner c.metrics (.ofInts c.bounds.anchor) placed

/-- The spacing between tables as a coordinate. -/
def tableSpacing (c : Config) : α := Arithmetic.ofInt (c.layout.tableSpacing : Nat)

/-- The point right of all placed tables, level with the anchor. -/
def besidePoint (c : Config) (placed : List (Box α)) : Except ArithmeticFault (Point α) := do
  let corner ← c.usedCorner placed
  return ⟨← Arithmetic.add corner.x c.tableSpacing, Arithmetic.ofInt c.bounds.anchor.y⟩

/-- The point below all placed tables, straight under the anchor. -/
def belowPoint (c : Config) (placed : List (Box α)) : Except ArithmeticFault (Point α) := do
  let corner ← c.usedCorner placed
  return ⟨Arithmetic.ofInt c.bounds.anchor.x, ← Arithmetic.add corner.y c.tableSpacing⟩

/-- The size of the region over which random points are spread; it may be negative. -/
def randomSpan (c : Config) (fieldCount : Nat) : Point Int :=
  ⟨c.bounds.width - 2 * c.bounds.padding - c.metrics.width,
    c.bounds.height - 2 * c.bounds.padding - c.metrics.tableHeight fieldCount⟩

/-- A coordinate at a fraction of a span from the anchor. -/
def fractionOf (start span : Int) (fraction : Binary64) : Except ArithmeticFault α := do
  let shift ← Arithmetic.mul (Arithmetic.ofReal fraction) (Arithmetic.ofInt span)
  Arithmetic.add (Arithmetic.ofInt start) shift

/-- The grid point nearest to the point at two fractions of the random region. -/
def randomProbe (α : Type) [Arithmetic α] (c : Config) (fieldCount : Nat) (u v : Binary64) :
    Except ArithmeticFault (Point Int) := do
  let span := c.randomSpan fieldCount
  let x : α ← fractionOf c.bounds.anchor.x span.x u
  let y : α ← fractionOf c.bounds.anchor.y span.y v
  return ⟨← toGrid c.layout.gridSize x, ← toGrid c.layout.gridSize y⟩

/-- The position of the last resort, which moves with the number of placed tables. -/
def lastResortPoint (c : Config) (count : Nat) : Point Int :=
  let offset : Int := count * c.layout.fallbackStep
  ⟨c.bounds.anchor.x + offset, c.bounds.anchor.y + offset⟩

/-! ## The search -/

/-- The placement at a candidate, if the candidate is clear once it is clamped. -/
def tryAt (c : Config) (fieldCount : Nat) (placed : List (Box α)) (stage : Stage) (p : Point α) :
    Except DrawingFault (Option Placement) := do
  let position ← c.clamp fieldCount p
  let taken ← Box.collides c.metrics c.tableSpacing ⟨.ofInts position, fieldCount⟩ placed
  return if taken then none else some ⟨position, stage, placed.length⟩

/-- Goes on with a second search where the first finds nothing. -/
def orElseSearch (first : Except DrawingFault (Option Placement))
    (second : Unit → Except DrawingFault (Option Placement)) :
    Except DrawingFault (Option Placement) :=
  first.bind fun
    | some p => .ok (some p)
    | none => second ()

/-- Tries the points of the spiral from the `k`-th on, `count` of them. -/
def trySpiral (c : Config) (fieldCount : Nat) (placed : List (Box α)) (center : Point Int) :
    (count k : Nat) → Except DrawingFault (Option Placement)
  | 0, _ => .ok none
  | count + 1, k =>
    orElseSearch (do tryAt c fieldCount placed .spiral (← c.spiralProbe fieldCount center k))
      fun _ => trySpiral c fieldCount placed center count (k + 1)

/-- The greatest number of spiral points that can be asked for. -/
def maxProbes : Nat := 0x7FFFFFFFFFFFFFFF

/-- Tries the whole spiral. -/
def searchSpiral (c : Config) (fieldCount : Nat) (placed : List (Box α)) :
    Except DrawingFault (Option Placement) :=
  if maxProbes < c.layout.maxSpiralAttempts then .error .tooManyProbes
  else trySpiral c fieldCount placed (c.slot fieldCount placed.length) c.spiralLength 0

/-- Tries `count` random points. -/
def tryRandom (c : Config) (fieldCount : Nat) (placed : List (Box α)) :
    (count : Nat) → Twister → Except DrawingFault (Option Placement)
  | 0, _ => .ok none
  | count + 1, rng =>
    let (u, rng) := rng.fraction
    let (v, rng) := rng.fraction
    orElseSearch (do tryAt c fieldCount placed .random (.ofInts (← randomProbe α c fieldCount u v)))
      fun _ => tryRandom c fieldCount placed count rng

/-- Tries the candidates of all stages in order. -/
def search (c : Config) (fieldCount : Nat) (placed : List (Box α)) :
    Except DrawingFault (Option Placement) :=
  orElseSearch (tryAt c fieldCount placed .grid (.ofInts (c.slot fieldCount placed.length))) fun _ =>
  orElseSearch (searchSpiral c fieldCount placed) fun _ =>
  orElseSearch (do tryAt c fieldCount placed .right (← c.besidePoint placed)) fun _ =>
  orElseSearch (do tryAt c fieldCount placed .below (← c.belowPoint placed)) fun _ =>
  tryRandom c fieldCount placed c.layout.randomAttempts (Twister.ofNat placed.length)

/-- The placement of a table with the given number of fields beside the placed boxes. -/
def allocate (c : Config) (fieldCount : Nat) (placed : List (Box α)) :
    Except DrawingFault Placement := do
  if placed.isEmpty then
    let p : Point α := .ofInts c.bounds.anchor
    return ⟨← c.clamp fieldCount p, .anchor, 0⟩
  else
    match ← c.search fieldCount placed with
    | some p => return p
    | none =>
      let p : Point α := .ofInts (c.lastResortPoint placed.length)
      return ⟨← c.clamp fieldCount p, .lastResort, placed.length⟩

end Config

end SchemaDiagram
