/-
# Paths with rounded corners

A connector is drawn as a path: a start, straight lines, and a curve at each rounded corner.

* `PathCommand` : the commands of a path;
* `smooth` : a polyline as commands, its right-angled corners cut back by a radius;
* `pathText` : the text of a path in a drawing.
-/
import SchemaDiagram.Canvas.Box

namespace SchemaDiagram

/-- A command of a path. -/
inductive PathCommand (α : Type) where
  | moveTo (p : Point α)
  | lineTo (p : Point α)
  | quadTo (control p : Point α)
deriving DecidableEq, Repr

namespace PathCommand

variable {α : Type}

/-- The letter of a command. -/
def letter : PathCommand α → Char
  | .moveTo _ => 'M'
  | .lineTo _ => 'L'
  | .quadTo _ _ => 'Q'

/-- The points of a command, a control point before the point where the command ends. -/
def points : PathCommand α → List (Point α)
  | .moveTo p => [p]
  | .lineTo p => [p]
  | .quadTo control p => [control, p]

/-- The coordinates of a command in the order in which they are written. -/
def coordinates (c : PathCommand α) : List α := c.points.flatMap fun p => [p.x, p.y]

/-- The point where a command ends. -/
def endPoint : PathCommand α → Point α
  | .moveTo p => p
  | .lineTo p => p
  | .quadTo _ p => p

end PathCommand

/-! ## Rounding corners -/

/-- How far a segment runs in each direction. -/
structure Run (α : Type) where
  across : α
  down : α

variable {α : Type} [Arithmetic α]

/-- The run between two points. -/
def Run.between (p q : Point α) : Except ArithmeticFault (Run α) := do
  return ⟨← Arithmetic.distance p.x q.x, ← Arithmetic.distance p.y q.y⟩

/-- Whether a run is more across than down. -/
def Run.isHorizontal (r : Run α) : Bool := Arithmetic.lt r.down r.across

/-- Whether a run is more down than across. -/
def Run.isVertical (r : Run α) : Bool := Arithmetic.lt r.across r.down

/-- The radius against the direction in which a coordinate runs. -/
def backBy (radius start corner : α) : α :=
  if Arithmetic.lt start corner then Arithmetic.neg radius else radius

/-- The radius in the direction in which a coordinate runs on. -/
def onBy (radius corner after : α) : α :=
  if Arithmetic.lt corner after then radius else Arithmetic.neg radius

/-- The commands from a point to a corner and around it.  The corner is rounded when it joins a
horizontal and a vertical run. -/
def turnCorner (radius : α) (start corner after : Point α) :
    Except ArithmeticFault (List (PathCommand α)) := do
  let enters ← Run.between start corner
  let leaves ← Run.between corner after
  if enters.isHorizontal && leaves.isVertical then
    let cut ← Arithmetic.add corner.x (backBy radius start.x corner.x)
    let turned ← Arithmetic.add corner.y (onBy radius corner.y after.y)
    return [.lineTo ⟨cut, corner.y⟩, .quadTo corner ⟨corner.x, turned⟩]
  else if enters.isVertical && leaves.isHorizontal then
    let cut ← Arithmetic.add corner.y (backBy radius start.y corner.y)
    let turned ← Arithmetic.add corner.x (onBy radius corner.x after.x)
    return [.lineTo ⟨corner.x, cut⟩, .quadTo corner ⟨turned, corner.y⟩]
  else return [.lineTo corner]

/-- The commands from a point through further ones to the last. -/
def smoothFrom (radius : α) (start : Point α) :
    List (Point α) → Except ArithmeticFault (List (PathCommand α))
  | [] => .ok []
  | [last] => .ok [.lineTo last]
  | corner :: after :: rest => do
    let commands ← turnCorner radius start corner after
    return commands ++ (← smoothFrom radius corner (after :: rest))

/-- A polyline as path commands with rounded corners.  Fewer than two points have no path. -/
def smooth (radius : α) : List (Point α) → Except ArithmeticFault (List (PathCommand α))
  | start :: next :: rest => do return .moveTo start :: (← smoothFrom radius start (next :: rest))
  | _ => .ok []

/-! ## Text -/

/-- The words of a command: its letter and its coordinates with six significant digits. -/
def PathCommand.words (c : PathCommand Quantity) : Except ArithmeticFault (List String) := do
  return String.singleton c.letter :: (← c.coordinates.mapM Quantity.briefText)

/-- The text of a path. -/
def pathText (commands : List (PathCommand Quantity)) : Except ArithmeticFault String := do
  return String.intercalate " " ((← commands.mapM PathCommand.words).flatten)

end SchemaDiagram
