/-
# Moving tables by hand

A table that is dragged lands on the grid, and may land there only if it keeps its distance to
every other table.

* `landing?` : where a drag would end, and whether it may;
* `moveTable` : the tables after a drag, unchanged if it may not end there.
-/
import SchemaDiagram.Canvas.Grid
import SchemaDiagram.Registry

namespace SchemaDiagram

variable {α : Type} [Arithmetic α]

/-- Where a dragged table would land, and whether it may. -/
structure Landing where
  position : Point Int
  valid : Bool
deriving DecidableEq, Repr

/-- Whether a table of a registry would overlap another one at a new position.  Other tables are
those of another name; a name that is not entered overlaps nothing. -/
def wouldOverlap (c : Config) (tables : Registry (Table α)) (name : String) (p : Point α) :
    Except ArithmeticFault Bool :=
  match tables.get? name with
  | none => .ok false
  | some table =>
    let others := tables.values.filter fun t => t.name ≠ name
    Box.collides c.metrics (Arithmetic.ofInt (c.layout.dragSpacing : Nat))
      ⟨p, table.fields.length⟩ (boxesOf others)

/-- Where a table would land when it is dragged; a table without a position lands nowhere. -/
def landing? (c : Config) (tables : Registry (Table α)) (name : String) (delta : Point α) :
    Except ArithmeticFault (Option Landing) :=
  match (tables.get? name).bind Table.position with
  | none => .ok none
  | some p => do
    let position ← snap c.layout.gridSize p delta
    let occupied ← wouldOverlap c tables name (.ofInts position)
    return some ⟨position, !occupied⟩

/-- The tables after a landing: where it is valid, the named table has its position. -/
def applyLanding (tables : Registry (Table α)) (name : String) : Option Landing → Registry (Table α)
  | some ⟨position, true⟩ =>
    match tables.get? name with
    | some table => tables.insert name (table.moveTo (.ofInts position))
    | none => tables
  | _ => tables

/-- The tables after a drag. -/
def moveTable (c : Config) (tables : Registry (Table α)) (name : String) (delta : Point α) :
    Except ArithmeticFault (Registry (Table α)) := do
  return applyLanding tables name (← landing? c tables name delta)

end SchemaDiagram
