/-
# Laying out tables

Tables whose position is known keep it.  The others are placed one at a time in source order, each
beside all known tables and all tables placed before it.

* `carryPositions` : the known position of each table, a recent one before a saved one;
* `layOut` : a position for every table, with the placements that were made.
-/
import SchemaDiagram.Canvas.Drag
import SchemaDiagram.Placement.Allocate

namespace SchemaDiagram

variable {α β : Type}

/-- The known position of each entered name: the recent one if there is one, else the saved one. -/
def carryPositions (tables : Registry β) (recent : Registry (Point α))
    (saved : Registry (Point α) LooseText) : Registry (Point α) :=
  tables.filterMap fun name _ => (recent.get? name).or (saved.get? name)

/-- Tables that all have their position, and how those without a known one were placed. -/
structure Layout (α : Type) where
  tables : Registry (Table α)
  placements : List (String × Placement)

/-- The tables whose position is known: it is given, or they have one. -/
def knownTables (tables : Registry (Table α)) (positions : Registry (Point α)) :
    Registry (Table α) :=
  tables.filterMap fun name t =>
    match positions.get? name with
    | some p => some (t.moveTo p)
    | none => if t.position.isSome then some t else none

variable [Arithmetic α]

/-- Places a table beside those that have their place, unless it is one of them. -/
def placeNext (c : Config) (done : Layout α) (entry : String × Table α) :
    Except DrawingFault (Layout α) := do
  let (name, table) := entry
  if done.tables.contains name then return done
  else
    let placement ← c.allocate table.fields.length (boxesOf done.tables.values)
    return {
      tables := done.tables.insert name (table.moveTo (.ofInts placement.position))
      placements := done.placements ++ [(name, placement)] }

/-- Gives every table a position. -/
def layOut (c : Config) (tables : Registry (Table α)) (positions : Registry (Point α)) :
    Except DrawingFault (Layout α) := do
  let done ← tables.entries.foldlM (placeNext c) ⟨knownTables tables positions, []⟩
  return { done with tables := tables.filterMap fun name _ => done.tables.get? name }

/-- What is told about a layout. -/
def Layout.log (l : Layout α) : List LogEntry := l.placements.flatMap fun p => p.2.log

end SchemaDiagram
