/-
# Diagrams

A diagram is schema text laid out: tables with positions, relationships, and the connectors of
those that can be drawn.

* `Drawing` : all that is computed on the way, from which the diagram and its log are read;
* `Drawing.make` : the drawing of a text with some positions known;
* `Diagram.positions`, `Diagram.dangling` : what is kept for the next time, and what is not drawn.
-/
import SchemaDiagram.Connector.Route
import SchemaDiagram.Placement.Layout
import SchemaDiagram.Schema.Document

namespace SchemaDiagram

variable {α : Type}

/-- A schema that is laid out. -/
structure Diagram (α : Type) where
  tables : Registry (Table α)
  relationships : List Relationship
  connectors : List (Connector α)
  issues : List Issue
deriving DecidableEq

namespace Diagram

/-- The positions of the tables. -/
def positions (d : Diagram α) : Registry (Point α) := d.tables.filterMap fun _ t => t.position

/-- The relationships that have no connector, because they name a missing table or field. -/
def dangling (d : Diagram α) : List Relationship :=
  let drawn := d.connectors.map Connector.relationship
  d.relationships.filter fun r => r ∉ drawn

end Diagram

/-- The document of a text, the layout of its tables and the routes of its relationships. -/
structure Drawing (α : Type) where
  document : Document
  layout : Layout α
  routes : List (Relationship × Route α)

/-- What is told about an issue. -/
def Issue.log (i : Issue) : LogEntry :=
  ⟨.warning, "Skipping schema fragment at line " ++ wholeText i.line ++ ": " ++ i.message⟩

namespace Drawing

variable [Arithmetic α]

/-- The drawing of a text.  Recent positions win over saved ones, and tables in neither are
placed. -/
def make (c : Config) (text : List Char) (recent : Registry (Point α))
    (saved : Registry (Point α) LooseText) : Except DrawingFault (Drawing α) := do
  let document := Document.ofText text
  let tables := document.tables.map fun _ e => Table.unplaced e
  let layout ← layOut c tables (carryPositions tables recent saved)
  let routes ← document.relationships.mapM fun r => do
    return (r, ← routeIn c.metrics c.routing layout.tables r)
  return { document, layout, routes }

/-- The diagram of a drawing. -/
def diagram (d : Drawing α) : Diagram α where
  tables := d.layout.tables
  relationships := d.document.relationships
  connectors := d.routes.filterMap fun r => r.2.connector?
  issues := d.document.issues

/-- What is told about a drawing, in the order in which it was computed. -/
def log (d : Drawing α) : List LogEntry :=
  d.document.found.map Issue.log ++ d.layout.log ++ d.routes.flatMap fun r => r.2.log r.1

end Drawing

/-- The diagram of a text. -/
def Diagram.build [Arithmetic α] (c : Config) (text : List Char)
    (recent : Registry (Point α)) (saved : Registry (Point α) LooseText) :
    Except DrawingFault (Diagram α) := do
  return (← Drawing.make c text recent saved).diagram

end SchemaDiagram
