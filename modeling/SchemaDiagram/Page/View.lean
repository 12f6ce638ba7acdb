/-
# What a page shows

The boxes, rows and connectors of a diagram with all coordinates worked out, before they are
written.

* `TableView`, `RowView` : a table box and its rows;
* `Remark` : what is said of an issue;
* `Page.ofDiagram` : what the page of a diagram shows;
* `viewport` : the size of the picture.
-/
import SchemaDiagram.Diagram

namespace SchemaDiagram

variable {α : Type}

/-- A row of a table box: its field, the height of its top and the height of its middle. -/
structure RowView (α : Type) where
  field : Field
  top : α
  baseline : α

/-- A table box with its rows. -/
structure TableView (α : Type) where
  name : String
  corner : Point α
  width : Nat
  height : Nat
  headerHeight : Nat
  fieldHeight : Nat
  rows : List (RowView α)

/-- What a page says of an issue: a line and any message. -/
structure Remark where
  line : Nat
  message : String
deriving DecidableEq, Repr

/-- What is said of an issue. -/
def Issue.remark (i : Issue) : Remark := ⟨i.line, i.message⟩

/-- What a page shows. -/
structure Page (α : Type) where
  title : String
  size : Point α
  tables : List (TableView α)
  connectors : List (Connector α)
  markerSize : Nat
  remarks : List Remark

variable [Arithmetic α]

/-- The row of the field at a place in a box that begins at the height `y`. -/
def RowView.ofField (m : Metrics) (y : α) (field : Field) (place : Nat) :
    Except ArithmeticFault (RowView α) := do
  let header ← Arithmetic.add y (ofSetting m.headerHeight)
  let top ← Arithmetic.add header (ofSetting (place * m.fieldHeight))
  return ⟨field, top, ← Arithmetic.add top (ofSetting m.fieldCenterOffset)⟩

/-- The box of a table at a position. -/
def TableView.ofTable (m : Metrics) (t : Table α) (p : Point α) :
    Except ArithmeticFault (TableView α) := do
  let rows ← t.fields.zipIdx.mapM fun (field, place) => RowView.ofField m p.y field place
  return {
    name := t.name, corner := p, width := m.width, height := m.tableHeight t.fields.length
    headerHeight := m.headerHeight, fieldHeight := m.fieldHeight, rows }

/-- The space that is kept around the outermost tables and detours. -/
def viewportMargin : Nat := 80

/-- The size of the picture of some tables. -/
def viewport (m : Metrics) (tables : List (Table α)) : Except ArithmeticFault (Point α) :=
  extent m (ofSetting viewportMargin) (boxesOf tables)

/-- What the page of a diagram shows. -/
def Page.ofDiagram (c : Config) (title : String) (d : Diagram α) :
    Except ArithmeticFault (Page α) := do
  let size ← viewport c.metrics d.tables.values
  let placed := d.tables.values.filterMap fun t => t.position.map fun p => (t, p)
  let tables ← placed.mapM fun (t, p) => TableView.ofTable c.metrics t p
  return {
    title, size, tables, connectors := d.connectors, markerSize := c.routing.markerSize
    remarks := d.issues.map Issue.remark }

end SchemaDiagram
