/-
# Diagrams as data

The JSON form of a diagram: its tables with their boxes, the relationships, the connectors with
their paths, and the position map.
-/
import SchemaDiagram.Diagram
import SchemaDiagram.Diagram.Positions

namespace SchemaDiagram

/-- A reference as data. -/
def Reference.datum (r : Reference) : Datum := .dict [
  ("direction", .text (String.singleton r.direction.sign)), ("table", .text r.table),
  ("field", .text r.field)]

/-- The entry of a field's reference, where there is one. -/
def Field.referenceEntry (f : Field) : List (LooseText × Datum) :=
  f.reference.toList.map fun r => ("reference", r.datum)

/-- A field as data; the reference is left out where there is none. -/
def Field.datum (f : Field) : Datum := .dict (
  ("name", .text f.name) :: ("type", .text f.type) :: ("primary_key", .bool f.primary) ::
  ("nullable", .bool !f.required) :: f.referenceEntry)

/-- A relationship as data. -/
def Relationship.datum (r : Relationship) : Datum := .dict [
  ("from_table", .text r.fromTable), ("from_field", .text r.fromField),
  ("to_table", .text r.toTable), ("to_field", .text r.toField),
  ("type", .text r.cardinality.text)]

/-- A table with a position as data. -/
def Table.datum? (m : Metrics) (t : Table Quantity) : Option Datum :=
  t.position.map fun p => .dict [
    ("name", .text t.name), ("position", p.datum), ("width", .int m.width),
    ("height", .int (m.tableHeight t.fields.length)), ("fields", .list (t.fields.map Field.datum))]

/-- A marker as data. -/
def Marker.datum (m : Marker Quantity) : Datum := .dict [
  ("x", m.anchor.x.datum), ("y", m.anchor.y.datum), ("rotation", .int m.rotation),
  ("kind", .text m.kind.text)]

/-- A connector as data. -/
def Connector.datum (c : Connector Quantity) : Except ArithmeticFault Datum := do
  return .dict [
    ("relationship", c.relationship.datum), ("topology", .text c.topology.text),
    ("path", .text (← c.pathText)), ("points", .list (c.points.map Point.datum)),
    ("start", c.start.datum), ("end", c.finish.datum)]

/-- A diagram as data, under a name. -/
def Diagram.datum (d : Diagram Quantity) (name : String) (m : Metrics) :
    Except ArithmeticFault Datum := do
  return .dict [
    ("name", .text name),
    ("tables", .list (d.tables.values.filterMap (Table.datum? m))),
    ("relationships", .list (d.relationships.map Relationship.datum)),
    ("connectors", .list (← d.connectors.mapM Connector.datum)),
    ("positions", positionsDatum d.positions)]

end SchemaDiagram
