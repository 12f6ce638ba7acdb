/-
# Routing connectors

A connector joins the rows of two fields with horizontal and vertical lines.  It runs between the
facing sides of the tables, or around the right of both when they share some horizontal stretch.

* `fieldAnchor` : the height of the middle of a field's row;
* `routeBetween` : the connector of a relationship between two tables;
* `routeIn` : the same among the tables of a drawing, or why there is none.
-/
import SchemaDiagram.Canvas.Fault
import SchemaDiagram.Connector.Path
import SchemaDiagram.Log
import SchemaDiagram.Registry

namespace SchemaDiagram

/-! ## Connectors -/

/-- How a connector travels between its two tables. -/
inductive Topology where
  | leftToRight
  | rightToLeft
  | detour
deriving DecidableEq, Repr

/-- The name of a topology in a drawing. -/
def Topology.text : Topology → String
  | .leftToRight => "left-to-right"
  | .rightToLeft => "right-to-left"
  | .detour => "detour"

/-- The topology of the same line drawn from its other end. -/
def Topology.flip : Topology → Topology
  | .leftToRight => .rightToLeft
  | .rightToLeft => .leftToRight
  | .detour => .detour

/-- What is drawn at an end: how many rows may stand there. -/
inductive MarkerKind where
  | tick
  | crowsFoot
  | tickCircle
deriving DecidableEq, Repr

/-- The name of a marker kind in a drawing. -/
def MarkerKind.text : MarkerKind → String
  | .tick => "tick"
  | .crowsFoot => "crows-foot"
  | .tickCircle => "tick-circle"

/-- The markers at the start and at the end of a relationship. -/
def Cardinality.markers : Cardinality → MarkerKind × MarkerKind
  | .oneToMany => (.tick, .crowsFoot)
  | .manyToOne => (.crowsFoot, .tick)
  | .oneToOne => (.tickCircle, .tickCircle)
  | .manyToMany => (.crowsFoot, .crowsFoot)

/-- A marker at one end of a connector.  Its rotation is in degrees: 0 faces right, 180 left. -/
structure Marker (α : Type) where
  anchor : Point α
  rotation : Nat
  kind : MarkerKind
deriving DecidableEq, Repr

/-- All that is needed to draw a relationship. -/
structure Connector (α : Type) where
  relationship : Relationship
  topology : Topology
  points : List (Point α)
  commands : List (PathCommand α)
  start : Marker α
  finish : Marker α
deriving DecidableEq, Repr

/-- The text of a connector's path. -/
def Connector.pathText (c : Connector Quantity) : Except ArithmeticFault String :=
  SchemaDiagram.pathText c.commands

/-! ## Lines -/

variable {α : Type} [Arithmetic α]

/-- A setting as a coordinate. -/
def ofSetting (n : Nat) : α := Arithmetic.ofInt n

/-- The height of the middle of the row at a place in a table whose corner is at the height `y`. -/
def rowCenter (m : Metrics) (y place : α) : Except ArithmeticFault α := do
  let body ← Arithmetic.add y (ofSetting m.headerHeight)
  let top ← Arithmetic.add body (← Arithmetic.mul place (ofSetting m.fieldHeight))
  Arithmetic.add top (ofSetting m.fieldCenterOffset)

/-- The height of the middle of a row of a table, which must have a position. -/
def fieldAnchor (m : Metrics) (t : Table α) (place : α) : Except DrawingFault α :=
  match t.position with
  | none => .error (.unplaced t.name)
  | some p => rowCenter m p.y place

/-- The horizontal course of a connector: where it leaves, turns and arrives, and the rotations of
its markers. -/
structure Course (α : Type) where
  topology : Topology
  leaves : α
  bend : α
  arrives : α
  rotations : Nat × Nat

/-- Half way between two coordinates. -/
def midway (a b : α) : Except ArithmeticFault α := do Arithmetic.half (← Arithmetic.add a b)

/-- The course between the boxes that begin at two coordinates. -/
def courseBetween (m : Metrics) (s : RoutingSettings) (fromX toX : α) :
    Except ArithmeticFault (Course α) := do
  let fromRight ← Arithmetic.add fromX m.boxWidth
  let toRight ← Arithmetic.add toX m.boxWidth
  let offset : α := ofSetting s.endpointOffset
  if Arithmetic.lt fromRight toX then
    let leaves ← Arithmetic.add fromRight offset
    let arrives ← Arithmetic.sub toX offset
    return ⟨.leftToRight, leaves, ← midway leaves arrives, arrives, (0, 180)⟩
  else if Arithmetic.lt toRight fromX then
    let leaves ← Arithmetic.sub fromX offset
    let arrives ← Arithmetic.add toRight offset
    return ⟨.rightToLeft, leaves, ← midway leaves arrives, arrives, (180, 0)⟩
  else
    let leaves ← Arithmetic.add fromRight offset
    let arrives ← Arithmetic.add toRight offset
    let bend ← Arithmetic.add (Arithmetic.larger fromRight toRight) (ofSetting s.detourPadding)
    return ⟨.detour, leaves, bend, arrives, (0, 0)⟩

/-- The connector of a relationship along a course between two heights. -/
def Course.connector (s : RoutingSettings) (r : Relationship) (c : Course α) (fromY toY : α) :
    Except ArithmeticFault (Connector α) := do
  let start : Point α := ⟨c.leaves, fromY⟩
  let finish : Point α := ⟨c.arrives, toY⟩
  let points := [start, ⟨c.bend, fromY⟩, ⟨c.bend, toY⟩, finish]
  let commands ← smooth (ofSetting s.curveRadius) points
  return {
    relationship := r
    topology := c.topology
    points
    commands
    start := ⟨start, c.rotations.1, r.cardinality.markers.1⟩
    finish := ⟨finish, c.rotations.2, r.cardinality.markers.2⟩ }

/-- Where a field of a table is drawn: the position of the table and the place of the first field
of that name. -/
def Table.fieldPlace? (t : Table α) (field : String) : Option (Point α × Nat) := do
  return (← t.position, ← fieldIndex? t.fields field)

/-- The connector of a relationship between two tables, if both fields are drawn. -/
def routeBetween (m : Metrics) (s : RoutingSettings) (r : Relationship) (source target : Table α) :
    Except ArithmeticFault (Option (Connector α)) :=
  match source.fieldPlace? r.fromField, target.fieldPlace? r.toField with
  | some (p, i), some (q, j) => do
    let fromY ← rowCenter m p.y (ofSetting i)
    let toY ← rowCenter m q.y (ofSetting j)
    let course ← courseBetween m s p.x q.x
    return some (← course.connector s r fromY toY)
  | _, _ => .ok none

/-! ## Among the tables of a drawing -/

/-- What becomes of a relationship. -/
inductive Route (α : Type) where
  | drawn (c : Connector α)
  | noTable
  | noField
deriving DecidableEq, Repr

/-- The connector of a route that is drawn. -/
def Route.connector? : Route α → Option (Connector α)
  | .drawn c => some c
  | _ => none

/-- Routes a relationship among the tables of a drawing. -/
def routeIn (m : Metrics) (s : RoutingSettings) (tables : Registry (Table α)) (r : Relationship) :
    Except ArithmeticFault (Route α) :=
  match tables.get? r.fromTable, tables.get? r.toTable with
  | some source, some target => do
    match ← routeBetween m s r source target with
    | some c => return .drawn c
    | none => return .noField
  | _, _ => .ok .noTable

/-- A relationship as it is shown in a message. -/
def Relationship.shown (r : Relationship) : String :=
  let constant := match r.cardinality with
    | .oneToMany => "ONE_TO_MANY"
    | .manyToOne => "MANY_TO_ONE"
    | .oneToOne => "ONE_TO_ONE"
    | .manyToMany => "MANY_TO_MANY"
  "Relationship(from_table=" ++ Text.quoted r.fromTable ++ ", from_field=" ++
    Text.quoted r.fromField ++ ", to_table=" ++ Text.quoted r.toTable ++ ", to_field=" ++
    Text.quoted r.toField ++ ", type=<RelationshipType." ++ constant ++ ": " ++
    Text.quoted r.cardinality.text ++ ">)"

/-- What is told about a route that is not drawn. -/
def Route.log (r : Relationship) : Route α → List LogEntry
  | .drawn _ => []
  | .noTable => [⟨.debug, "No connector for " ++ r.shown ++ ": table not found"⟩]
  | .noField => [⟨.debug, "No connector for " ++ r.shown ++ ": field not found or table unplaced"⟩]

end SchemaDiagram
