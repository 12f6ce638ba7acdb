/-
# Entities and relationships

A schema describes tables with typed fields, called entities here, and relationships between
their fields.  A field may carry a reference to a field of another table, which implies a
relationship.

* `Entity`, `Field`, `Reference` : what a table block says;
* `Relationship`, `Cardinality` : an edge between two fields;
* `Entity.inlineRelationships` : the edges that the references of an entity imply.
-/

namespace SchemaDiagram

/-- Which way the reference of a field points. -/
inductive Direction where
  /-- The field refers to the target. -/
  | toTarget
  /-- The target refers to the field. -/
  | fromTarget
deriving DecidableEq, Repr

/-- The sign of a direction in schema text. -/
def Direction.sign : Direction → Char
  | .toTarget => '>'
  | .fromTarget => '<'

/-- A reference of a field to a field of a table. -/
structure Reference where
  direction : Direction
  table : String
  field : String
deriving DecidableEq, Repr

/-- A named and typed column of one table. -/
structure Field where
  name : String
  type : String
  primary : Bool
  required : Bool
  reference : Option Reference
deriving DecidableEq, Repr

/-- A named list of fields. -/
structure Entity where
  name : String
  fields : List Field
deriving DecidableEq, Repr

/-- How many rows may stand at either end of a relationship, the `from` end first. -/
inductive Cardinality where
  | oneToMany
  | manyToOne
  | oneToOne
  | manyToMany
deriving DecidableEq, Repr

/-- The name of a cardinality in a drawing. -/
def Cardinality.text : Cardinality → String
  | .oneToMany => "one-to-many"
  | .manyToOne => "many-to-one"
  | .oneToOne => "one-to-one"
  | .manyToMany => "many-to-many"

/-- The cardinality read from the other end. -/
def Cardinality.flip : Cardinality → Cardinality
  | .oneToMany => .manyToOne
  | .manyToOne => .oneToMany
  | .oneToOne => .oneToOne
  | .manyToMany => .manyToMany

/-- A directed edge between two fields. -/
structure Relationship where
  fromTable : String
  fromField : String
  toTable : String
  toField : String
  cardinality : Cardinality
deriving DecidableEq, Repr

/-- The same edge, told from its other end. -/
def Relationship.flip (r : Relationship) : Relationship :=
  ⟨r.toTable, r.toField, r.fromTable, r.fromField, r.cardinality.flip⟩

/-- A relationship as an arrow between qualified names. -/
def Relationship.label (r : Relationship) : String :=
  r.fromTable ++ "." ++ r.fromField ++ " -> " ++ r.toTable ++ "." ++ r.toField

/-- The relationship that a reference of a field implies.  The referring side stands first:
one field refers to many targets, or many targets refer to one field. -/
def Reference.relationship (table field : String) (r : Reference) : Relationship :=
  match r.direction with
  | .toTarget => ⟨table, field, r.table, r.field, .oneToMany⟩
  | .fromTarget => ⟨r.table, r.field, table, field, .manyToOne⟩

/-- The relationships that the references of an entity's fields imply, in field order. -/
def Entity.inlineRelationships (e : Entity) : List Relationship :=
  e.fields.filterMap fun f => f.reference.map (Reference.relationship e.name f.name)

/-- The place of the first field of the given name. -/
def fieldIndex? (fields : List Field) (name : String) : Option Nat :=
  fields.findIdx? fun f => f.name = name

end SchemaDiagram
