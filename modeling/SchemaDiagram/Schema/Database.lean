/-
# Schema text of a database

A database is described by its tables with their columns, primary keys and foreign keys.  Its
schema text has a block for each table and a reference line for each pair of columns that a
foreign key ties together.

* `DatabaseTable` : the description of a table;
* `schemaText` : the text of a database, unless a foreign key has an odd column.
-/
import SchemaDiagram.Text.Blank

namespace SchemaDiagram

open Text

/-- A column of a database table. -/
structure Column where
  name : String
  type : String
  nullable : Bool
deriving DecidableEq, Repr

/-- A foreign key: own columns, the table they refer to, and its columns. -/
structure ForeignKey where
  columns : List String
  table : String
  targets : List String
deriving DecidableEq, Repr

/-- A table of a database. -/
structure DatabaseTable where
  name : String
  columns : List Column
  primaryKey : List String
  foreignKeys : List ForeignKey
deriving DecidableEq, Repr

/-- Why a database has no schema text: a foreign key has fewer or more columns than it refers
to. -/
inductive ForeignKeyFault where
  | fewerTargets
  | moreTargets
deriving DecidableEq, Repr

/-- The wording of a fault. -/
def ForeignKeyFault.message : ForeignKeyFault → String
  | .fewerTargets => "zip() argument 2 is shorter than argument 1"
  | .moreTargets => "zip() argument 2 is longer than argument 1"

/-- The type of a column as one word: its words joined by underscores. -/
def typeWord (type : String) : String :=
  match words type.toList with
  | [] => "unknown"
  | ws => String.ofList (List.intercalate ['_'] ws)

/-- The line of a column.  A column of the primary key is always required. -/
def Column.line (primaryKey : List String) (c : Column) : String :=
  let primary := primaryKey.contains c.name
  let marks := (if primary then ["[primary key]"] else []) ++
    [if c.nullable && !primary then "[nullable]" else "[not null]"]
  String.intercalate " " ([c.name, typeWord c.type] ++ marks)

/-- The block of a table. -/
def DatabaseTable.block (t : DatabaseTable) : String :=
  String.intercalate "\n" <|
    ["Table " ++ t.name ++ " \x7b"] ++ (t.columns.map fun c => "  " ++ c.line t.primaryKey) ++
      ["\x7d"]

/-- The column pairs of a foreign key. -/
def ForeignKey.pairs (k : ForeignKey) : Except ForeignKeyFault (List (String × String)) :=
  if k.targets.length < k.columns.length then .error .fewerTargets
  else if k.columns.length < k.targets.length then .error .moreTargets
  else .ok (k.columns.zip k.targets)

/-- The reference lines of a foreign key of a table. -/
def ForeignKey.lines (table : String) (k : ForeignKey) : Except ForeignKeyFault (List String) := do
  return (← k.pairs).map fun (own, target) =>
    "Ref: " ++ table ++ "." ++ own ++ " > " ++ k.table ++ "." ++ target

/-- The reference lines of a database. -/
def referenceLines (tables : List DatabaseTable) : Except ForeignKeyFault (List String) := do
  let lines ← tables.mapM fun t => t.foreignKeys.mapM fun k => k.lines t.name
  return lines.flatten.flatten

/-- The schema text of a database: its blocks and then its reference lines, with empty lines
between. -/
def schemaText (tables : List DatabaseTable) : Except ForeignKeyFault String := do
  let references ← referenceLines tables
  let blocks := tables.map DatabaseTable.block
  let parts := if references.isEmpty then blocks else blocks ++ [String.intercalate "\n" references]
  return String.intercalate "\n\n" parts ++ "\n"

end SchemaDiagram
