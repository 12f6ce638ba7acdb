/-
# Carrying out requests

Each command reads its files, computes, and shows the result.  A file that is missing, has the
wrong kind of name or cannot be read stops the command with a notice.

* `Request.run` : what a request does;
* `Request.outcome`, `Request.exitCode` : what is left of a request that has run.
-/
import SchemaDiagram.Command.Request
import SchemaDiagram.Command.Transcript
import SchemaDiagram.Config.Settings
import SchemaDiagram.Diagram.Export
import SchemaDiagram.Page.Html
import SchemaDiagram.Toml.Reader

namespace SchemaDiagram

open Telling

/-! ## Files -/

/-- The contents of a file, which must exist and, where suffixes are given, have one of them. -/
def readFile (files : Files) (l : Location) (suffixes : List String) : Telling (List Char) :=
  match files l with
  | none => refuse ("File does not exist: " ++ l.text)
  | some content =>
    if suffixes.isEmpty || suffixes.contains l.suffix then pure content
    else refuse ("File has invalid extension, expected one of: " ++ String.intercalate ", " suffixes)

/-- The suffixes of database files. -/
def databaseSuffixes : List String := [".db", ".sqlite", ".sqlite3"]

/-- The configuration of a file, or the default one. -/
def readConfig (files : Files) : Option Location → Telling Config
  | none => pure Config.default
  | some l => do
    let content ← readFile files l [".toml"]
    match Registry.ofToml? content with
    | none => refuse "Invalid config file"
    | some data =>
      match Config.ofRegistry data with
      | .ok c => pure c
      | .error fault => refuse fault.message.text

/-- The position map of a file, or an empty one. -/
def readPositions (files : Files) :
    Option Location → Telling (Registry (Point Quantity) LooseText)
  | none => pure .empty
  | some l => do
    let content ← readFile files l [".json"]
    match loadPositions (universalNewlines content) with
    | .ok positions => pure positions
    | .error fault => refuse fault.message

/-- The diagram of a schema file. -/
def readDiagram (files : Files) (schema : Location) (positions : Option Location) (c : Config)
    (verbose : Bool) : Telling (Diagram Quantity) := do
  let content ← readFile files schema []
  let saved ← readPositions files positions
  let drawing ← ofDrawing (Drawing.make c (universalNewlines content) .empty saved)
  log verbose drawing.log
  return drawing.diagram

/-! ## Tables -/

/-- A table of a diagram as a row: its name, its number of fields and its position. -/
def Table.row (t : Table Quantity) : Except ArithmeticFault (List String) := do
  let position ← match t.position with
    | some p => do pure ("(" ++ (← p.x.briefText) ++ ", " ++ (← p.y.briefText) ++ ")")
    | none => pure "-"
  return [t.name, wholeText t.fields.length, position]

/-- The tables of a diagram. -/
def Diagram.tableReport (d : Diagram Quantity) : Except ArithmeticFault TextTable := do
  return ⟨"Tables", ["Table", "Fields", "Position"], ← d.tables.values.mapM Table.row⟩

/-- A relationship of a diagram as a row: its label, its kind and how it is drawn. -/
def Diagram.relationshipRow (d : Diagram Quantity) (r : Relationship) : List String :=
  let route := match d.connectors.find? fun c => c.relationship = r with
    | some c => c.topology.text
    | none => "[red]dangling[/]"
  [r.label, r.cardinality.text, route]

/-- The relationships of a diagram. -/
def Diagram.relationshipReport (d : Diagram Quantity) : TextTable :=
  ⟨"Relationships", ["Relationship", "Type", "Route"], d.relationships.map d.relationshipRow⟩

/-- The issues of a diagram. -/
def Diagram.issueReport (d : Diagram Quantity) : TextTable :=
  ⟨"Skipped fragments", ["Line", "Problem"], d.issues.map fun i => [wholeText i.line, i.message]⟩

/-! ## Commands -/

/-- The title of a page or document: the one given unless it is empty, else the name of the
file. -/
def titleOf (schema : Location) : Option String → String
  | some title => if title.isEmpty then schema.stem else title
  | none => schema.stem

/-- Shows a diagram in a format; an unknown format shows nothing. -/
def showDiagram (d : Diagram Quantity) (c : Config) (format title : String) : Telling Unit :=
  match format with
  | "html" => do write (String.ofList (← ofArithmetic (d.html c title)))
  | "json" => do write (← ofDigits (Json.indented (← ofArithmetic (d.datum title c.metrics))))
  | "table" => do
    showTable (← ofArithmetic d.tableReport)
    showTable d.relationshipReport
  | _ => pure ()

/-- Draws a schema file. -/
def runRender (files : Files) (schema : Location) (format : String)
    (positions config : Option Location) (title : Option String) (verbose : Bool) :
    Telling Unit := do
  let c ← readConfig files config
  info ("Schema: " ++ schema.text)
  info ("Output format: " ++ format)
  let d ← readDiagram files schema positions c verbose
  showDiagram d c format (titleOf schema title)
  success ("Rendered " ++ wholeText d.tables.size ++ " tables and " ++
    wholeText d.connectors.length ++ " connectors")

/-- Writes the position map of a schema file. -/
def runPositions (files : Files) (schema : Location) (saved config : Option Location)
    (verbose : Bool) : Telling Unit := do
  let c ← readConfig files config
  let d ← readDiagram files schema saved c verbose
  write (← ofDigits (dumpPositions d.positions))

/-- What is said of a schema file in which nothing is wrong. -/
def cleanText (schema : Location) : String := schema.text ++ " is clean"

/-- Reports the issues and the dangling relationships of a diagram, and stops if there are any. -/
def reportProblems (d : Diagram Quantity) : Telling Unit := do
  if !d.issues.isEmpty then showTable d.issueReport
  d.dangling.forM fun r => error ("Dangling relationship " ++ r.label)
  if !d.issues.isEmpty || !d.dangling.isEmpty then throw .refused

/-- Checks a schema file for issues and dangling relationships. -/
def runCheck (files : Files) (schema : Location) (verbose : Bool) : Telling Unit := do
  let d ← readDiagram files schema none Config.default verbose
  reportProblems d
  success (cleanText schema)

/-- Writes the schema text of a database file.  The description of the database is given with it;
without one an empty file is an empty database, and no other file is one. -/
def runReflect (files : Files) (description : Option (List DatabaseTable)) (database : Location) :
    Telling Unit := do
  let content ← readFile files database databaseSuffixes
  info ("Source database: " ++ database.text)
  let tables ← match description with
    | some tables => pure tables
    | none => if content.isEmpty then pure [] else refuse "Failed to read database"
  match schemaText tables with
  | .ok text => write text
  | .error fault => throw (.foreignKey fault)
  success "Schema generation completed successfully"

namespace Request

/-- Carries out a request. -/
def run (files : Files) (description : Option (List DatabaseTable)) : Request → Telling Unit
  | .render schema format saved config title verbose =>
    runRender files schema format saved config title verbose
  | .positions schema saved config verbose => runPositions files schema saved config verbose
  | .check schema verbose => runCheck files schema verbose
  | .reflect database => runReflect files description database

/-- The exit code when the arguments fit no request. -/
def misuseCode : Nat := 2

/-- The exit code and the transcript of a request, or the fault that cut it short. -/
def outcome (console : Console) (files : Files) (description : Option (List DatabaseTable))
    (r : Request) : Except Halt (Nat × Transcript) :=
  match r.run files description console .empty with
  | .ok _ t => .ok (0, t)
  | .error .refused t => .ok (1, t)
  | .error halt _ => .error halt

/-- The exit code of a request.  A request that is cut short has failed. -/
def exitCode (console : Console) (files : Files) (description : Option (List DatabaseTable))
    (r : Request) : Nat :=
  match r.outcome console files description with
  | .ok (code, _) => code
  | .error _ => 1

end Request

end SchemaDiagram
