/-
# Field lines

A line in the body of a table is a field: its first word is the name, the second the type, and
the rest are remarks, among them `[primary key]`, `[nullable]`, `[not null]` and a reference
such as `[ref: > users.id]`.

* `Reference.ofSetting` : reads a `ref:` setting;
* `Field.ofLine?` : reads a line, which must hold a word.
-/
import SchemaDiagram.Schema.BracketSettings
import SchemaDiagram.Schema.Cursor
import SchemaDiagram.Schema.Entity

namespace SchemaDiagram

open Text

/-- The mark with which a setting says that it is a reference. -/
def referenceMark : List Char := ['r', 'e', 'f', ':']

/-- Reads the direction of a reference.  A fault names the whole setting. -/
def scanDirection (setting : List Char) {text : List Char} : Scan text Direction := do
  if ← Scan.accept ['>'] then return .toTarget
  else if ← Scan.accept ['<'] then return .fromTarget
  else throw (.unsupportedDirection setting)

/-- Reads the direction and the target of a reference, which must end the text. -/
def scanReference (setting : List Char) {text : List Char} : Scan text Reference := do
  Scan.skipBlanks
  let direction ← scanDirection setting
  Scan.skipBlanks
  let (table, field) ← Scan.readQualifiedName
  Scan.skipBlanks
  if (← get).atEnd then
    return ⟨direction, table, field⟩
  else
    throw (.textAfterReference setting)

/-- Reads a setting that starts with the reference mark. -/
def Reference.ofSetting (setting : List Char) : Except ParseFault Reference :=
  let text := setting.drop referenceMark.length
  match scanReference setting (Cursor.startAt text 0) with
  | .ok r _ => .ok r
  | .error fault _ => .error fault

/-- The first setting that is a well-formed reference, and the faults of the references
before it. -/
def firstReference : List (List Char) → Option Reference × List ParseFault
  | [] => (none, [])
  | setting :: rest =>
    if referenceMark.isPrefixOf setting then
      match Reference.ofSetting setting with
      | .ok r => (some r, [])
      | .error fault =>
        let (r, faults) := firstReference rest
        (r, fault :: faults)
    else firstReference rest

/-- The type of a field that has none written. -/
def unknownType : String := "unknown"

/-- A field from its words, and the issues that its references give. -/
def Field.ofWords (line : Nat) (name : List Char) (rest : List (List Char)) :
    Field × List Issue :=
  let remarks := unwords (rest.drop 1)
  let (reference, faults) := firstReference (bracketSettings remarks)
  let fieldName := String.ofList name
  ({ name := fieldName
     type := (rest.head?.map String.ofList).getD unknownType
     primary := contains remarks "[primary key]".toList
     required := !contains remarks "nullable".toList || contains remarks "not null".toList
     reference },
   faults.map fun fault => ⟨line, .field fieldName fault⟩)

/-- A field from a line of the given number; a line without a word has none. -/
def Field.ofLine? (line : Nat) (text : List Char) : Option (Field × List Issue) :=
  match words text with
  | [] => none
  | name :: rest => some (Field.ofWords line name rest)

end SchemaDiagram
