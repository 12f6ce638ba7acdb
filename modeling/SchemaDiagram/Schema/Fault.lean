/-
# What can be wrong in schema text

A `ParseFault` says why a fragment of schema text could not be read.  An `Issue` is a fragment
that was skipped for it, or a table that is defined again, with the line on which it begins.
-/
import SchemaDiagram.Text.Quoted

namespace SchemaDiagram

/-- Why a fragment could not be read.  The character found is missing at the end of the text. -/
inductive ParseFault where
  | expectedName (found : Option Char)
  | expected (literal : List Char) (found : Option Char)
  | missingClosing (terminator : List Char)
  | expectedOperator (found : Option Char)
  | unsupportedDirection (setting : List Char)
  | textAfterReference (setting : List Char)
deriving DecidableEq, Repr

/-- A character in quotes, or what stands for a missing one. -/
def quotedOr (missing : String) (found : Option Char) : String :=
  Text.quoted (match found with
    | some c => String.singleton c
    | none => missing)

/-- The wording of a fault. -/
def ParseFault.message : ParseFault → String
  | .expectedName found => "expected a name, found " ++ quotedOr "end of text" found
  | .expected literal found =>
    "expected " ++ Text.quoted (String.ofList literal) ++ ", found " ++ quotedOr "end of text" found
  | .missingClosing terminator => "missing closing " ++ Text.quoted (String.ofList terminator)
  | .expectedOperator found =>
    "expected one of <>, >, <, -, found " ++ quotedOr "end of line" found
  | .unsupportedDirection setting =>
    "unsupported reference direction in " ++ Text.quoted (String.ofList setting)
  | .textAfterReference setting =>
    "unexpected text after reference in " ++ Text.quoted (String.ofList setting)

/-- What an issue is about. -/
inductive IssueCause where
  | table (fault : ParseFault)
  | field (name : String) (fault : ParseFault)
  | reference (fault : ParseFault)
  | redefinition (name : String)
deriving DecidableEq, Repr

/-- A fragment of schema text to which attention is drawn. -/
structure Issue where
  line : Nat
  cause : IssueCause
deriving DecidableEq, Repr

/-- The wording of an issue. -/
def Issue.message (i : Issue) : String :=
  match i.cause with
  | .table fault => "table block: " ++ fault.message
  | .field name fault => "field " ++ Text.quoted name ++ ": " ++ fault.message
  | .reference fault => "reference: " ++ fault.message
  | .redefinition name => "table " ++ Text.quoted name ++ " replaces an earlier definition"

end SchemaDiagram
