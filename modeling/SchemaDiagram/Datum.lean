/-
# Values of data files

A `Datum` is a value read from a data file, before anything is known about its meaning.

* `Datum` : the values;
* `Datum.literal` : how a value is shown in a message.
-/
import SchemaDiagram.Datum.Calendar
import SchemaDiagram.Registry
import SchemaDiagram.Text.Quoted

namespace SchemaDiagram

/-- A value of a data file.  The entries of a `dict` are in order of first entry. -/
inductive Datum where
  | null
  | bool (b : Bool)
  | int (n : Int)
  | real (x : Binary64)
  | text (t : LooseText)
  | moment (m : Moment)
  | list (items : List Datum)
  | dict (entries : List (LooseText × Datum))

namespace Datum

/-- A string as a value. -/
def ofString (s : String) : Datum := .text s

/-- The value of a name in a `dict`; other values hold none. -/
def field? (d : Datum) (name : LooseText) : Option Datum :=
  match d with
  | .dict entries => entries.lookup name
  | _ => none

mutual

/-- How a value is shown in a message. -/
def literal : Datum → String
  | .null => "None"
  | .bool b => if b then "True" else "False"
  | .int n => wholeText n
  | .real x => x.text
  | .text t => Text.quoted t
  | .moment m => m.literal
  | .list items => "[" ++ String.intercalate ", " (itemLiterals items) ++ "]"
  | .dict entries => "\x7b" ++ String.intercalate ", " (entryLiterals entries) ++ "\x7d"

/-- The literals of the items of a list. -/
def itemLiterals : List Datum → List String
  | [] => []
  | d :: rest => d.literal :: itemLiterals rest

/-- The literals of the entries of a dictionary. -/
def entryLiterals : List (LooseText × Datum) → List String
  | [] => []
  | (name, d) :: rest => (Text.quoted name ++ ": " ++ d.literal) :: entryLiterals rest

end

end Datum

end SchemaDiagram
