/-
# Locations of files

A location is a path in normal form: no empty parts and no parts `.`, except that the current
directory itself is `.`.

* `Location.ofText` : the location of a path;
* `Location.stem`, `Location.suffix` : the parts of its last name before and from its last point.
-/

namespace SchemaDiagram

/-- A path in normal form. -/
structure Location where
  text : String
deriving DecidableEq, Repr

/-- What can be read: the contents of the files. -/
abbrev Files := Location → Option (List Char)

namespace Location

/-- The root at the start of a path; exactly two slashes are a root of their own. -/
def rootOf : List Char → List Char
  | '/' :: '/' :: '/' :: _ => ['/']
  | '/' :: '/' :: _ => ['/', '/']
  | '/' :: _ => ['/']
  | _ => []

/-- The parts of a path that name something. -/
def partsOf (path : List Char) : List (List Char) :=
  (path.splitOn '/').filter fun part => !part.isEmpty && part != ['.']

/-- The location of a path. -/
def ofText (path : String) : Location :=
  match rootOf path.toList ++ List.intercalate ['/'] (partsOf path.toList) with
  | [] => ⟨"."⟩
  | normal => ⟨String.ofList normal⟩

/-- The last name of a location. -/
def name (l : Location) : List Char := (partsOf l.text.toList).getLast?.getD []

/-- The place of the last point in a name that has characters before and after it. -/
def pointPlace? (name : List Char) : Option Nat :=
  let after := (name.reverse.takeWhile (· ≠ '.')).length
  let place := name.length - 1 - after
  if after = 0 ∨ name.length ≤ after ∨ place = 0 then none else some place

/-- The last name without its suffix. -/
def stem (l : Location) : String :=
  String.ofList (match pointPlace? l.name with
    | some place => l.name.take place
    | none => l.name)

/-- The last name from its last point on, in lower case. -/
def suffix (l : Location) : String :=
  String.ofList (match pointPlace? l.name with
    | some place => (l.name.drop place).map Char.toLower
    | none => [])

end Location

/-- Text as it is read from a file: every kind of line end becomes a newline. -/
def universalNewlines : List Char → List Char
  | '\r' :: '\n' :: rest => '\n' :: universalNewlines rest
  | '\r' :: rest => '\n' :: universalNewlines rest
  | c :: rest => c :: universalNewlines rest
  | [] => []

end SchemaDiagram
