/-
# Markup and text

A page is put together from pieces: markup that is written as it is, and text in which every
character with a meaning in markup is replaced by an entity.

* `Piece.write` : the characters of a piece;
* `writeLines` : lines of pieces with newlines between them.
-/

namespace SchemaDiagram

/-- A piece of a page. -/
inductive Piece where
  | markup (s : String)
  | text (s : String)
deriving DecidableEq, Repr

namespace Piece

/-- A character as it stands in the text of a page. -/
def escapeChar (c : Char) : List Char :=
  if c = '&' then ['&', 'a', 'm', 'p', ';']
  else if c = '<' then ['&', 'l', 't', ';']
  else if c = '>' then ['&', 'g', 't', ';']
  else if c = '\x22' then ['&', '#', '3', '4', ';']
  else if c = '\x27' then ['&', '#', '3', '9', ';']
  else [c]

/-- The characters of a piece. -/
def write : Piece → List Char
  | .markup s => s.toList
  | .text s => s.toList.flatMap escapeChar

end Piece

/-- Lines of pieces, with newlines between them. -/
def writeLines (lines : List (List Piece)) : List Char :=
  List.intercalate ['\n'] (lines.map fun line => line.flatMap Piece.write)

/-! ## Building lines -/

/-- A line of markup alone. -/
def markupLine (s : String) : List Piece := [.markup s]

/-- A line that is indented by a number of spaces. -/
def indentedLine (depth : Nat) (pieces : List Piece) : List Piece :=
  .markup (String.ofList (List.replicate depth ' ')) :: pieces

/-- An attribute with its value in double quotes, after a space. -/
def attr (name : String) (value : List Piece) : List Piece :=
  .markup (" " ++ name ++ "=\"") :: (value ++ [.markup "\""])

/-- An attribute of which the value is one text. -/
def textAttr (name value : String) : List Piece := attr name [.text value]

end SchemaDiagram
