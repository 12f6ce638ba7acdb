/-
# Blanks

A blank is a character that separates words: white space, line and paragraph separators, and
the four separators among the control characters.

* `Text.trim` : a text without the blanks at its ends;
* `Text.words` : its maximal runs of other characters.
-/
import SchemaDiagram.Text.Ranges

namespace SchemaDiagram

namespace Text

/-- The code points of blanks: there are 29. -/
def blankRanges : List (Nat × Nat) := [
  (0x09, 0x0D), (0x1C, 0x20), (0x85, 0x85), (0xA0, 0xA0), (0x1680, 0x1680), (0x2000, 0x200A),
  (0x2028, 0x2029), (0x202F, 0x202F), (0x205F, 0x205F), (0x3000, 0x3000)]

/-- Whether a character is a blank. -/
def isBlank (c : Char) : Bool := inRanges blankRanges c

/-- A text without the blanks at its ends. -/
def trim (text : List Char) : List Char :=
  ((text.dropWhile isBlank).reverse.dropWhile isBlank).reverse

/-- The words of a text, in order. -/
def words (text : List Char) : List (List Char) :=
  (text.splitOnP isBlank).filter fun word => !word.isEmpty

/-- Words joined by single spaces. -/
def unwords (ws : List (List Char)) : List Char := List.intercalate [' '] ws

end Text

end SchemaDiagram
