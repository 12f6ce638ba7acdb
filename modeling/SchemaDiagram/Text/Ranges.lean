/-
# Tables of code points

A property of characters is given by the ranges of code points that have it.
-/

namespace SchemaDiagram

namespace Text

/-- Whether a character's code point lies in one of the ranges, ends included. -/
def inRanges (table : List (Nat × Nat)) (c : Char) : Bool :=
  table.any fun range => range.1 ≤ c.toNat && c.toNat ≤ range.2

end Text

end SchemaDiagram
