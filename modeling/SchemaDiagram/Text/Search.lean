/-
# Searching a text

Offsets count characters from the start of the text.  A search from beyond the end finds
nothing.
-/

namespace SchemaDiagram

namespace Text

/-- Finds the first occurrence of `needle` in a rest of a text that starts at `offset`. -/
def seek (needle : List Char) : (rest : List Char) → (offset : Nat) → Option Nat
  | [], offset => if needle.isEmpty then some offset else none
  | c :: rest, offset =>
    if needle.isPrefixOf (c :: rest) then some offset else seek needle rest (offset + 1)

/-- The offset of the first occurrence of `needle` at `start` or later. -/
def indexFrom? (needle text : List Char) (start : Nat) : Option Nat :=
  if text.length < start then none else seek needle (text.drop start) start

/-- Whether `needle` occurs in a text. -/
def contains (text needle : List Char) : Bool := (indexFrom? needle text 0).isSome

/-- The part of a text between two offsets; nothing when the second does not lie beyond the first. -/
def slice (text : List Char) (start stop : Nat) : List Char := (text.take stop).drop start

/-! ## Where a search can end -/

theorem seek_bounds {needle : List Char} {rest : List Char} {offset found : Nat}
    (h : seek needle rest offset = some found) :
    offset ≤ found ∧ found + needle.length ≤ offset + rest.length := by
  induction rest generalizing offset with
  | nil =>
    simp only [seek] at h
    split at h
    · next hn => simp_all
    · simp at h
  | cons c rest ih =>
    simp only [seek] at h
    split at h
    · next hp =>
      have hlen := (List.isPrefixOf_iff_prefix.1 hp).length_le
      simp only [Option.some.injEq] at h
      subst h
      omega
    · have := ih h
      simp only [List.length_cons]
      omega

/-- An occurrence lies at or after the start of the search and within the text. -/
theorem indexFrom?_bounds {needle text : List Char} {start found : Nat}
    (h : indexFrom? needle text start = some found) :
    start ≤ found ∧ found + needle.length ≤ text.length := by
  simp only [indexFrom?] at h
  split at h
  · simp at h
  · have := seek_bounds h
    simp only [List.length_drop] at this
    omega

end Text

end SchemaDiagram
