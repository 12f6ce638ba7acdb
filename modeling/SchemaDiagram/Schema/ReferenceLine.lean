/-
# Reference lines

A reference line is the standalone word `Ref` at the start of a line outside every table block,
an optional name, a colon, and two qualified names with an operator between them.  What follows
the second name on its line is ignored.

* `ReferenceFragment` : a relationship, or the issue of a line that was skipped;
* `scanReferences` : the fragments of a text outside the given spans, in order.
-/
import SchemaDiagram.Schema.Cursor
import SchemaDiagram.Schema.Entity

namespace SchemaDiagram

open Text

/-- What begins at a reference keyword. -/
inductive ReferenceFragment where
  | relationship (r : Relationship)
  | skipped (issue : Issue)
deriving DecidableEq, Repr

/-- The relationship of a fragment that is one. -/
def ReferenceFragment.relationship? : ReferenceFragment → Option Relationship
  | .relationship r => some r
  | .skipped _ => none

/-- The issue of a fragment that was skipped. -/
def ReferenceFragment.issue? : ReferenceFragment → Option Issue
  | .relationship _ => none
  | .skipped issue => some issue

/-- The word that opens a reference line. -/
def referenceKeyword : List Char := ['R', 'e', 'f']

/-- Reads an operator.  The longest one is tried first, so `<>` is not read as `<`. -/
def scanOperator {text : List Char} : Scan text Cardinality := do
  if ← Scan.accept ['<', '>'] then return .manyToMany
  else if ← Scan.accept ['>'] then return .oneToMany
  else if ← Scan.accept ['<'] then return .manyToOne
  else if ← Scan.accept ['-'] then return .oneToOne
  else throw (.expectedOperator (← get).peek)

/-- Reads two qualified names with an operator between them. -/
def scanExpression {text : List Char} : Scan text Relationship := do
  Scan.skipBlanks
  let (fromTable, fromField) ← Scan.readQualifiedName
  Scan.skipBlanks
  let cardinality ← scanOperator
  Scan.skipBlanks
  let (toTable, toField) ← Scan.readQualifiedName
  return ⟨fromTable, fromField, toTable, toField, cardinality⟩

/-- The relationship that the part of a reference line after its colon says. -/
def Relationship.ofExpression (text : List Char) : Except ParseFault Relationship :=
  match scanExpression (Cursor.startAt text 0) with
  | .ok r _ => .ok r
  | .error fault _ => .error fault

/-- Reads a name and a colon. -/
def scanNamedColon {text : List Char} : Scan text Unit := do
  let _ ← Scan.readName
  Scan.skipBlanks
  Scan.expect [':']

/-- Reads a colon, which a name may precede. -/
def scanColon {text : List Char} : Scan text Unit := do
  if ← Scan.accept [':'] then pure () else scanNamedColon

/-- Reads what follows the reference keyword: an optional name, a colon and the rest of the
line. -/
def scanReferenceLine {text : List Char} : Scan text (List Char) := do
  Scan.skipBlanks
  scanColon
  Scan.restOfLine

theorem scanColon_advances {text : List Char} : Scan.Advances (scanColon : Scan text Unit) := by
  refine (Scan.accept_advances _).bind fun found => ?_
  cases found with
  | true => exact .pure ()
  | false =>
    exact Scan.readName_advances.bind fun _ => Scan.skipBlanks_advances.bind fun _ =>
      Scan.expect_advances _

theorem scanReferenceLine_advances {text : List Char} :
    Scan.Advances (scanReferenceLine : Scan text (List Char)) :=
  Scan.skipBlanks_advances.bind fun _ => scanColon_advances.bind fun _ =>
    Scan.restOfLine_advances

/-- The fragment that begins at a keyword on the given line, read from just past it. -/
def referenceFragment {text : List Char} (line : Nat) (c : Cursor text) :
    ReferenceFragment × Cursor text :=
  match scanReferenceLine c with
  | .ok expression c =>
    match Relationship.ofExpression expression with
    | .ok r => (.relationship r, c)
    | .error fault => (.skipped ⟨line, .reference fault⟩, c)
  | .error fault c => (.skipped ⟨line, .reference fault⟩, c)

theorem referenceFragment_remaining {text : List Char} (line : Nat) (c : Cursor text) :
    (referenceFragment line c).2.remaining ≤ c.remaining := by
  have h := scanReferenceLine_advances c
  simp only [referenceFragment]
  split
  · next hr =>
    rw [hr] at h
    split <;> exact h
  · next hr =>
    rw [hr] at h
    exact h

/-- Whether an offset lies in one of the spans, their ends excluded. -/
def insideAny (spans : List (Nat × Nat)) (offset : Nat) : Bool :=
  spans.any fun span => span.1 ≤ offset && offset < span.2

/-- The reference fragments from a cursor on.  A keyword that does not open its line, or that
stands in one of the spans, is passed over. -/
def referenceFragments {text : List Char} (spans : List (Nat × Nat)) (c : Cursor text) :
    List ReferenceFragment :=
  match _h : c.findKeyword referenceKeyword with
  | (none, _) => []
  | (some start, c') =>
    if !Cursor.atLineStart text start || insideAny spans start then referenceFragments spans c'
    else
      let numbered := c'.lineNumber start
      let read := referenceFragment numbered.1 numbered.2
      read.1 :: referenceFragments spans read.2
termination_by c.remaining
decreasing_by
  all_goals have hfound := Cursor.findKeyword_remaining_lt (by decide) _h
  · exact hfound
  · have hread := referenceFragment_remaining (c'.lineNumber start).1 (c'.lineNumber start).2
    rw [Cursor.lineNumber_remaining] at hread
    exact Nat.lt_of_le_of_lt hread hfound

/-- The reference fragments of a text outside the given spans, in order. -/
def scanReferences (text : List Char) (spans : List (Nat × Nat)) : List ReferenceFragment :=
  referenceFragments spans (Cursor.startAt text 0)

end SchemaDiagram
