/-
# Table blocks

A table block is the standalone word `Table`, a name and a body in braces.  A block that is
malformed is skipped: the search for the next one goes on where the fault was noticed.

* `TableFragment` : a block, or the issue of one that was skipped;
* `scanTables` : the fragments of a text, in order.
-/
import SchemaDiagram.Schema.FieldLine

namespace SchemaDiagram

open Text

/-- A table block.  The span holds the offset of its keyword and the offset just past its
closing brace; the issues are those of its fields. -/
structure TableBlock where
  name : String
  line : Nat
  fields : List Field
  span : Nat × Nat
  issues : List Issue
deriving DecidableEq, Repr

/-- The entity that a block describes. -/
def TableBlock.entity (b : TableBlock) : Entity := ⟨b.name, b.fields⟩

/-- What begins at a table keyword. -/
inductive TableFragment where
  | block (b : TableBlock)
  | skipped (issue : Issue)
deriving DecidableEq, Repr

/-- The block of a fragment that is one. -/
def TableFragment.block? : TableFragment → Option TableBlock
  | .block b => some b
  | .skipped _ => none

/-- The word that opens a table block. -/
def tableKeyword : List Char := ['T', 'a', 'b', 'l', 'e']

/-- Reads the fields of a body that starts on the given line, one from each line that is not
blank. -/
def readBody (line : Nat) (body : List Char) : List (Field × List Issue) :=
  ((body.splitOn '\n').zipIdx line).filterMap fun (text, number) => Field.ofLine? number text

/-- Reads the name, the line of the opening brace and the body of a table. -/
def scanBlock {text : List Char} : Scan text (String × Nat × List Char) := do
  Scan.skipBlanks
  let name ← Scan.readName
  Scan.skipBlanks
  Scan.expect ['\x7b']
  let line ← Scan.lineHere
  return (name, line, ← Scan.readUntil ['\x7d'])

theorem scanBlock_advances {text : List Char} :
    Scan.Advances (scanBlock : Scan text (String × Nat × List Char)) :=
  Scan.skipBlanks_advances.bind fun _ => Scan.readName_advances.bind fun _ =>
    Scan.skipBlanks_advances.bind fun _ => (Scan.expect_advances _).bind fun _ =>
      Scan.lineHere_advances.bind fun _ => (Scan.readUntil_advances _).bind fun _ => .pure _

/-- The fragment that begins at a keyword on the given line, read from just past it. -/
def tableFragment {text : List Char} (start line : Nat) (c : Cursor text) :
    TableFragment × Cursor text :=
  match scanBlock c with
  | .ok (name, bodyLine, body) c =>
    let fields := readBody bodyLine body
    (.block ⟨name, line, fields.map Prod.fst, (start, c.pos), fields.flatMap Prod.snd⟩, c)
  | .error fault c => (.skipped ⟨line, .table fault⟩, c)

theorem tableFragment_remaining {text : List Char} (start line : Nat) (c : Cursor text) :
    (tableFragment start line c).2.remaining ≤ c.remaining := by
  have h := scanBlock_advances c
  simp only [tableFragment]
  split <;> (next hr => rw [hr] at h; exact h)

/-- The table fragments from a cursor on. -/
def tableFragments {text : List Char} (c : Cursor text) : List TableFragment :=
  match _h : c.findKeyword tableKeyword with
  | (none, _) => []
  | (some start, c') =>
    let numbered := c'.lineNumber start
    let read := tableFragment start numbered.1 numbered.2
    read.1 :: tableFragments read.2
termination_by c.remaining
decreasing_by
  have hfound := Cursor.findKeyword_remaining_lt (by decide) _h
  have hread := tableFragment_remaining start (c'.lineNumber start).1 (c'.lineNumber start).2
  rw [Cursor.lineNumber_remaining] at hread
  exact Nat.lt_of_le_of_lt hread hfound

/-- The table fragments of a text, in order. -/
def scanTables (text : List Char) : List TableFragment := tableFragments (Cursor.startAt text 0)

end SchemaDiagram
