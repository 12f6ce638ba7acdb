/-
# A cursor over schema text

A cursor is an offset into a fixed text, together with a counter of the lines passed so far.
Reading actions either give a value or a fault, and the cursor is kept in both cases: after a
fault it stands where the fault was noticed.

* `Scan` : reading actions, among them `Scan.readName`, `Scan.expect` and `Scan.readUntil`;
* `Cursor.findKeyword` : the next occurrence of a word that is not part of a longer name;
* `Cursor.lineNumber` : the line of an offset, counted from the last offset asked about.

Main statements: `Scan.Advances` is closed under sequencing, so no reading action brings back
text that was passed, and `Cursor.findKeyword_remaining_lt` : a keyword found is progress.
-/
import SchemaDiagram.Schema.Fault
import SchemaDiagram.Text.Alphanumeric
import SchemaDiagram.Text.Blank
import SchemaDiagram.Text.Search

namespace SchemaDiagram

open Text

/-- Whether a character may stand in the name of a table or a field. -/
def isNameChar (c : Char) : Bool := isAlphanumeric c || c = '_'

/-- The line reached when the newlines before an offset have been counted. -/
structure LineCounter where
  upTo : Nat
  line : Nat
deriving DecidableEq, Repr

/-- An offset into a text. -/
structure Cursor (text : List Char) where
  pos : Nat
  counter : LineCounter
deriving DecidableEq, Repr

namespace Cursor

variable {text : List Char}

/-- A cursor that has counted no lines yet. -/
def startAt (text : List Char) (pos : Nat) : Cursor text := ⟨pos, ⟨0, 1⟩⟩

/-- Whether all text is passed. -/
def atEnd (c : Cursor text) : Bool := text.length ≤ c.pos

/-- The character under the cursor. -/
def peek (c : Cursor text) : Option Char := text[c.pos]?

/-- The text from the cursor on. -/
def rest (c : Cursor text) : List Char := text.drop c.pos

/-- How many characters lie before the end of the text. -/
def remaining (c : Cursor text) : Nat := text.length - c.pos

/-- The cursor at another offset. -/
def moveTo (c : Cursor text) (pos : Nat) : Cursor text := { c with pos }

/-! ## Lines -/

/-- The one-based line of an offset.  Newlines are counted from the last offset asked about,
or from the start when that one lies beyond. -/
def lineNumber (c : Cursor text) (pos : Nat) : Nat × Cursor text :=
  let counter := if pos < c.counter.upTo then ⟨0, 1⟩ else c.counter
  let line := counter.line + (slice text counter.upTo pos).count '\n'
  (line, { c with counter := ⟨pos, line⟩ })

/-- Whether only blanks precede an offset on its line. -/
def atLineStart (text : List Char) (pos : Nat) : Bool :=
  ((text.take pos).reverse.takeWhile (· ≠ '\n')).all isBlank

/-! ## Keywords -/

/-- Whether the characters between two offsets are not part of a longer name. -/
def standsAlone (text : List Char) (start stop : Nat) : Bool :=
  !(if start = 0 then false else (text[start - 1]?).any isNameChar) && !(text[stop]?).any isNameChar

/-- The offset of the first occurrence of a keyword, at `start` or later, that is not part of a
longer name. -/
def keywordFrom? (keyword text : List Char) (start : Nat) : Option Nat :=
  match _h : indexFrom? keyword text start with
  | none => none
  | some found =>
    if standsAlone text found (found + keyword.length) then some found
    else if _hk : keyword = [] then none
    else keywordFrom? keyword text (found + keyword.length)
termination_by text.length + 1 - start
decreasing_by
  have := indexFrom?_bounds _h
  have := List.length_pos_iff.2 _hk
  omega

/-- Moves past the next standalone keyword and gives its offset, or moves to the end of the text
when there is none. -/
def findKeyword (c : Cursor text) (keyword : List Char) : Option Nat × Cursor text :=
  match keywordFrom? keyword text c.pos with
  | some found => (some found, c.moveTo (found + keyword.length))
  | none => (none, c.moveTo text.length)

theorem keywordFrom?_bounds {keyword : List Char} {start found : Nat}
    (h : keywordFrom? keyword text start = some found) :
    start ≤ found ∧ found + keyword.length ≤ text.length := by
  fun_induction keywordFrom? keyword text start with
  | case1 => simp at h
  | case2 start found' hf _ =>
    obtain rfl := Option.some.inj h
    exact indexFrom?_bounds hf
  | case3 => simp at h
  | case4 start found' hf _ _ ih =>
    have := indexFrom?_bounds hf
    have := ih h
    omega

/-- A keyword found is progress. -/
theorem findKeyword_remaining_lt {c c' : Cursor text} {keyword : List Char} {found : Nat}
    (hk : keyword ≠ []) (h : c.findKeyword keyword = (some found, c')) :
    c'.remaining < c.remaining := by
  simp only [findKeyword] at h
  split at h
  · next found' hf =>
    have := keywordFrom?_bounds hf
    have := List.length_pos_iff.2 hk
    obtain ⟨-, rfl⟩ := Prod.mk.inj h
    simp only [remaining, moveTo]
    omega
  · simp at h

theorem lineNumber_remaining (c : Cursor text) (pos : Nat) :
    (c.lineNumber pos).2.remaining = c.remaining := rfl

end Cursor

/-! ## Reading actions -/

/-- An action that reads at a cursor of a text. -/
abbrev Scan (text : List Char) := EStateM ParseFault (Cursor text)

namespace Scan

variable {text : List Char} {α β : Type}

/-- Moves past blanks, newlines included. -/
def skipBlanks : Scan text Unit := fun c =>
  .ok () (c.moveTo (c.pos + (c.rest.takeWhile isBlank).length))

/-- Reads a name: the longest run of name characters, which must not be empty. -/
def readName : Scan text String := fun c =>
  match c.rest.takeWhile isNameChar with
  | [] => .error (.expectedName c.peek) c
  | name => .ok (String.ofList name) (c.moveTo (c.pos + name.length))

/-- Moves past a literal if it is next, and says whether it was. -/
def accept (literal : List Char) : Scan text Bool := fun c =>
  if c.pos ≤ text.length && literal.isPrefixOf c.rest then
    .ok true (c.moveTo (c.pos + literal.length))
  else .ok false c

/-- Moves past a literal, which must be next. -/
def expect (literal : List Char) : Scan text Unit := do
  if ← accept literal then pure ()
  else throw (.expected literal (← get).peek)

/-- Reads a table name and a field name with a point between them. -/
def readQualifiedName : Scan text (String × String) := do
  let table ← readName
  expect ['.']
  return (table, ← readName)

/-- Reads the text before the next terminator and moves past it. -/
def readUntil (terminator : List Char) : Scan text (List Char) := fun c =>
  match indexFrom? terminator text c.pos with
  | some found => .ok (slice text c.pos found) (c.moveTo (found + terminator.length))
  | none => .error (.missingClosing terminator) c

/-- Reads the text before the next newline and moves to it, or to the end of the text. -/
def restOfLine : Scan text (List Char) := fun c =>
  let stop := (indexFrom? ['\n'] text c.pos).getD text.length
  .ok (slice text c.pos stop) (c.moveTo stop)

/-- The line of the cursor. -/
def lineHere : Scan text Nat := fun c =>
  let (line, c) := c.lineNumber c.pos
  .ok line c

/-! ## Progress -/

/-- The cursor that an action leaves, whether it gave a value or a fault. -/
def cursorAfter : EStateM.Result ParseFault (Cursor text) α → Cursor text
  | .ok _ c => c
  | .error _ c => c

/-- An action advances when it brings back no text that was passed. -/
def Advances (m : Scan text α) : Prop :=
  ∀ c, (cursorAfter (m c)).remaining ≤ c.remaining

theorem Advances.pure (a : α) : Advances (Pure.pure a : Scan text α) := fun _ => Nat.le_refl _

theorem Advances.bind {m : Scan text α} {f : α → Scan text β} (hm : Advances m)
    (hf : ∀ a, Advances (f a)) : Advances (m >>= f) := by
  intro c
  have hc := hm c
  change (cursorAfter (EStateM.bind m f c)).remaining ≤ _
  cases hr : m c with
  | ok a c' =>
    rw [hr] at hc
    simp only [EStateM.bind, hr]
    exact Nat.le_trans (hf a c') hc
  | error e c' =>
    rw [hr] at hc
    simp only [EStateM.bind, hr]
    exact hc

theorem skipBlanks_advances : Advances (skipBlanks : Scan text Unit) := by
  intro c
  simp only [skipBlanks, cursorAfter, Cursor.remaining, Cursor.moveTo]
  omega

theorem readName_advances : Advances (readName : Scan text String) := by
  intro c
  simp only [readName]
  split <;> simp only [cursorAfter, Cursor.remaining, Cursor.moveTo] <;> omega

theorem accept_advances (literal : List Char) : Advances (accept literal : Scan text Bool) := by
  intro c
  simp only [accept]
  split <;> simp only [cursorAfter, Cursor.remaining, Cursor.moveTo] <;> omega

theorem expect_advances (literal : List Char) : Advances (expect literal : Scan text Unit) := by
  refine (accept_advances literal).bind fun found => ?_
  cases found with
  | true => exact .pure ()
  | false => exact fun _ => Nat.le_refl _

theorem readQualifiedName_advances : Advances (readQualifiedName : Scan text (String × String)) :=
  readName_advances.bind fun _ => (expect_advances _).bind fun _ =>
    readName_advances.bind fun _ => .pure _

theorem readUntil_advances (terminator : List Char) :
    Advances (readUntil terminator : Scan text (List Char)) := by
  intro c
  simp only [readUntil]
  split
  · next found h =>
    have := indexFrom?_bounds h
    simp only [cursorAfter, Cursor.remaining, Cursor.moveTo]
    omega
  · exact Nat.le_refl _

theorem restOfLine_advances : Advances (restOfLine : Scan text (List Char)) := by
  intro c
  simp only [restOfLine, cursorAfter, Cursor.remaining, Cursor.moveTo]
  cases h : indexFrom? ['\n'] text c.pos with
  | none =>
    simp only [Option.getD_none]
    omega
  | some found =>
    have := indexFrom?_bounds h
    simp only [Option.getD_some]
    omega

theorem lineHere_advances : Advances (lineHere : Scan text Nat) := fun _ => Nat.le_refl _

end Scan

end SchemaDiagram
