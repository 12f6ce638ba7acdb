/-
# Transcripts on a terminal

A mark in brackets, such as `[red]`, sets the style of the text after it, and `[/]` or `[/red]` ends
the style.  A table is shown with its columns aligned.

* `Terminal.console` : a terminal as a console, which wants an open mark for each closing one;
* `Terminal.styled` : a text with its marks replaced by the control sequences of a terminal;
* `TextTable.lines` : the lines of a table.
-/
import SchemaDiagram.Command.Transcript

namespace SchemaDiagram

namespace Terminal

/-! ## Open and closing marks -/

/-- The marks that are open at a place in a text, the last one first, and what stands before the
place in a bracket that is not closed yet. -/
structure Marks where
  opened : List (List Char)
  bracket : Option (List Char)

/-- The open marks after a bracket, unless it closes a mark that is not open. -/
def settle (opened : List (List Char)) : (bracket : List Char) → Option (List (List Char))
  | ['/'] => if opened.isEmpty then none else some opened.tail
  | '/' :: name => if name ∈ opened then some (opened.erase name) else none
  | c :: rest => some (if c.isLower ∨ c = '#' ∨ c = '@' then (c :: rest) :: opened else opened)
  | [] => some opened

/-- The marks after a character. -/
def Marks.step (m : Marks) (c : Char) : Option Marks :=
  match m.bracket with
  | none => some { m with bracket := if c = '[' then some [] else none }
  | some inside =>
    if c = '[' then some { m with bracket := some [] }
    else if c = ']' then (settle m.opened inside).map fun opened => ⟨opened, none⟩
    else some { m with bracket := some (inside ++ [c]) }

/-- A terminal shows the texts in which every closing mark has one to close. -/
def console : Console where
  shows s := (s.toList.foldlM Marks.step ⟨[], none⟩).isSome

/-! ## Styles -/

/-- The marks and their control sequences. -/
def marks : List (List Char × List Char) :=
  [("[bold red]", "\x1b[1;31m"), ("[bold green]", "\x1b[1;32m"), ("[bold blue]", "\x1b[1;34m"),
    ("[red]", "\x1b[31m"), ("[/]", "\x1b[0m")].map fun (mark, sequence) =>
      (mark.toList, sequence.toList)

/-- A text with its marks replaced by control sequences. -/
def styled : List Char → List Char
  | [] => []
  | c :: rest =>
    match marks.find? fun (mark, _) => mark.isPrefixOf (c :: rest) with
    | some (mark, sequence) => sequence ++ styled (rest.drop (mark.length - 1))
    | none => c :: styled rest
termination_by text => text.length
decreasing_by all_goals simp only [List.length_cons, List.length_drop]; omega

/-- A text with spaces after it up to a width. -/
def padded (width : Nat) (cell : String) : String :=
  cell ++ String.ofList (List.replicate (width - cell.length) ' ')

/-- The widths of the columns of a table: each is as wide as its widest cell. -/
def widths (rows : List (List String)) : List Nat :=
  rows.foldl (fun widths row =>
    (List.range (max widths.length row.length)).map fun i =>
      max (widths.getD i 0) ((row.getD i "").length)) []

end Terminal

/-- The lines of a table: its title, its headings and its rows. -/
def TextTable.lines (t : TextTable) : List String :=
  let rows := t.columns :: t.rows
  let widths := Terminal.widths rows
  t.title :: rows.map fun row => String.intercalate "  " (List.zipWith Terminal.padded widths row)

/-- The lines that a transcript shows beside its output: notices and log entries. -/
def Transcript.asides (t : Transcript) : List String :=
  t.notices ++ t.log.map fun entry => entry.level.name ++ " " ++ entry.message

end SchemaDiagram
