/-
# What a command shows

A command writes data, shows tables, gives notices and tells what is noteworthy, until it is done
or stops.  Notices and tables go to a console, where marks in brackets set the style of the text
after them.  What a console makes of the marks is its own affair: it may refuse a text, and then the
command stops.

* `Console` : which texts can be shown;
* `Transcript` : what has been shown;
* `Telling` : actions that add to a transcript and may stop.
-/
import SchemaDiagram.Canvas.Fault
import SchemaDiagram.Log
import SchemaDiagram.Number.DigitLimit
import SchemaDiagram.Schema.Database

namespace SchemaDiagram

/-- A table of texts with a title and headings. -/
structure TextTable where
  title : String
  columns : List String
  rows : List (List String)
deriving DecidableEq, Repr

/-- All texts of a table. -/
def TextTable.texts (t : TextTable) : List String := t.title :: (t.columns ++ t.rows.flatten)

/-- What shows notices and tables. -/
structure Console where
  /-- Whether it can follow the marks in a text. -/
  shows : String → Bool

/-- What a command has shown. -/
structure Transcript where
  output : String
  tables : List TextTable
  notices : List String
  log : List LogEntry
deriving DecidableEq, Repr

/-- The transcript of a command that has shown nothing. -/
def Transcript.empty : Transcript := ⟨"", [], [], []⟩

/-- Why a command stops early. -/
inductive Halt where
  /-- Something is wrong with the request, and a notice says what. -/
  | refused
  /-- The console cannot follow the marks in a notice or a table. -/
  | unshown
  | drawing (fault : DrawingFault)
  | digits (fault : DigitFault)
  | foreignKey (fault : ForeignKeyFault)
deriving DecidableEq, Repr

/-- What is said about an early stop. -/
def Halt.message : Halt → String
  | .refused => "The request was refused."
  | .unshown => "A text could not be shown, for the marks in it."
  | .drawing fault => fault.message
  | .digits fault => fault.message
  | .foreignKey fault => fault.message

/-- An action that adds to a transcript, with a console at hand. -/
abbrev Telling := ReaderT Console (EStateM Halt Transcript)

namespace Telling

/-- Writes data. -/
def write (s : String) : Telling Unit := modify fun t => { t with output := t.output ++ s }

/-- Adds to the transcript what consists of some texts, if the console can show them all. -/
def display (texts : List String) (add : Transcript → Transcript) : Telling Unit := do
  if texts.all (← read).shows then modify add else throw .unshown

/-- Shows a table. -/
def showTable (table : TextTable) : Telling Unit :=
  display table.texts fun t => { t with tables := t.tables ++ [table] }

/-- Gives a notice. -/
def notice (s : String) : Telling Unit :=
  display [s] fun t => { t with notices := t.notices ++ [s] }

/-- Notices an error. -/
def error (s : String) : Telling Unit := notice ("[bold red]Error:[/] " ++ s)

/-- How it is said that all went well. -/
def successText (s : String) : String := "[bold green]✓[/] " ++ s

/-- Notices that all went well. -/
def success (s : String) : Telling Unit := notice (successText s)

/-- Notices a fact. -/
def info (s : String) : Telling Unit := notice ("[bold blue]i[/] " ++ s)

/-- Tells what is noteworthy, with details or without. -/
def log (details : Bool) (entries : List LogEntry) : Telling Unit :=
  modify fun t => { t with log := t.log ++ entries.filter (LogEntry.isShown details) }

/-- Notices an error and stops. -/
def refuse {α : Type} (s : String) : Telling α := do
  error s
  throw .refused

/-- The value of a computation on coordinates. -/
def ofArithmetic {α : Type} : Except ArithmeticFault α → Telling α
  | .ok a => pure a
  | .error fault => throw (.drawing (.arithmetic fault))

/-- A text with numbers, none of which is too long. -/
def ofDigits {α : Type} : Except DigitFault α → Telling α
  | .ok a => pure a
  | .error fault => throw (.digits fault)

/-- The value of a computation of a drawing. -/
def ofDrawing {α : Type} : Except DrawingFault α → Telling α
  | .ok a => pure a
  | .error fault => throw (.drawing fault)

end Telling

end SchemaDiagram
