/-
# Editing sessions

An editor keeps a schema text, the tables of its last drawing, their positions, and the positions
that were saved.  A step that fails changes nothing, except that an edited text is remembered.

* `Session`, `Step` : the state of an editor and what can be done with it;
* `Session.step` : the state after a step, and what the step has to show;
* `Session.run` : the same for a list of steps.
-/
import SchemaDiagram.Diagram
import SchemaDiagram.Diagram.Positions

namespace SchemaDiagram

/-- The state of an editor. -/
structure Session where
  text : List Char
  tables : Registry (Table Quantity)
  positions : Registry (Point Quantity)
  saved : Registry (Point Quantity) LooseText

/-- What can be done in an editor. -/
inductive Step where
  /-- Draws a new text, or the same text again. -/
  | edit (text : Option (List Char))
  /-- Drags a table. -/
  | drag (name : String) (delta : Point Quantity)
  /-- Saves the positions. -/
  | save
  /-- Takes saved positions from a text. -/
  | load (content : List Char)
  /-- Forgets the positions of the last drawing. -/
  | forget

/-- Why a step fails. -/
inductive StepFault where
  | drawing (fault : DrawingFault)
  | positions (fault : PositionsFault)

/-- The wording of a fault. -/
def StepFault.message : StepFault → String
  | .drawing fault => fault.message
  | .positions fault => fault.message

/-- What a step has to show. -/
inductive StepResult where
  | drawn (drawing : Drawing Quantity) (paths : List (Connector Quantity × String))
  | landed (landing : Option Landing)
  | saved (content : String)
  | done

namespace Session

/-- An editor in which nothing has been done. -/
def empty : Session := ⟨[], .empty, .empty, .empty⟩

/-- The positions of tables. -/
def positionsOf (tables : Registry (Table Quantity)) : Registry (Point Quantity) :=
  tables.filterMap fun _ t => t.position

/-- The texts of the paths of connectors. -/
def pathsOf (connectors : List (Connector Quantity)) :
    Except ArithmeticFault (List (Connector Quantity × String)) :=
  connectors.mapM fun c => do return (c, ← c.pathText)

/-- Draws the text of an editor. -/
def redraw (c : Config) (s : Session) : Except DrawingFault (Session × StepResult) := do
  let drawing ← Drawing.make c s.text s.positions s.saved
  let paths ← pathsOf drawing.diagram.connectors
  let diagram := drawing.diagram
  return ({ s with tables := diagram.tables, positions := diagram.positions }, .drawn drawing paths)

/-- Drags a table of an editor. -/
def drag (c : Config) (s : Session) (name : String) (delta : Point Quantity) :
    Except ArithmeticFault (Session × StepResult) := do
  let landing ← landing? c s.tables name delta
  let tables := applyLanding s.tables name landing
  return ({ s with tables, positions := positionsOf tables }, .landed landing)

/-- The saved positions of an editor taken from a text. -/
def loadSaved (s : Session) (content : List Char) : Except PositionsFault Session := do
  return { s with saved := ← loadPositions content }

/-- The positions of an editor saved: written as a text, and read back from it. -/
def save (s : Session) : Except PositionsFault (Session × StepResult) := do
  let content ← dumpPositions s.positions
  return (← loadSaved s content.toList, .saved content)

/-- The state after a step and what it has to show, or the state after a step that fails. -/
def step (c : Config) (s : Session) : Step → Session × Except StepFault StepResult
  | .edit text =>
    let s := { s with text := text.getD s.text }
    match redraw c s with
    | .ok (s', result) => (s', .ok result)
    | .error fault => (s, .error (.drawing fault))
  | .drag name delta =>
    match drag c s name delta with
    | .ok (s', result) => (s', .ok result)
    | .error fault => (s, .error (.drawing (.arithmetic fault)))
  | .save =>
    match save s with
    | .ok (s', result) => (s', .ok result)
    | .error fault => (s, .error (.positions fault))
  | .load content =>
    match loadSaved s content with
    | .ok s' => (s', .ok .done)
    | .error fault => (s, .error (.positions fault))
  | .forget => ({ s with positions := .empty }, .ok .done)

/-- The states and results of a list of steps. -/
def run (c : Config) : Session → List Step → List (Session × Except StepFault StepResult)
  | _, [] => []
  | s, st :: rest =>
    let next := s.step c st
    next :: run c next.1 rest

end Session

end SchemaDiagram
