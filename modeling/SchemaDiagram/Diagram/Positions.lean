/-
# Position maps as text

A position map is kept as a JSON object with an object of `x` and `y` for each table.

* `dumpPositions`, `dumpLoaded` : writes a map, unless a coordinate has too many digits;
* `loadPositions` : reads one, or says what is wrong with it.

A map that is read may name what no table can be called, so its names are loose texts.
-/
import SchemaDiagram.Canvas.Box
import SchemaDiagram.Json.Reader
import SchemaDiagram.Json.Writer

namespace SchemaDiagram

/-- A quantity as a value of a data file. -/
def Quantity.datum : Quantity → Datum
  | .whole n => .int n
  | .real x => .real x

/-- The quantity of a value that is a number. -/
def Quantity.ofDatum? : Datum → Option Quantity
  | .int n => some (.whole n)
  | .real x => some (.real x)
  | _ => none

/-- A point as a value of a data file. -/
def Point.datum (p : Point Quantity) : Datum := .dict [("x", p.x.datum), ("y", p.y.datum)]

/-- Positions as a value of a data file, with each name as a loose text. -/
def positionsDatumBy {κ : Type} (name : κ → LooseText) (positions : Registry (Point Quantity) κ) :
    Datum :=
  .dict (positions.entries.map fun e => (name e.1, e.2.datum))

/-- Positions of tables as a value of a data file. -/
def positionsDatum (positions : Registry (Point Quantity)) : Datum :=
  positionsDatumBy .ofString positions

/-- The text of a position map. -/
def dumpPositions (positions : Registry (Point Quantity)) : Except DigitFault String :=
  Json.indented (positionsDatum positions)

/-- The text of a position map that was itself read from a text. -/
def dumpLoaded (positions : Registry (Point Quantity) LooseText) : Except DigitFault String :=
  Json.indented (positionsDatumBy id positions)

/-- Why a position map is not read from a text, or not written. -/
inductive PositionsFault where
  | notJson
  | digits (fault : DigitFault)
  | notAnObject
  | noCoordinates (table : LooseText)
  | notNumeric (table : LooseText)
deriving DecidableEq, Repr

/-- The wording of a fault. -/
def PositionsFault.message : PositionsFault → String
  | .notJson => "Invalid position map"
  | .digits fault => fault.message
  | .notAnObject => "Position map must be a JSON object"
  | .noCoordinates table => "Position for table " ++ Text.quoted table ++ " must have x and y"
  | .notNumeric table => "Position for table " ++ Text.quoted table ++ " must be numeric"

instance : MonadLift (Except DigitFault) (Except PositionsFault) where
  monadLift
    | .ok a => .ok a
    | .error fault => .error (.digits fault)

/-- The point that the value of a table says. -/
def Point.ofDatum (table : LooseText) (d : Datum) : Except PositionsFault (Point Quantity) :=
  match d.field? "x", d.field? "y" with
  | some x, some y =>
    match Quantity.ofDatum? x, Quantity.ofDatum? y with
    | some x, some y => .ok ⟨x, y⟩
    | _, _ => .error (.notNumeric table)
  | _, _ => .error (.noCoordinates table)

/-- The positions that a text says. -/
def loadPositions (text : List Char) :
    Except PositionsFault (Registry (Point Quantity) LooseText) :=
  match Datum.ofJson text with
  | .error .malformed => .error .notJson
  | .error (.digits fault) => .error (.digits fault)
  | .ok (.dict entries) =>
    entries.foldlM (fun r e => do return r.insert e.1 (← Point.ofDatum e.1 e.2)) Registry.empty
  | .ok _ => .error .notAnObject

end SchemaDiagram
