/-
# Why a drawing can fail

Besides arithmetic that has no result, a drawing fails when it is asked for more spiral probes
than can be counted, or for a row of a table that has no position.
-/
import SchemaDiagram.Number.Quantity
import SchemaDiagram.Text.Quoted

namespace SchemaDiagram

/-- Why a drawing cannot be computed. -/
inductive DrawingFault where
  | arithmetic (fault : ArithmeticFault)
  | tooManyProbes
  | unplaced (table : String)
deriving DecidableEq, Repr

/-- The wording of a fault. -/
def DrawingFault.message : DrawingFault → String
  | .arithmetic fault => fault.message
  | .tooManyProbes =>
    "Stop argument for islice() must be None or an integer: 0 <= x <= sys.maxsize."
  | .unplaced table => "Table " ++ Text.quoted table ++ " has no position"

instance : MonadLift (Except ArithmeticFault) (Except DrawingFault) where
  monadLift
    | .ok a => .ok a
    | .error fault => .error (.arithmetic fault)

end SchemaDiagram
