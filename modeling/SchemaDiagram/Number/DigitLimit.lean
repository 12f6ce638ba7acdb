/-
# How long whole numbers may be

A whole number of any size can be computed with, but it is written to a data file and read from one
with a limited number of digits only.

* `digitCount`, `digitLimit` : the digits of a number, and how many it may have;
* `DigitFault` : why a number is not written or read.
-/
import SchemaDiagram.Number.Quantity

namespace SchemaDiagram

/-- The number of decimal digits of a whole number. -/
def digitCount (n : Int) : Nat := (Nat.toDigits 10 n.natAbs).length

/-- How many digits a whole number may have where it is written or read. -/
def digitLimit : Nat := 4300

/-- Why a whole number is not written or read. -/
inductive DigitFault where
  /-- It has too many digits to be written. -/
  | unwritable
  /-- It is given with so many digits, which are too many to be read. -/
  | unreadable (digits : Nat)
deriving DecidableEq, Repr

/-- The wording of a fault. -/
def DigitFault.message (fault : DigitFault) : String :=
  let found := match fault with
    | .unwritable => ""
    | .unreadable digits => ": value has " ++ wholeText digits ++ " digits"
  "Exceeds the limit (" ++ wholeText digitLimit ++ " digits) for integer string conversion" ++
    found ++ "; use sys.set_int_max_str_digits() to increase the limit"

end SchemaDiagram
