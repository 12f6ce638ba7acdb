/-
# Coordinates: whole numbers and doubles

A coordinate of a drawing is a `Quantity`: a whole number of any size, or a double.  Whole
numbers stay exact among themselves; a whole number that meets a double is first rounded to
one.  What can go wrong on the way is an `ArithmeticFault`.

* `Quantity.add`, `Quantity.sub`, `Quantity.mul` : whole results from whole operands;
* `Quantity.dividedBy` : true division by a whole number, always a double;
* `Quantity.lt` : the exact order, across both kinds;
* `Quantity.text`, `Quantity.briefText` : how a quantity is written.
-/
import SchemaDiagram.Number.Shortest

namespace SchemaDiagram

/-- A number that a drawing is computed with. -/
inductive Quantity where
  | whole (n : Int)
  | real (x : Binary64)
deriving DecidableEq

/-- Why an arithmetic operation has no result. -/
inductive ArithmeticFault where
  | quotientTooLarge
  | integerTooLarge
  | infinityToInteger
  | nanToInteger
deriving DecidableEq, Repr

/-- The wording of a fault. -/
def ArithmeticFault.message : ArithmeticFault → String
  | .quotientTooLarge => "integer division result too large for a float"
  | .integerTooLarge => "int too large to convert to float"
  | .infinityToInteger => "cannot convert float infinity to integer"
  | .nanToInteger => "cannot convert float NaN to integer"

/-- The decimal digits of a whole number, after its sign. -/
def wholeText (n : Int) : String :=
  String.ofList (if n < 0 then '-' :: Nat.toDigits 10 n.natAbs else Nat.toDigits 10 n.natAbs)

/-! ## Doubles and whole numbers -/

/-- The double nearest to a whole number, unless that is infinite. -/
def Binary64.ofInt (n : Int) : Except ArithmeticFault Binary64 :=
  match Binary64.ofRat n with
  | .infinite _ => .error .integerTooLarge
  | x => .ok x

/-- Applies a rounding of rationals to a double. -/
def Binary64.toIntWith (round : Rat → Int) : Binary64 → Except ArithmeticFault Int
  | .nan => .error .nanToInteger
  | .infinite _ => .error .infinityToInteger
  | .finite negative place => .ok (round (signed negative place))

namespace Quantity

/-- The double that stands for a quantity beside another double. -/
def toBinary64 : Quantity → Except ArithmeticFault Binary64
  | .whole n => Binary64.ofInt n
  | .real x => .ok x

/-! ## Arithmetic -/

/-- A binary operation: exact on whole numbers, else on doubles. -/
def combine (onWhole : Int → Int → Int) (onReal : Binary64 → Binary64 → Binary64) :
    Quantity → Quantity → Except ArithmeticFault Quantity
  | .whole a, .whole b => .ok (.whole (onWhole a b))
  | .whole a, .real y => do return .real (onReal (← Binary64.ofInt a) y)
  | .real x, .whole b => do return .real (onReal x (← Binary64.ofInt b))
  | .real x, .real y => .ok (.real (onReal x y))

/-- The sum. -/
def add : Quantity → Quantity → Except ArithmeticFault Quantity := combine (· + ·) .add

/-- The difference. -/
def sub : Quantity → Quantity → Except ArithmeticFault Quantity := combine (· - ·) .sub

/-- The product. -/
def mul : Quantity → Quantity → Except ArithmeticFault Quantity := combine (· * ·) .mul

/-- The quantity with its sign turned. -/
def neg : Quantity → Quantity
  | .whole n => .whole (-n)
  | .real x => .real x.neg

/-- The magnitude of a quantity. -/
def abs : Quantity → Quantity
  | .whole n => .whole n.natAbs
  | .real x => .real x.abs

/-- The quotient by a positive whole number, as the nearest double.  The quotient of two whole
numbers is rounded once, however large they are. -/
def dividedBy (x : Quantity) (n : Nat) : Except ArithmeticFault Binary64 :=
  match x with
  | .whole a =>
    match Binary64.roundMagnitude (a < 0) ((a.natAbs : Rat) / (n : Rat)) with
    | .infinite _ => .error .quotientTooLarge
    | q => .ok q
  | .real x => do return x.div (← Binary64.ofInt n)

/-- Rounds the quotient by a positive whole number to an integer. -/
def quotientWith (round : Rat → Int) (x : Quantity) (n : Nat) : Except ArithmeticFault Int := do
  (← x.dividedBy n).toIntWith round

/-! ## Order -/

/-- Where a quantity lies in the extended order; NaN lies nowhere. -/
def extended? : Quantity → Option Binary64.Extended
  | .whole n => some (.value n)
  | .real x => x.extended?

/-- The strict order of the exact values.  Nothing is below or above NaN. -/
def lt (x y : Quantity) : Bool :=
  match x, y with
  | .whole a, .whole b => a < b
  | x, y =>
    match x.extended?, y.extended? with
    | some a, some b => a.lt b
    | _, _ => false

/-! ## Text -/

/-- The full text of a quantity. -/
def text : Quantity → String
  | .whole n => wholeText n
  | .real x => x.text

/-- The text of a quantity with at most six significant digits. -/
def briefText (x : Quantity) : Except ArithmeticFault String := do
  return (← x.toBinary64).briefText

end Quantity

end SchemaDiagram
