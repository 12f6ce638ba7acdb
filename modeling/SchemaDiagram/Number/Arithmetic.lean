/-
# The arithmetic of a drawing

Boxes, routes and placements are computed in any type with an `Arithmetic`: addition and its
kin, an order, and the quotients by the grid size that snapping rounds.  Two instances matter.

* `Quantity` : whole numbers and doubles, where an operation can overflow;
* `Rat` : exact numbers, where nothing can go wrong.

A rule of geometry that is written once thus holds a meaning on exact numbers as well.
-/
import SchemaDiagram.Number.Quantity

namespace SchemaDiagram

/-- What a coordinate type offers. -/
class Arithmetic (α : Type) where
  /-- A whole number as a coordinate. -/
  ofInt : Int → α
  /-- A double as a coordinate. -/
  ofReal : Binary64 → α
  /-- The coordinate at which an empty drawing ends. -/
  origin : α
  neg : α → α
  abs : α → α
  add : α → α → Except ArithmeticFault α
  sub : α → α → Except ArithmeticFault α
  mul : α → α → Except ArithmeticFault α
  half : α → Except ArithmeticFault α
  /-- The strict order. -/
  lt : α → α → Bool
  /-- The integer nearest to the quotient by a positive whole number, ties to even. -/
  nearestQuotient : α → Nat → Except ArithmeticFault Int
  /-- The quotient of a whole number, rounded down. -/
  floorQuotient : Int → Nat → Except ArithmeticFault Int
  /-- The quotient of a whole number, rounded up. -/
  ceilQuotient : Int → Nat → Except ArithmeticFault Int

instance : Arithmetic Quantity where
  ofInt := .whole
  ofReal := .real
  origin := .real (.zero false)
  neg := Quantity.neg
  abs := Quantity.abs
  add := Quantity.add
  sub := Quantity.sub
  mul := Quantity.mul
  half x := do return .real (← x.dividedBy 2)
  lt := Quantity.lt
  nearestQuotient := Quantity.quotientWith nearestInt
  floorQuotient a := Quantity.quotientWith Rat.floor (.whole a)
  ceilQuotient a := Quantity.quotientWith Rat.ceil (.whole a)

instance : Arithmetic Rat where
  ofInt n := n
  ofReal x := x.toRat?.getD 0
  origin := 0
  neg x := -x
  abs x := x.abs
  add x y := .ok (x + y)
  sub x y := .ok (x - y)
  mul x y := .ok (x * y)
  half x := .ok (x / 2)
  lt x y := x < y
  nearestQuotient x n := .ok (nearestInt (x / (n : Rat)))
  floorQuotient a n := .ok ((a : Rat) / (n : Rat)).floor
  ceilQuotient a n := .ok ((a : Rat) / (n : Rat)).ceil

namespace Arithmetic

variable {α : Type} [Arithmetic α]

/-- The greater of two coordinates; of two equal ones the first. -/
def larger (x y : α) : α := if lt x y then y else x

/-- The difference of two coordinates, as a magnitude. -/
def distance (x y : α) : Except ArithmeticFault α := do return abs (← sub x y)

end Arithmetic

/-- A test that is only made when the first one holds. -/
def bothHold {ε : Type} (first second : Except ε Bool) : Except ε Bool :=
  first.bind fun holds => if holds then second else .ok false

end SchemaDiagram
