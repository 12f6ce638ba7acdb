/-
# Decimal numbers

A `Decimal` is a signed whole number of units of a power of ten.  It is what a written
number says before it is rounded to a `Binary64`, and what a `Binary64` is written from.

* `Decimal.toBinary64` : the nearest double;
* `Decimal.ofText?` : reads a literal such as `-12.5e3`;
* `Decimal.Layout`, `Decimal.write` : how digits are laid out, positionally or with an exponent.
-/
import SchemaDiagram.Number.Binary64

namespace SchemaDiagram

/-- The number `digits * 10 ^ exponent`, with a sign. -/
structure Decimal where
  negative : Bool
  digits : Nat
  exponent : Int
deriving DecidableEq, Repr

namespace Decimal

/-! ## Value -/

/-- How many decimal digits a number has; zero has one. -/
def digitCount (n : Nat) : Nat := (Nat.toDigits 10 n).length

/-- The magnitude of a decimal, exactly. -/
def magnitude (d : Decimal) : Rat := (d.digits : Rat) * (10 : Rat) ^ d.exponent

/-- The nearest double.  A decimal whose first digit stands above `10 ^ 310` is infinite and
one whose first digit stands below `10 ^ -330` is zero, whatever its digits are. -/
def toBinary64 (d : Decimal) : Binary64 :=
  let top := d.exponent + digitCount d.digits
  if d.digits = 0 then .zero d.negative
  else if 311 < top then .infinite d.negative
  else if top < -330 then .zero d.negative
  else .roundMagnitude d.negative d.magnitude

/-! ## Reading -/

/-- The number that a run of decimal digits denotes. -/
def ofDigits (cs : List Char) : Nat :=
  cs.foldl (fun n c => 10 * n + (c.toNat - '0'.toNat)) 0

/-- A sign at the head of a text, and what follows it. -/
def takeSign : List Char → Bool × List Char
  | '-' :: rest => (true, rest)
  | '+' :: rest => (false, rest)
  | cs => (false, cs)

/-- An exponent such as `e-5`, which must end the text; none written is zero. -/
def exponentOfText? : List Char → Option Int
  | [] => some 0
  | c :: rest =>
    if c = 'e' ∨ c = 'E' then
      let (negative, digits) := takeSign rest
      if digits.isEmpty || !digits.all Char.isDigit then none
      else some (if negative then -(ofDigits digits : Int) else ofDigits digits)
    else none

/-- The decimal with the given digits before and after the point. -/
def ofParts (negative : Bool) (whole fraction : List Char) (exponent : Int) : Decimal :=
  ⟨negative, ofDigits (whole ++ fraction), exponent - fraction.length⟩

/-- Reads an optional sign, digits with an optional point among them, and an optional exponent. -/
def ofText? (text : List Char) : Option Decimal :=
  let (negative, rest) := takeSign text
  let whole := rest.takeWhile Char.isDigit
  let rest := rest.dropWhile Char.isDigit
  let (fraction, rest) := match rest with
    | '.' :: tail => (tail.takeWhile Char.isDigit, tail.dropWhile Char.isDigit)
    | _ => ([], rest)
  if whole.isEmpty && fraction.isEmpty then none
  else (exponentOfText? rest).map (ofParts negative whole fraction)

/-! ## Writing -/

/-- How a decimal is laid out.  It is positional when the exponent of its leading digit is at
least `plainFrom` and below `plainBelow`; `pointZero` says whether a positional whole number
ends in `.0`. -/
structure Layout where
  plainFrom : Int
  plainBelow : Int
  pointZero : Bool

/-- An exponent mark: its sign is always written, and it has at least two digits. -/
def exponentMark (e : Int) : List Char :=
  let digits := Nat.toDigits 10 e.natAbs
  'e' :: (if e < 0 then '-' else '+') :: (if digits.length < 2 then '0' :: digits else digits)

/-- Lays out digits of which the first has the exponent `lead`. -/
def Layout.place (f : Layout) (digits : List Char) (lead : Int) : List Char :=
  if lead < f.plainFrom ∨ f.plainBelow ≤ lead then
    digits.take 1 ++ (if digits.length < 2 then [] else '.' :: digits.drop 1) ++ exponentMark lead
  else if lead < 0 then
    '0' :: '.' :: (List.replicate (-lead - 1).toNat '0' ++ digits)
  else
    let width := (lead + 1).toNat
    if digits.length ≤ width then
      digits ++ List.replicate (width - digits.length) '0' ++ (if f.pointZero then ['.', '0'] else [])
    else digits.take width ++ '.' :: digits.drop width

/-- The digits of a number without the zeros at its end; zero keeps its one digit. -/
def significantDigits (n : Nat) : List Char :=
  match ((Nat.toDigits 10 n).reverse.dropWhile (· = '0')).reverse with
  | [] => ['0']
  | digits => digits

/-- The text of a decimal in the given layout. -/
def write (f : Layout) (d : Decimal) : String :=
  let lead := if d.digits = 0 then 0 else d.exponent + digitCount d.digits - 1
  let text := f.place (significantDigits d.digits) lead
  String.ofList (if d.negative then '-' :: text else text)

end Decimal

end SchemaDiagram
