/-
# Choosing the digits of a double

Two ways to pick decimal digits for a finite double, both by exact arithmetic on its value.

* `Binary64.shortest` : the fewest digits that read back as the same double and, of those, the
  nearest;
* `Binary64.rounded` : a fixed number of significant digits, ties to the even one.

`Binary64.text` and `Binary64.briefText` write them.
-/
import SchemaDiagram.Number.Decimal

namespace SchemaDiagram

namespace Binary64

/-! ## Scale -/

/-- The exponent of the decimal digit in front of which the leading digit of a positive double
stands: the least `k` with `r < 10 ^ k`.  Every positive double is above `10 ^ -400`. -/
def decimalOrder (r : Rat) : Int :=
  (Decimal.digitCount (r * (10 : Rat) ^ (400 : Int)).floor.toNat : Int) - 400

/-! ## The fewest digits that read back -/

/-- The decimal with `n` digits, next to the magnitude at `place`, that reads back as that
place.  The two neighbours on the grid of `n` digits are tried; of two that read back the nearer
is taken, and of two equally near the even one. -/
def shortestAt (place : Place) (n : Nat) : Option Decimal :=
  let r := magnitude place
  let unit := decimalOrder r - n
  let scaled := r / (10 : Rat) ^ unit
  let low := scaled.floor.toNat
  let readsBack (digits : Nat) : Bool :=
    Decimal.toBinary64 ⟨false, digits, unit⟩ = .finite false place
  let nearest := (nearestInt scaled).toNat
  let other := if nearest = low then low + 1 else low
  if readsBack nearest then some ⟨false, nearest, unit⟩
  else if readsBack other then some ⟨false, other, unit⟩
  else none

/-- The shortest decimal that reads back as the magnitude at `place`.  Seventeen digits always
suffice; if none did, the exact value would be written. -/
def shortest (place : Place) : Decimal :=
  if place.val = 0 then ⟨false, 0, 0⟩
  else match (List.range' 1 17).findSome? (shortestAt place) with
    | some d => d
    | none =>
      let exact := magnitude place
      ⟨false, (exact * (10 : Rat) ^ (1074 : Int)).floor.toNat, -1074⟩

/-! ## A fixed number of digits -/

/-- The decimal of `n` significant digits nearest to the magnitude at `place`; a tie goes to the
even last digit. -/
def rounded (n : Nat) (place : Place) : Decimal :=
  if place.val = 0 then ⟨false, 0, 0⟩
  else
    let r := magnitude place
    let unit := decimalOrder r - n
    ⟨false, (nearestInt (r / (10 : Rat) ^ unit)).toNat, unit⟩

/-! ## Text -/

/-- Writes a double with the digits that `choose` picks for its magnitude. -/
def writeWith (f : Decimal.Layout) (choose : Place → Decimal) : Binary64 → String
  | .nan => "nan"
  | .infinite negative => if negative then "-inf" else "inf"
  | .finite negative place => { choose place with negative := negative }.write f

/-- Full texts are positional from `0.0001` up to sixteen digits before the point, and a whole
number ends in `.0`. -/
def fullLayout : Decimal.Layout := ⟨-4, 16, true⟩

/-- Brief texts are positional from `0.0001` up to six digits before the point, and a whole
number has no point. -/
def briefLayout : Decimal.Layout := ⟨-4, 6, false⟩

/-- The text of a double with the fewest digits that identify it. -/
def text : Binary64 → String := writeWith fullLayout shortest

/-- The text of a double with at most six significant digits. -/
def briefText : Binary64 → String := writeWith briefLayout (rounded 6)

/-- Reads a decimal literal, `inf` or `nan`, with an optional sign. -/
def ofText? (text : List Char) : Option Binary64 :=
  let (negative, rest) := Decimal.takeSign text
  match rest with
  | ['i', 'n', 'f'] => some (.infinite negative)
  | ['n', 'a', 'n'] => some .nan
  | _ => (Decimal.ofText? text).map Decimal.toBinary64

end Binary64

end SchemaDiagram
