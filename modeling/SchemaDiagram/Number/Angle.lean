/-
# Sine and cosine of whole degrees

An angle in degrees becomes a double in radians, and the sine and cosine of that double are
rounded to the nearest double.  They are summed from their power series in whole numbers of
`2 ^ -256`, so far beyond a double's precision that the rounding is decided by the true value.
A mathematical library need not round so well: its doubles may be a unit in the last place away, as
common ones are for the sines of 297 and 351 degrees.  All that is proved of a placement with them
rests on a rough bound of their magnitude.

* `Angle.radians` : degrees to radians;
* `Angle.sine`, `Angle.cosine` : the nearest doubles.
-/
import SchemaDiagram.Number.Binary64

namespace SchemaDiagram

namespace Angle

/-- The double nearest to half a turn, in radians. -/
def halfTurn : Binary64 := .ofRat (884279719003555 / 0x1000000000000)

/-- An angle in radians: the degrees times the double quotient of half a turn by 180. -/
def radians (degrees : Nat) : Binary64 :=
  (Binary64.ofRat degrees).mul (halfTurn.div (.ofRat 180))

/-- One in the unit of the sums: `2 ^ 256`. -/
def one : Nat := 1 <<< 256

/-- Sums `count` terms of the exponential series of an imaginary number from the `n`-th on, of
which `term` is the magnitude.  Each further term turns by a quarter: the pair holds the real
and the imaginary part. -/
def series (x : Nat) : (count n term : Nat) → Int × Int
  | 0, _, _ => (0, 0)
  | count + 1, n, term =>
    let (re, im) := series x count (n + 1) (term * x / one / (n + 1))
    ((term : Int) - im, re)

/-- Cosine and sine of an angle in radians between none and a full turn. -/
def turn (x : Binary64) : Rat × Rat :=
  let scaled := ((x.toRat?.getD 0) * (one : Rat)).floor.toNat
  let (re, im) := series scaled 100 0 one
  ((re : Rat) / (one : Rat), (im : Rat) / (one : Rat))

/-- The cosine of an angle in degrees. -/
def cosine (degrees : Nat) : Binary64 := .ofRat (turn (radians degrees)).1

/-- The sine of an angle in degrees. -/
def sine (degrees : Nat) : Binary64 := .ofRat (turn (radians degrees)).2

end Angle

end SchemaDiagram
