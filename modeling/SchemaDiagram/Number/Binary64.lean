/-
# Double-precision numbers

A `Binary64` is a number of the 64-bit binary floating-point format: NaN, one of two
infinities, or a signed finite value.  Finite magnitudes are numbered in increasing order,
so a finite value is its sign together with its place in that order, and every operation
is the exact rational result rounded to the nearest place, ties to the even one.

* `Binary64.magnitude` : the rational that a place stands for;
* `Binary64.roundMagnitude` : the place nearest to a non-negative rational, or infinity;
* `Binary64.add`, `Binary64.sub`, `Binary64.mul`, `Binary64.div` : correctly rounded arithmetic.

Nothing here uses the machine's own floating-point unit, so every value can be computed
in a proof.
-/

namespace SchemaDiagram

/-! ## Rounding a rational to an integer -/

/-- The integer nearest to `r`; a half goes to the even neighbour. -/
def nearestInt (r : Rat) : Int :=
  let low := r.floor
  let above := r - low
  if above < 1 / 2 then low
  else if 1 / 2 < above then low + 1
  else if low % 2 = 0 then low else low + 1

/-- The greatest `e` with `2 ^ e ≤ r`, for a positive `r`. -/
def binaryOrder (r : Rat) : Int :=
  let e : Int := (r.num.natAbs.log2 : Int) - (r.den.log2 : Int)
  if (2 : Rat) ^ e ≤ r then e else e - 1

/-! ## The format -/

/-- How many magnitudes there are from one power of two to the next: `2 ^ 52`. -/
abbrev Binary64.binade : Nat := 0x10000000000000

/-- How many finite magnitudes there are, zero included: `2047 * 2 ^ 52`. -/
abbrev Binary64.finiteCount : Nat := 0x7FF0000000000000

/-- The place of a finite magnitude in increasing order: the number of those below it. -/
abbrev Binary64.Place : Type := Fin Binary64.finiteCount

/-- A double-precision number. -/
inductive Binary64 where
  | nan
  | infinite (negative : Bool)
  | finite (negative : Bool) (place : Binary64.Place)
deriving DecidableEq

namespace Binary64

/-- The whole number that is scaled by a power of two to give the magnitude at a place. -/
def significand (place : Nat) : Nat :=
  if place < binade then place else binade + place % binade

/-- The power of two that scales the significand of a place. -/
def exponent (place : Nat) : Int :=
  if place < binade then -1074 else ((place / binade : Nat) : Int) - 1075

/-- The magnitude at a place, exactly. -/
def magnitude (place : Nat) : Rat :=
  (significand place : Rat) * (2 : Rat) ^ exponent place

/-- The zero of the given sign. -/
def zero (negative : Bool) : Binary64 := .finite negative ⟨0, by decide⟩

/-- The number of the given sign nearest to the magnitude `r`, ties to the even place.
Magnitudes beyond the greatest finite one by half a step or more are infinite. -/
def roundMagnitude (negative : Bool) (r : Rat) : Binary64 :=
  if r = 0 then zero negative
  else
    let step := max (binaryOrder r - 52) (-1074)
    let units := nearestInt (r / (2 : Rat) ^ step)
    let place := ((step + 1074) * binade + units).toNat
    if h : place < finiteCount then .finite negative ⟨place, h⟩ else .infinite negative

/-- The number nearest to `r`; an exact zero is positive. -/
def ofRat (r : Rat) : Binary64 := roundMagnitude (r < 0) r.abs

/-- The value of a finite place with its sign. -/
def signed (negative : Bool) (place : Nat) : Rat :=
  if negative then -magnitude place else magnitude place

/-- The exact value of a finite number. -/
def toRat? : Binary64 → Option Rat
  | .finite negative place => some (signed negative place)
  | _ => none

/-! ## Order -/

/-- A rational, or one of the two points beyond all rationals. -/
inductive Extended where
  | bottom
  | value (r : Rat)
  | top
deriving DecidableEq

/-- Strict order, with `bottom` below and `top` above every rational. -/
def Extended.lt : Extended → Extended → Bool
  | .bottom, .bottom => false
  | .bottom, _ => true
  | .value _, .bottom => false
  | .value a, .value b => a < b
  | .value _, .top => true
  | .top, _ => false

/-- Where a number lies in the extended order; NaN lies nowhere. -/
def extended? : Binary64 → Option Extended
  | .nan => none
  | .infinite negative => some (if negative then .bottom else .top)
  | .finite negative place => some (.value (signed negative place))

/-! ## Arithmetic -/

/-- The number with its sign turned. -/
def neg : Binary64 → Binary64
  | .nan => .nan
  | .infinite negative => .infinite !negative
  | .finite negative place => .finite (!negative) place

/-- The number with a positive sign. -/
def abs : Binary64 → Binary64
  | .nan => .nan
  | .infinite _ => .infinite false
  | .finite _ place => .finite false place

/-- The exact sum, rounded.  An exact zero is negative only when both summands are
negative zeros. -/
def add : Binary64 → Binary64 → Binary64
  | .nan, _ | _, .nan => .nan
  | .infinite s, .infinite t => if s = t then .infinite s else .nan
  | .infinite s, .finite _ _ => .infinite s
  | .finite _ _, .infinite t => .infinite t
  | .finite s i, .finite t j =>
    let sum := signed s i + signed t j
    if sum = 0 then zero (s && t) else ofRat sum

/-- The exact difference, rounded. -/
def sub (x y : Binary64) : Binary64 := x.add y.neg

/-- The exact product, rounded; its sign is negative when the signs differ. -/
def mul : Binary64 → Binary64 → Binary64
  | .nan, _ | _, .nan => .nan
  | .infinite s, .infinite t => .infinite (s != t)
  | .infinite s, .finite t j => if j.val = 0 then .nan else .infinite (s != t)
  | .finite s i, .infinite t => if i.val = 0 then .nan else .infinite (s != t)
  | .finite s i, .finite t j => roundMagnitude (s != t) (magnitude i * magnitude j)

/-- The exact quotient, rounded; a non-zero number over zero is infinite. -/
def div : Binary64 → Binary64 → Binary64
  | .nan, _ | _, .nan => .nan
  | .infinite _, .infinite _ => .nan
  | .infinite s, .finite t _ => .infinite (s != t)
  | .finite s _, .infinite t => zero (s != t)
  | .finite s i, .finite t j =>
    if j.val = 0 then (if i.val = 0 then .nan else .infinite (s != t))
    else roundMagnitude (s != t) (magnitude i / magnitude j)

end Binary64

end SchemaDiagram
