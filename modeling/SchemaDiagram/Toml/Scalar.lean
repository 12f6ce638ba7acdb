/-
# TOML numbers and moments

Numbers may have underscores between their digits, and whole ones may be hexadecimal, octal or
binary.  Dates and times are read before numbers, since both begin with digits.

* `Toml.number?` : a number;
* `Toml.moment?` : a date, a time of day or both;
* `Toml.scalar?` : any value that is neither text, list nor table.
-/
import SchemaDiagram.Datum
import SchemaDiagram.Toml.Text

namespace SchemaDiagram

namespace Toml

/-! ## Digits -/

/-- A number of exactly `count` digits. -/
def fixedDigits? (count : Nat) (text : List Char) : Option (Nat × List Char) :=
  let digits := text.take count
  if digits.length = count && digits.all Char.isDigit then
    some (Decimal.ofDigits digits, text.drop count)
  else none

/-- A number of two digits between two limits. -/
def twoDigits? (low high : Nat) (text : List Char) : Option (Nat × List Char) := do
  let (n, rest) ← fixedDigits? 2 text
  if low ≤ n && n ≤ high then some (n, rest) else none

/-- What follows a character that must be next. -/
def after? (c : Char) : List Char → Option (List Char)
  | d :: rest => if d = c then some rest else none
  | [] => none

/-! ## Numbers -/

/-- The number that digits of a base denote. -/
def valueOf (base : Nat) (digits : List Char) : Nat :=
  digits.foldl (fun n c => base * n + (Text.hexValue? c).getD 0) 0

/-- A whole number in another base, marked by a zero and a letter. -/
def basedNumber? (text : List Char) : Option (Int × List Char) := do
  let (base, rest) ← match text with
    | '0' :: 'x' :: rest => some (16, rest)
    | '0' :: 'o' :: rest => some (8, rest)
    | '0' :: 'b' :: rest => some (2, rest)
    | _ => none
  let (digits, rest) ← Text.digits? (Text.isDigitOf base) rest
  return (valueOf base digits, rest)

/-- The digits of a whole decimal number: a zero alone, or digits of which the first is not
zero. -/
def wholeDigits? : List Char → Option (List Char × List Char)
  | '0' :: rest => some (['0'], rest)
  | text => Text.digits? Char.isDigit text

/-- The digits after a point, if there is a point with digits. -/
def fraction : List Char → List Char × List Char
  | '.' :: rest => (Text.digits? Char.isDigit rest).getD ([], '.' :: rest)
  | text => ([], text)

/-- An exponent, if there is one with digits. -/
def exponent? : List Char → Option (Int × List Char)
  | c :: rest =>
    if c = 'e' ∨ c = 'E' then do
      let (negative, tail) := Decimal.takeSign rest
      let (digits, tail) ← Text.digits? Char.isDigit tail
      let n : Int := Decimal.ofDigits digits
      return (if negative then -n else n, tail)
    else none
  | [] => none

/-- A decimal number: whole unless it has a point or an exponent. -/
def decimalNumber? (text : List Char) : Option (Datum × List Char) := do
  let (negative, tail) := Decimal.takeSign text
  let (whole, tail) ← wholeDigits? tail
  let (places, tail) := fraction tail
  match exponent? tail, places with
  | none, [] =>
    let n : Int := Decimal.ofDigits whole
    return (.int (if negative then -n else n), tail)
  | none, places => return (.real (Decimal.ofParts negative whole places 0).toBinary64, tail)
  | some (e, tail), places =>
    return (.real (Decimal.ofParts negative whole places e).toBinary64, tail)

/-- Infinity or NaN, with an optional sign. -/
def special? (text : List Char) : Option (Datum × List Char) :=
  let (negative, tail) := Decimal.takeSign text
  if ['i', 'n', 'f'].isPrefixOf tail then some (.real (.infinite negative), tail.drop 3)
  else if ['n', 'a', 'n'].isPrefixOf tail then some (.real .nan, tail.drop 3)
  else none

/-- A number. -/
def number? (text : List Char) : Option (Datum × List Char) :=
  ((basedNumber? text).map fun (n, rest) => (Datum.int n, rest)).or
    ((decimalNumber? text).or (special? text))

/-! ## Moments -/

/-- A fraction of a second in microseconds; further digits are dropped. -/
def microseconds : List Char → Nat × List Char
  | '.' :: rest =>
    match rest.takeWhile Char.isDigit with
    | [] => (0, '.' :: rest)
    | digits =>
      let six := digits.take 6
      (Decimal.ofDigits (six ++ List.replicate (6 - six.length) '0'), rest.drop digits.length)
  | text => (0, text)

/-- A time of day. -/
def time? (text : List Char) : Option (TimeOfDay × List Char) := do
  let (hour, rest) ← twoDigits? 0 23 text
  let (minute, rest) ← twoDigits? 0 59 (← after? ':' rest)
  let (second, rest) ← twoDigits? 0 59 (← after? ':' rest)
  let (microsecond, rest) := microseconds rest
  return (⟨hour, minute, second, microsecond⟩, rest)

/-- An offset from universal time in minutes, if there is one. -/
def offset? : List Char → Option (Int × List Char)
  | c :: rest =>
    if c = 'Z' ∨ c = 'z' then some (0, rest)
    else if c = '+' ∨ c = '-' then do
      let (hours, rest) ← twoDigits? 0 23 rest
      let (minutes, rest) ← twoDigits? 0 59 (← after? ':' rest)
      let n : Int := 60 * hours + minutes
      return (if c = '-' then -n else n, rest)
    else none
  | [] => none

/-- A date that exists. -/
def date? (text : List Char) : Option (Date × List Char) := do
  let (year, rest) ← fixedDigits? 4 text
  let (month, rest) ← twoDigits? 1 12 (← after? '-' rest)
  let (day, rest) ← twoDigits? 1 31 (← after? '-' rest)
  let d : Date := ⟨year, month, day⟩
  if d.isValid then some (d, rest) else none

/-- The time of day after a date, if there is one. -/
def timeAfterDate? : List Char → Option (TimeOfDay × List Char)
  | c :: rest => if c = 'T' ∨ c = 't' ∨ c = ' ' then time? rest else none
  | [] => none

/-- A date, a time of day or both. -/
def moment? (text : List Char) : Option (Moment × List Char) :=
  match date? text with
  | none => (time? text).map fun (t, rest) => (.time t, rest)
  | some (d, rest) =>
    match timeAfterDate? rest with
    | none => some (.date d, rest)
    | some (t, rest) =>
      match offset? rest with
      | none => some (.dateTime d t none, rest)
      | some (offset, rest) => some (.dateTime d t (some offset), rest)

/-! ## Scalars -/

/-- A value that is neither text, list nor table. -/
def scalar? (text : List Char) : Option (Datum × List Char) :=
  if ['t', 'r', 'u', 'e'].isPrefixOf text then some (.bool true, text.drop 4)
  else if ['f', 'a', 'l', 's', 'e'].isPrefixOf text then some (.bool false, text.drop 5)
  else match moment? text with
    | some (m, rest) => some (.moment m, rest)
    | none => number? text

end Toml

end SchemaDiagram
