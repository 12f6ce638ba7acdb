/-
# Numerals

Which texts read as a number: a complex number, a whole number in a base that is marked, or a
range of whole numbers.  Digits may be those of any script and may have single underscores
between them; blanks around a number do not count.

* `Text.isComplex` : numbers such as `-5`, `-.5e3`, `-inf` and `-1+2j`;
* `Text.isBased` : whole numbers such as `-0x1F`;
* `Text.isRange` : two or three whole numbers with colons between them, any of which may be
  missing;
* `Text.isNumeral` : any of these.
-/
import SchemaDiagram.Number.Decimal
import SchemaDiagram.Text.Blank
import SchemaDiagram.Text.Digits

namespace SchemaDiagram

namespace Text

/-! ## Characters -/

/-- A character as it counts in a numeral: a digit of any script is that of ASCII, and a blank
beyond ASCII is a space. -/
def numeralChar (c : Char) : Char :=
  if c.toNat < 0x80 then c
  else if isBlank c then ' '
  else match decimalValue? c with
    | some n => Char.ofNat (0x30 + n)
    | none => c

/-- Whether a character may stand around a number. -/
def isNumeralSpace (c : Char) : Bool := c = ' ' || (0x09 ≤ c.toNat && c.toNat ≤ 0x0D)

/-- A text without the spaces at its ends. -/
def trimNumeral (text : List Char) : List Char :=
  ((text.dropWhile isNumeralSpace).reverse.dropWhile isNumeralSpace).reverse

/-- A text without its underscores, each of which must stand between two digits. -/
def withoutUnderscores? (afterDigit : Bool) : List Char → Option (List Char)
  | [] => some []
  | '_' :: c :: rest =>
    if afterDigit && c.isDigit then (withoutUnderscores? true rest).map (c :: ·) else none
  | c :: rest =>
    if c = '_' then none else (withoutUnderscores? c.isDigit rest).map (c :: ·)

/-! ## Complex numbers -/

/-- What follows a word at the head of a text, in upper or lower case. -/
def afterWord? (word text : List Char) : Option (List Char) :=
  if word.isPrefixOf (text.map Char.toLower) then some (text.drop word.length) else none

/-- What follows an exponent at the head of a text, or the text if it has none. -/
def afterExponent : List Char → List Char
  | c :: rest =>
    if c = 'e' ∨ c = 'E' then
      let tail := (Decimal.takeSign rest).2
      if (tail.head?).any Char.isDigit then tail.dropWhile Char.isDigit else c :: rest
    else c :: rest
  | [] => []

/-- What follows the point and the digits after it at the head of a text. -/
def afterPoint : List Char → List Char
  | '.' :: rest => rest.dropWhile Char.isDigit
  | text => text

/-- What follows a real number without a sign at the head of a text. -/
def afterMagnitude? (text : List Char) : Option (List Char) :=
  let startsWithDigit := match text with
    | '.' :: c :: _ => c.isDigit
    | c :: _ => c.isDigit
    | [] => false
  if startsWithDigit then some (afterExponent (afterPoint (text.dropWhile Char.isDigit)))
  else
    (afterWord? "infinity".toList text).or <| (afterWord? "inf".toList text).or <|
      afterWord? "nan".toList text

/-- What follows a real number at the head of a text. -/
def afterReal? (text : List Char) : Option (List Char) := afterMagnitude? (Decimal.takeSign text).2

/-- What follows the imaginary unit at the head of a text. -/
def afterUnit? : List Char → Option (List Char)
  | c :: rest => if c = 'j' ∨ c = 'J' then some rest else none
  | [] => none

/-- What follows the imaginary part of a number, or the text if there is none.  A sign alone may
stand in front of the unit. -/
def afterImaginary? : List Char → Option (List Char)
  | c :: rest =>
    if c = '+' ∨ c = '-' then afterUnit? ((afterReal? (c :: rest)).getD rest)
    else some ((afterUnit? (c :: rest)).getD (c :: rest))
  | [] => some []

/-- Whether a text is a complex number: a real part, an imaginary part or both. -/
def isComplex (text : List Char) : Bool :=
  match withoutUnderscores? false (trimNumeral text) with
  | none => false
  | some plain =>
    let rest := match afterReal? plain with
      | some rest => afterImaginary? rest
      | none => afterUnit? (Decimal.takeSign plain).2
    rest = some []

/-! ## Whole numbers -/

/-- Whether a text is a whole number. -/
def isWhole (text : List Char) : Bool :=
  match digits? Char.isDigit (Decimal.takeSign (trimNumeral text)).2 with
  | some (_, []) => true
  | _ => false

/-- The base that a letter after a zero marks. -/
def baseOf? (c : Char) : Option Nat :=
  match c.toLower with
  | 'x' => some 16
  | 'o' => some 8
  | 'b' => some 2
  | _ => none

/-- Whether a text is a whole number in a base that is marked; an underscore may stand after the
mark. -/
def isBased (text : List Char) : Bool :=
  match (Decimal.takeSign (trimNumeral text)).2 with
  | '0' :: mark :: rest =>
    match baseOf? mark with
    | none => false
    | some base =>
      let digits := match rest with
        | '_' :: digits => digits
        | digits => digits
      match digits? (isDigitOf base) digits with
      | some (_, []) => true
      | _ => false
  | _ => false

/-- Whether a text is a range: two or three whole numbers with colons between them, any of which
may be missing. -/
def isRange (text : List Char) : Bool :=
  let parts := text.splitOn ':'
  2 ≤ parts.length && parts.length ≤ 3 && parts.all fun part => part.isEmpty || isWhole part

/-! ## Numerals -/

/-- Whether a text reads as a number. -/
def isNumeral (text : List Char) : Bool :=
  let text := text.map numeralChar
  isComplex text || isBased text || isRange text

end Text

end SchemaDiagram
