/-
# JSON tokens

JSON text is cut into marks, texts and scalars.  Besides the numbers of the standard, `NaN`,
`Infinity` and `-Infinity` are read.  A number without point and exponent is whole; with too many
digits it is a token that stands for no value.

* `JsonToken` : the tokens;
* `JsonToken.read?` : the token that starts with a given character, and what follows it;
* `JsonToken.ofText` : the tokens of a text, up to the first part of it that is none.

Main statement: `JsonToken.read?_length_le`, a token takes its first character at least.
-/
import SchemaDiagram.Datum
import SchemaDiagram.Number.DigitLimit
import SchemaDiagram.Text.Digits

namespace SchemaDiagram

/-- A token of JSON text. -/
inductive JsonToken where
  | openList
  | closeList
  | openDict
  | closeDict
  | comma
  | colon
  | text (t : LooseText)
  | scalar (d : Datum)
  /-- A whole number with too many digits. -/
  | tooLong (digits : Nat)
  /-- What cannot be read as a token. -/
  | junk

namespace JsonToken

/-! ## Texts -/

/-- What an escape of one letter stands for. -/
def shortEscape? : Char → Option Nat
  | '\x22' => some 0x22
  | '\\' => some 0x5C
  | '/' => some 0x2F
  | 'b' => some 0x08
  | 'f' => some 0x0C
  | 'n' => some 0x0A
  | 'r' => some 0x0D
  | 't' => some 0x09
  | _ => none

/-- A code unit put in front of the units read after it. -/
def consUnit : Option Nat → Option (List Nat × List Char) → Option (List Nat × List Char)
  | some unit, some (units, rest) => some (unit :: units, rest)
  | _, _ => none

/-- The code units of a text up to its closing quote, and what follows the quote.  A character
below the space must be escaped. -/
def units? : List Char → Option (List Nat × List Char)
  | [] => none
  | '\x22' :: rest => some ([], rest)
  | '\\' :: 'u' :: a :: b :: c :: d :: rest => consUnit (Text.hexNumber? [a, b, c, d]) (units? rest)
  | '\\' :: c :: rest => consUnit (shortEscape? c) (units? rest)
  | c :: rest => consUnit (if c.toNat < 0x20 then none else some c.toNat) (units? rest)

/-! ## Numbers -/

/-- The digits of a whole number at the head of a text: a zero alone, or digits of which the
first is not zero. -/
def wholeDigits : List Char → List Char
  | '0' :: _ => ['0']
  | cs => cs.takeWhile Char.isDigit

/-- The digits after a point at the head of a text; none if it has no point with digits. -/
def fractionDigits : List Char → List Char
  | '.' :: rest => rest.takeWhile Char.isDigit
  | _ => []

/-- An exponent at the head of a text: how many characters it takes, and its value. -/
def exponentPart : List Char → Option (Nat × Int)
  | c :: rest =>
    if c = 'e' ∨ c = 'E' then
      let (negative, tail) := Decimal.takeSign rest
      let digits := tail.takeWhile Char.isDigit
      if digits.isEmpty then none
      else
        let n : Int := Decimal.ofDigits digits
        some (1 + (rest.length - tail.length) + digits.length, if negative then -n else n)
    else none
  | [] => none

/-- The token of a whole number that is given by its digits. -/
def ofWhole (negative : Bool) (digits : List Char) : JsonToken :=
  if digits.length ≤ digitLimit then
    let n : Int := Decimal.ofDigits digits
    .scalar (.int (if negative then -n else n))
  else .tooLong digits.length

/-- A number at the head of a text, its sign already read, and what follows it. -/
def number? (negative : Bool) (text : List Char) : Option (JsonToken × List Char) :=
  let whole := wholeDigits text
  let rest := text.drop whole.length
  let fraction := fractionDigits rest
  let point := if fraction.isEmpty then 0 else fraction.length + 1
  if whole.isEmpty then none
  else
    match exponentPart (rest.drop point), fraction with
    | none, [] => some (ofWhole negative whole, rest)
    | part, fraction =>
      let (width, exponent) := part.getD (0, 0)
      let d := Decimal.ofParts negative whole fraction exponent
      some (.scalar (.real d.toBinary64), rest.drop (point + width))

/-- Words that stand for a scalar, besides the numbers. -/
def words : List (List Char × Datum) := [
  ("null".toList, .null), ("true".toList, .bool true), ("false".toList, .bool false),
  ("NaN".toList, .real .nan), ("Infinity".toList, .real (.infinite false)),
  ("-Infinity".toList, .real (.infinite true))]

/-- The scalar at the head of a text, and what follows it. -/
def scalar? (text : List Char) : Option (JsonToken × List Char) :=
  match words.find? fun w => w.1.isPrefixOf text with
  | some (word, d) => some (.scalar d, text.drop word.length)
  | none =>
    match text with
    | '-' :: rest => number? true rest
    | _ => number? false text

/-! ## Tokens -/

/-- The token that starts with the character `c`, and what follows it. -/
def read? (c : Char) (rest : List Char) : Option (JsonToken × List Char) :=
  match c with
  | '[' => some (.openList, rest)
  | ']' => some (.closeList, rest)
  | '\x7b' => some (.openDict, rest)
  | '\x7d' => some (.closeDict, rest)
  | ',' => some (.comma, rest)
  | ':' => some (.colon, rest)
  | '\x22' => (units? rest).map fun (units, rest) => (.text (.ofUnits units), rest)
  | c => scalar? (c :: rest)

/-- The characters that may stand between tokens. -/
def isSpace (c : Char) : Bool := c = ' ' || c = '\t' || c = '\n' || c = '\r'

/-! ## Progress -/

theorem consUnit_eq_some {unit : Option Nat} {tail : Option (List Nat × List Char)}
    {units : List Nat} {rest : List Char} (h : consUnit unit tail = some (units, rest)) :
    ∃ units', tail = some (units', rest) := by
  unfold consUnit at h
  split at h
  · next units' rest' =>
    simp only [Option.some.injEq, Prod.mk.injEq] at h
    exact ⟨units', by rw [h.2]⟩
  · simp at h

theorem units?_length_lt {text : List Char} {units : List Nat} {rest : List Char}
    (h : units? text = some (units, rest)) : rest.length < text.length := by
  fun_induction units? text generalizing units rest with
  | case1 => simp at h
  | case2 =>
    simp only [Option.some.injEq, Prod.mk.injEq] at h
    simp [h.2]
  | case3 a b c d tail ih =>
    obtain ⟨units', ht⟩ := consUnit_eq_some h
    have := ih ht
    simp only [List.length_cons]
    omega
  | case4 c tail _ ih =>
    obtain ⟨units', ht⟩ := consUnit_eq_some h
    have := ih ht
    simp only [List.length_cons]
    omega
  | case5 c tail _ _ _ ih =>
    obtain ⟨units', ht⟩ := consUnit_eq_some h
    have := ih ht
    simp only [List.length_cons]
    omega

theorem number?_length_lt {negative : Bool} {text : List Char} {t : JsonToken} {rest : List Char}
    (h : number? negative text = some (t, rest)) : rest.length < text.length := by
  have hle : (wholeDigits text).length ≤ text.length := by
    unfold wholeDigits
    split
    · simp
    · exact (List.takeWhile_sublist _).length_le
  simp only [number?] at h
  split at h
  · simp at h
  · next hw =>
    have hpos := List.length_pos_iff.2 fun e => hw (List.isEmpty_iff.2 e)
    split at h <;> simp only [Option.some.injEq, Prod.mk.injEq] at h <;>
      rw [← h.2] <;> simp only [List.length_drop] <;> omega

theorem scalar?_length_le {c : Char} {text : List Char} {t : JsonToken} {rest : List Char}
    (h : scalar? (c :: text) = some (t, rest)) : rest.length ≤ text.length := by
  unfold scalar? at h
  split at h
  · next word d' hw =>
    have hmem := List.mem_of_find?_eq_some hw
    have hpos : ∀ w ∈ words, 0 < w.1.length := by simp [words]
    have : 0 < word.length := hpos _ hmem
    simp only [Option.some.injEq, Prod.mk.injEq] at h
    rw [← h.2, List.length_drop, List.length_cons]
    omega
  · split at h
    · next rest' heq =>
      have := number?_length_lt h
      simp only [List.cons.injEq] at heq
      rw [heq.2]
      omega
    · have := number?_length_lt h
      rw [List.length_cons] at this
      omega

/-- A token takes its first character at least. -/
theorem read?_length_le {c : Char} {text : List Char} {t : JsonToken} {rest : List Char}
    (h : read? c text = some (t, rest)) : rest.length ≤ text.length := by
  unfold read? at h
  split at h
  case h_7 =>
    obtain ⟨⟨units, rest'⟩, hu, he⟩ := Option.map_eq_some_iff.1 h
    have := units?_length_lt hu
    simp only [Prod.mk.injEq] at he
    rw [← he.2]
    omega
  case h_8 => exact scalar?_length_le h
  all_goals
    simp only [Option.some.injEq, Prod.mk.injEq] at h
    exact Nat.le_of_eq (congrArg List.length h.2.symm)

/-! ## All tokens -/

/-- The tokens of a text.  Where a part of it is no token, the rest is junk. -/
def ofText (text : List Char) : List JsonToken :=
  match text with
  | [] => []
  | c :: rest =>
    if isSpace c then ofText rest
    else
      match _h : read? c rest with
      | none => [.junk]
      | some (t, rest') => t :: ofText rest'
termination_by text.length
decreasing_by
  · simp
  · have := read?_length_le _h
    rw [List.length_cons]
    omega

end JsonToken

end SchemaDiagram
