/-
# Quoted text in messages

A text in a message stands in single quotes, or in double quotes when it holds a single quote
and no double one.  The backslash, the quote in use and every character that is not printable
are escaped, and so is half of a surrogate pair.
-/
import SchemaDiagram.Text.Loose
import SchemaDiagram.Text.Printable

namespace SchemaDiagram

namespace Text

/-- A number in lower-case hexadecimal digits, at least `width` of them. -/
def hexDigits (width n : Nat) : List Char :=
  let digits := Nat.toDigits 16 n
  List.replicate (width - digits.length) '0' ++ digits

/-- A character as it stands between quotes of the given kind. -/
def quoteChar (quote c : Char) : List Char :=
  if c = '\\' ∨ c = quote then ['\\', c]
  else if c = '\n' then ['\\', 'n']
  else if c = '\r' then ['\\', 'r']
  else if c = '\t' then ['\\', 't']
  else if isPrintable c then [c]
  else if c.toNat < 0x100 then '\\' :: 'x' :: hexDigits 2 c.toNat
  else if c.toNat < 0x10000 then '\\' :: 'u' :: hexDigits 4 c.toNat
  else '\\' :: 'U' :: hexDigits 8 c.toNat

/-- A character or a half as it stands between quotes of the given kind. -/
def quoteLoose (quote : Char) : LooseChar → List Char
  | .char c => quoteChar quote c
  | .half place => '\\' :: 'u' :: hexDigits 4 (LooseChar.half place).toNat

/-- The quote that a text is put in. -/
def quoteFor (text : List LooseChar) : Char :=
  if text.contains (.char '\x27') && !text.contains (.char '\x22') then '\x22' else '\x27'

/-- The characters of a text in quotes. -/
def quote (text : List LooseChar) : List Char :=
  let mark := quoteFor text
  mark :: (text.flatMap (quoteLoose mark) ++ [mark])

/-- A text in quotes. -/
def quoted (t : LooseText) : String := String.ofList (quote t.chars)

end Text

end SchemaDiagram
