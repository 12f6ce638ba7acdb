/-
# TOML texts

A text stands in double quotes, where a backslash escapes, or in single quotes, where nothing is
escaped.  Three quotes open a text that may hold newlines.

* `Toml.basicText?` : a text in double quotes;
* `Toml.literalText?` : a text in single quotes;
* `Toml.longText?` : a text in three quotes of either kind.
-/
import SchemaDiagram.Text.Digits
import SchemaDiagram.Text.Search

namespace SchemaDiagram

namespace Toml

/-- The blanks of a line. -/
def isBlank (c : Char) : Bool := c = ' ' || c = '\t'

/-- A text without the blanks at its start. -/
def skipBlanks (text : List Char) : List Char := text.dropWhile isBlank

/-- Whether a character is a control character that may not stand in a text or comment on one
line. -/
def isControl (c : Char) : Bool := (c.toNat < 0x20 && c != '\t') || c.toNat = 0x7F

/-- Whether a character may not stand in a text that may hold newlines if `long`. -/
def isIllegal (long : Bool) (c : Char) : Bool := isControl c && !(long && c = '\n')

/-! ## Escapes -/

/-- What an escape of one letter stands for. -/
def shortEscape? : Char → Option Char
  | 'b' => some '\x08'
  | 't' => some '\t'
  | 'n' => some '\n'
  | 'f' => some '\x0c'
  | 'r' => some '\r'
  | '\x22' => some '\x22'
  | '\\' => some '\\'
  | _ => none

/-- The character whose number is written in hexadecimal digits. -/
def charOfHex? (digits : List Char) : Option Char := do
  let n ← Text.hexNumber? digits
  if n.isValidChar then some (Char.ofNat n) else none

/-- A character put in front of the text read after it. -/
def consChar : Option Char → Option (List Char × List Char) → Option (List Char × List Char)
  | some c, some (text, rest) => some (c :: text, rest)
  | _, _ => none

/-- Where a text stands with regard to a backslash at the end of a line, which takes away the
newline and all blanks and newlines after it. -/
inductive Fold where
  | plain
  /-- Between the backslash and the newline, where only blanks may stand. -/
  | lineEnd
  /-- After the newline. -/
  | folded
deriving DecidableEq

/-- The characters of a text in double quotes, and what follows its end. -/
def basicBody? (long : Bool) (fold : Fold) : List Char → Option (List Char × List Char)
  | [] => none
  | c :: rest =>
    if fold = .lineEnd then
      if c = '\n' then basicBody? long .folded rest
      else if isBlank c then basicBody? long .lineEnd rest
      else none
    else if fold = .folded && (isBlank c || c = '\n') then basicBody? long .folded rest
    else if c = '\x22' then
      if !long then some ([], rest)
      else match rest with
        | '\x22' :: '\x22' :: after => some ([], after)
        | _ => consChar (some c) (basicBody? long .plain rest)
    else if c = '\\' then
      match rest with
      | 'u' :: a :: b :: d :: e :: after =>
        consChar (charOfHex? [a, b, d, e]) (basicBody? long .plain after)
      | 'U' :: a :: b :: d :: e :: f :: g :: h :: i :: after =>
        consChar (charOfHex? [a, b, d, e, f, g, h, i]) (basicBody? long .plain after)
      | e :: after =>
        if long && e = '\n' then basicBody? long .folded after
        else if long && isBlank e then basicBody? long .lineEnd after
        else consChar (shortEscape? e) (basicBody? long .plain after)
      | [] => none
    else if isIllegal long c then none
    else consChar (some c) (basicBody? long .plain rest)

/-! ## Texts -/

/-- A text in double quotes on one line, its opening quote already read. -/
def basicText? (text : List Char) : Option (List Char × List Char) := basicBody? false .plain text

/-- A text up to a closing mark. -/
def literalBody? (long : Bool) (mark text : List Char) : Option (List Char × List Char) := do
  let stop ← Text.seek mark text 0
  let body := text.take stop
  if body.any (isIllegal long) then none else some (body, text.drop (stop + mark.length))

/-- A text in single quotes on one line, its opening quote already read. -/
def literalText? (text : List Char) : Option (List Char × List Char) :=
  literalBody? false ['\x27'] text

/-- Up to two further quotes after the closing ones belong to the text. -/
def extraQuotes (quote : Char) (body rest : List Char) : List Char × List Char :=
  let extra := (rest.take 2).takeWhile (· = quote)
  (body ++ extra, rest.drop extra.length)

/-- A text in three quotes, which are already read.  A newline right after them is left out. -/
def longText? (quote : Char) (text : List Char) : Option (List Char × List Char) := do
  let text := match text with
    | '\n' :: rest => rest
    | _ => text
  let (body, rest) ←
    if quote = '\x22' then basicBody? true .plain text
    else literalBody? true [quote, quote, quote] text
  return extraQuotes quote body rest

end Toml

end SchemaDiagram
