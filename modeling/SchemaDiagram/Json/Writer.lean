/-
# Writing JSON

JSON text is written in ASCII: every other character is escaped as one or two code units, and
half of a surrogate pair as itself.
Doubles are written with the fewest digits that read back, and `NaN`, `Infinity` and `-Infinity`
stand for the others.  A value with a whole number of too many digits is not written at all.

* `Datum.IsWritable` : that no whole number of a value has too many digits;
* `Json.line` : a value on one line;
* `Json.indented` : a value with one item or entry on a line, two spaces deeper than its list or
  dictionary.
-/
import SchemaDiagram.Datum
import SchemaDiagram.Number.DigitLimit

namespace SchemaDiagram

/-! ## Whole numbers of a value -/

namespace Datum

mutual

/-- The whole numbers that stand in a value. -/
def wholes : Datum → List Int
  | .int n => [n]
  | .list items => itemWholes items
  | .dict entries => entryWholes entries
  | _ => []

/-- The whole numbers that stand in the items of a list. -/
def itemWholes : List Datum → List Int
  | [] => []
  | d :: rest => d.wholes ++ itemWholes rest

/-- The whole numbers that stand in the entries of a dictionary. -/
def entryWholes : List (LooseText × Datum) → List Int
  | [] => []
  | (_, d) :: rest => d.wholes ++ entryWholes rest

end

/-- Whether a value can be written: none of its whole numbers has too many digits. -/
def IsWritable (d : Datum) : Prop := ∀ n ∈ d.wholes, digitCount n ≤ digitLimit

instance (d : Datum) : Decidable d.IsWritable :=
  inferInstanceAs (Decidable (∀ n ∈ d.wholes, digitCount n ≤ digitLimit))

end Datum

namespace Json

/-! ## Texts and numbers -/

/-- A code unit as an escape. -/
def unitEscape (unit : Nat) : List Char := '\\' :: 'u' :: Text.hexDigits 4 unit

/-- A character as it stands in a JSON text. -/
def escapeChar (c : Char) : List Char :=
  let n := c.toNat
  if c = '\\' ∨ c = '\x22' then ['\\', c]
  else if c = '\n' then ['\\', 'n']
  else if c = '\r' then ['\\', 'r']
  else if c = '\t' then ['\\', 't']
  else if n = 0x08 then ['\\', 'b']
  else if n = 0x0C then ['\\', 'f']
  else if 0x20 ≤ n ∧ n < 0x7F then [c]
  else if n < 0x10000 then unitEscape n
  else
    let m := n - 0x10000
    unitEscape (0xD800 + m / 0x400) ++ unitEscape (0xDC00 + m % 0x400)

/-- A character or a half as it stands in a JSON text. -/
def escapeLoose : LooseChar → List Char
  | .char c => escapeChar c
  | .half place => unitEscape (LooseChar.half place).toNat

/-- A text in quotes. -/
def quoted (t : LooseText) : String :=
  String.ofList ('\x22' :: (t.chars.flatMap escapeLoose ++ ['\x22']))

/-- The text of a double. -/
def realText : Binary64 → String
  | .nan => "NaN"
  | .infinite negative => if negative then "-Infinity" else "Infinity"
  | x => x.text

/-! ## Layout -/

/-- Items in brackets on one line. -/
def enclose (opening closing : String) (items : List String) : String :=
  opening ++ String.intercalate ", " items ++ closing

/-- Items in brackets, each on a line of its own at the given depth; none leave the brackets
together. -/
def encloseLines (depth : Nat) (opening closing : String) (items : List String) : String :=
  if items.isEmpty then opening ++ closing
  else
    let newline (n : Nat) := String.ofList ('\n' :: List.replicate (2 * n) ' ')
    opening ++ newline (depth + 1) ++ String.intercalate ("," ++ newline (depth + 1)) items ++
      newline depth ++ closing

mutual

/-- Writes a value, with brackets laid out by `layout` according to their depth. -/
def write (layout : Nat → String → String → List String → String) (depth : Nat) : Datum → String
  | .null => "null"
  | .bool b => if b then "true" else "false"
  | .int n => wholeText n
  | .real x => realText x
  | .text t => quoted t
  | .moment m => quoted m.literal
  | .list items => layout depth "[" "]" (writeItems layout (depth + 1) items)
  | .dict entries => layout depth "\x7b" "\x7d" (writeEntries layout (depth + 1) entries)

/-- Writes the items of a list. -/
def writeItems (layout : Nat → String → String → List String → String) (depth : Nat) :
    List Datum → List String
  | [] => []
  | d :: rest => write layout depth d :: writeItems layout depth rest

/-- Writes the entries of a dictionary. -/
def writeEntries (layout : Nat → String → String → List String → String) (depth : Nat) :
    List (LooseText × Datum) → List String
  | [] => []
  | (name, d) :: rest =>
    (quoted name ++ ": " ++ write layout depth d) :: writeEntries layout depth rest

end

/-- Writes a value with its brackets laid out by `layout`, if it can be written. -/
def writeWith (layout : Nat → String → String → List String → String) (d : Datum) :
    Except DigitFault String :=
  if d.IsWritable then .ok (write layout 0 d) else .error .unwritable

/-- A value on one line. -/
def line (d : Datum) : Except DigitFault String := writeWith (fun _ => enclose) d

/-- A value with one item or entry on a line. -/
def indented (d : Datum) : Except DigitFault String := writeWith encloseLines d

end Json

end SchemaDiagram
