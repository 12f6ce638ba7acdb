/-
# Reading TOML

A document is a list of statements, one on a line: an assignment, a heading, or nothing but a
comment.

* `Toml.value?` : a value;
* `Toml.statement?` : a statement at the head of a text;
* `Registry.ofToml?` : the data of a document.
-/
import SchemaDiagram.Toml.Scalar
import SchemaDiagram.Toml.Tree

namespace SchemaDiagram

namespace Toml

/-! ## Space and comments -/

/-- What follows a comment, if the text starts with one. -/
def skipComment? : List Char → Option (List Char)
  | '#' :: rest =>
    if (rest.takeWhile (· ≠ '\n')).any isControl then none
    else some (rest.dropWhile (· ≠ '\n'))
  | text => some text

/-- Skips blanks, newlines and comments, at most `fuel` comments. -/
def skipFiller? : (fuel : Nat) → List Char → Option (List Char)
  | 0, text => some text
  | fuel + 1, text => do
    match text.dropWhile fun c => isBlank c || c = '\n' with
    | '#' :: rest => skipFiller? fuel (← skipComment? ('#' :: rest))
    | rest => return rest

/-! ## Keys -/

/-- Whether a character may stand in a key without quotes. -/
def isBareKey (c : Char) : Bool := c.isAlphanum || c = '-' || c = '_'

/-- One part of a key. -/
def keyPart? : List Char → Option (String × List Char)
  | '\x27' :: rest => (literalText? rest).map fun (cs, rest) => (String.ofList cs, rest)
  | '\x22' :: rest => (basicText? rest).map fun (cs, rest) => (String.ofList cs, rest)
  | text =>
    match text.takeWhile isBareKey with
    | [] => none
    | part => some (String.ofList part, text.drop part.length)

/-- A key of at most `fuel` parts with points between them, and what follows it and the blanks
after it. -/
def key? : (fuel : Nat) → List Char → Option (List String × List Char)
  | 0, _ => none
  | fuel + 1, text => do
    let (part, rest) ← keyPart? text
    match skipBlanks rest with
    | '.' :: rest =>
      let (parts, rest) ← key? fuel (skipBlanks rest)
      return (part :: parts, rest)
    | rest => return ([part], rest)

/-! ## Values -/

/-- A text in any kind of quotes. -/
def text? : List Char → Option (List Char × List Char)
  | '\x22' :: '\x22' :: '\x22' :: rest => longText? '\x22' rest
  | '\x27' :: '\x27' :: '\x27' :: rest => longText? '\x27' rest
  | '\x22' :: rest => basicText? rest
  | '\x27' :: rest => literalText? rest
  | _ => none

mutual

/-- A value, and what follows it.  The fuel bounds how deep and how long it is. -/
def value? : (fuel : Nat) → List Char → Option (Datum × List Char)
  | 0, _ => none
  | fuel + 1, text =>
    match text with
    | '[' :: rest => do
      let (items, rest) ← items? fuel (← skipFiller? rest.length rest)
      return (.list items, rest)
    | '\x7b' :: rest =>
      match skipBlanks rest with
      | '\x7d' :: rest => some (.dict [], rest)
      | rest => do
        let (entries, rest) ← inline? fuel [] rest
        return (.dict (TomlNode.entriesDatum entries), rest)
    | c :: _ =>
      if c = '\x22' ∨ c = '\x27' then
        (text? text).map fun (cs, rest) => (.ofString (String.ofList cs), rest)
      else scalar? text
    | [] => none

/-- The items of a list up to its closing bracket. -/
def items? : (fuel : Nat) → List Char → Option (List Datum × List Char)
  | 0, _ => none
  | fuel + 1, text =>
    match text with
    | ']' :: rest => some ([], rest)
    | text => do
      let (d, rest) ← value? fuel text
      match ← skipFiller? rest.length rest with
      | ']' :: rest => return ([d], rest)
      | ',' :: rest =>
        let (items, rest) ← items? fuel (← skipFiller? rest.length rest)
        return (d :: items, rest)
      | _ => none

/-- The entries of a table in braces, up to its closing brace, after those already read. -/
def inline? : (fuel : Nat) → Entries → List Char → Option (Entries × List Char)
  | 0, _, _ => none
  | fuel + 1, entries, text => do
    let (key, rest) ← key? text.length text
    let (d, rest) ← value? fuel (skipBlanks (← after? '=' rest))
    let entries ← assign 0 d key entries
    match skipBlanks rest with
    | '\x7d' :: rest => return (entries, rest)
    | ',' :: rest => inline? fuel entries (skipBlanks rest)
    | _ => none

end

/-! ## Statements -/

/-- What a line of a document says. -/
inductive Statement where
  | nothing
  | assign (key : List String) (d : Datum)
  | table (key : List String)
  | item (key : List String)

/-- The statement at the head of a text, and what follows it. -/
def statement? (text : List Char) : Option (Statement × List Char) :=
  match text with
  | '[' :: '[' :: rest => do
    let (key, rest) ← key? rest.length (skipBlanks rest)
    return (.item key, ← after? ']' (← after? ']' rest))
  | '[' :: rest => do
    let (key, rest) ← key? rest.length (skipBlanks rest)
    return (.table key, ← after? ']' rest)
  | c :: _ =>
    if c = '\n' || c = '#' then some (.nothing, text)
    else do
      let (key, rest) ← key? text.length text
      let rest := skipBlanks (← after? '=' rest)
      let (d, rest) ← value? (2 * rest.length + 2) rest
      return (.assign key d, rest)
  | [] => some (.nothing, [])

/-- The statements of a text, at most `fuel` of them. -/
def statements? : (fuel : Nat) → List Char → Option (List Statement)
  | 0, _ => some []
  | fuel + 1, text => do
    let (s, rest) ← statement? (skipBlanks text)
    match ← skipComment? (skipBlanks rest) with
    | [] => return [s]
    | '\n' :: rest => return s :: (← statements? fuel rest)
    | _ => none

/-! ## Documents -/

/-- A document under construction: its tables, the current heading, and the number of the current
section. -/
structure Draft where
  entries : Entries
  heading : List String
  current : Nat

/-- A document after a further statement. -/
def Draft.step (d : Draft) : Statement → Option Draft
  | .nothing => some d
  | .assign key value => do
    return { d with entries := ← editAt (assign d.current value key) d.heading d.entries }
  | .table key => do
    let last ← key.getLast?
    let entries ← editAt (declareTable (d.current + 1) last) key.dropLast d.entries
    return ⟨entries, key, d.current + 1⟩
  | .item key => do
    let last ← key.getLast?
    let entries ← editAt (declareItem last) key.dropLast d.entries
    return ⟨entries, key, d.current + 1⟩

/-- A text in which a carriage return before a newline is left out. -/
def plainNewlines : List Char → List Char
  | '\r' :: '\n' :: rest => '\n' :: plainNewlines rest
  | c :: rest => c :: plainNewlines rest
  | [] => []

end Toml

/-- The data of a TOML document. -/
def Registry.ofToml? (text : List Char) : Option (Registry Datum LooseText) := do
  let text := Toml.plainNewlines text
  let statements ← Toml.statements? (text.length + 1) text
  let draft ← statements.foldlM Toml.Draft.step ⟨[], [], 0⟩
  return .ofList (TomlNode.entriesDatum draft.entries)

end SchemaDiagram
