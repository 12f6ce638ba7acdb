/-
# The tables of a TOML document

A document is built statement by statement.  A table that a statement defines may not be defined
again by a later section; a table that is only on the way to another one may be defined once.

* `TomlNode` : a value, a table, or an array of tables;
* `Toml.assign` : a key and its value, which must be new;
* `Toml.declareTable`, `Toml.declareItem` : the headings `[a.b]` and `[[a.b]]`;
* `TomlNode.datum` : the data of a node.
-/
import SchemaDiagram.Datum

namespace SchemaDiagram

/-- What a key of a document stands for.  Sections are counted from zero, and a table knows the
section by which it is defined, if it is.  The last item of an array of tables is still open. -/
inductive TomlNode where
  | value (d : Datum)
  | table (definedBy : Option Nat) (entries : List (String × TomlNode))
  | array (complete : List Datum) (last : List (String × TomlNode))

namespace TomlNode

mutual

/-- The data of a node. -/
def datum : TomlNode → Datum
  | .value d => d
  | .table _ entries => .dict (entriesDatum entries)
  | .array complete last => .list (complete ++ [.dict (entriesDatum last)])

/-- The data of the entries of a table. -/
def entriesDatum : List (String × TomlNode) → List (LooseText × Datum)
  | [] => []
  | (key, node) :: rest => (key, node.datum) :: entriesDatum rest

end

end TomlNode

namespace Toml

/-- The entries of a table. -/
abbrev Entries := List (String × TomlNode)

/-- Puts a value under a key, from the table in which the key is read.  Tables on the way are
defined by the current section; those of another section may not be entered, nor may values and
arrays. -/
def assign (current : Nat) (d : Datum) : (key : List String) → Entries → Option Entries
  | [], _ => none
  | [k], entries =>
    if (entries.lookup k).isSome then none else some (Registry.put k (.value d) entries)
  | k :: rest, entries =>
    match entries.lookup k with
    | none => do
      return Registry.put k (.table (some current) (← assign current d rest [])) entries
    | some (.table definedBy inner) =>
      if definedBy.all (· = current) then do
        return Registry.put k (.table (some current) (← assign current d rest inner)) entries
      else none
    | some _ => none

/-- Changes the entries of the table at a path.  Missing tables are made, and the last item of an
array of tables is entered. -/
def editAt (edit : Entries → Option Entries) : (path : List String) → Entries → Option Entries
  | [], entries => edit entries
  | k :: rest, entries =>
    match entries.lookup k with
    | none => do return Registry.put k (.table none (← editAt edit rest [])) entries
    | some (.table definedBy inner) => do
      return Registry.put k (.table definedBy (← editAt edit rest inner)) entries
    | some (.array complete last) => do
      return Registry.put k (.array complete (← editAt edit rest last)) entries
    | some (.value _) => none

/-- Defines the table of a heading, which no section may have defined. -/
def declareTable (current : Nat) (k : String) (entries : Entries) : Option Entries :=
  match entries.lookup k with
  | none => some (Registry.put k (.table (some current) []) entries)
  | some (.table none inner) => some (Registry.put k (.table (some current) inner) entries)
  | some _ => none

/-- Opens a new item of an array of tables. -/
def declareItem (k : String) (entries : Entries) : Option Entries :=
  match entries.lookup k with
  | none => some (Registry.put k (.array [] []) entries)
  | some (.array complete last) =>
    let items := complete ++ [.dict (TomlNode.entriesDatum last)]
    some (Registry.put k (.array items []) entries)
  | some _ => none

end Toml

end SchemaDiagram
