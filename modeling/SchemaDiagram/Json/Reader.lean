/-
# Reading JSON

The tokens of a JSON text drive a machine whose state says what may come next and which lists
and dictionaries are still open.  A name that is repeated in a dictionary keeps its first place
and takes its last value.

* `JsonState` : the states;
* `JsonState.step` : the state after a token, unless the token may not come;
* `Datum.ofJson` : the value of a text, or why it has none: the first thing that is wrong with it.
-/
import SchemaDiagram.Json.Token

namespace SchemaDiagram

/-- Why a text has no value. -/
inductive JsonFault where
  | malformed
  | digits (fault : DigitFault)
deriving DecidableEq, Repr

/-- A list or dictionary that is still open.  The items of a list are held last first; a
dictionary waits for the value of its last name. -/
inductive JsonFrame where
  | list (items : List Datum)
  | dict (entries : List (LooseText × Datum)) (name : LooseText)

/-- What may come next, inside the open lists and dictionaries, the innermost first. -/
inductive JsonState where
  /-- A value. -/
  | value (outer : List JsonFrame)
  /-- The first item of a list, or its end. -/
  | firstItem (outer : List JsonFrame)
  /-- The first name of a dictionary, or its end. -/
  | firstName (outer : List JsonFrame)
  /-- A further name of a dictionary. -/
  | name (entries : List (LooseText × Datum)) (outer : List JsonFrame)
  /-- The colon after a name. -/
  | colon (entries : List (LooseText × Datum)) (name : LooseText) (outer : List JsonFrame)
  /-- What follows a complete value. -/
  | after (d : Datum) (outer : List JsonFrame)

namespace JsonState

/-- The state after the first token of a value. -/
def begin (outer : List JsonFrame) : JsonToken → Except JsonFault JsonState
  | .openList => .ok (.firstItem outer)
  | .openDict => .ok (.firstName outer)
  | .text s => .ok (.after (.text s) outer)
  | .scalar d => .ok (.after d outer)
  | .tooLong digits => .error (.digits (.unreadable digits))
  | _ => .error .malformed

/-- The state after a token. -/
def step : JsonState → JsonToken → Except JsonFault JsonState
  | .value outer, t => begin outer t
  | .firstItem outer, .closeList => .ok (.after (.list []) outer)
  | .firstItem outer, t => begin (.list [] :: outer) t
  | .firstName outer, .closeDict => .ok (.after (.dict []) outer)
  | .firstName outer, .text s => .ok (.colon [] s outer)
  | .name entries outer, .text s => .ok (.colon entries s outer)
  | .colon entries key outer, .colon => .ok (.value (.dict entries key :: outer))
  | .after d (.list items :: outer), .comma => .ok (.value (.list (d :: items) :: outer))
  | .after d (.list items :: outer), .closeList => .ok (.after (.list (d :: items).reverse) outer)
  | .after d (.dict entries key :: outer), .comma =>
    .ok (.name (Registry.put key d entries) outer)
  | .after d (.dict entries key :: outer), .closeDict =>
    .ok (.after (.dict (Registry.put key d entries)) outer)
  | _, _ => .error .malformed

/-- The value that is complete with nothing left open. -/
def result : JsonState → Except JsonFault Datum
  | .after d [] => .ok d
  | _ => .error .malformed

end JsonState

/-- The value of a list of tokens. -/
def Datum.ofJsonTokens (tokens : List JsonToken) : Except JsonFault Datum := do
  (← tokens.foldlM JsonState.step (.value [])).result

/-- The value of a JSON text. -/
def Datum.ofJson (text : List Char) : Except JsonFault Datum :=
  Datum.ofJsonTokens (JsonToken.ofText text)

end SchemaDiagram
