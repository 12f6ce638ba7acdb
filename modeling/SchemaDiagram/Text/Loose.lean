/-
# Loose texts

An escape in a data file can name half of a surrogate pair without the other half.  A loose text
may hold such halves beside characters, so that nothing of a file is lost or confused.

* `LooseChar`, `LooseText` : what such a text is made of;
* `LooseText.ofString`, `LooseText.text` : from and to texts that hold characters alone;
* `LooseText.ofUnits` : the text of code units, with the halves of pairs joined.

Main statement: `LooseText.text_ofString`, so different strings are different loose texts.
-/

namespace SchemaDiagram

/-- A character, or half of a surrogate pair that stands alone. -/
inductive LooseChar where
  | char (c : Char)
  | half (place : Fin 0x800)
deriving DecidableEq, Repr

namespace LooseChar

/-- The code point. -/
def toNat : LooseChar → Nat
  | .char c => c.toNat
  | .half place => 0xD800 + place

/-- The character, or the replacement character for a half. -/
def character : LooseChar → Char
  | .char c => c
  | .half _ => '\uFFFD'

/-- What a code unit or code point stands for by itself. -/
def ofNat (n : Nat) : LooseChar :=
  if h : 0xD800 ≤ n ∧ n < 0xE000 then .half ⟨n - 0xD800, by omega⟩ else .char (Char.ofNat n)

end LooseChar

/-- A text in which halves of surrogate pairs may stand alone. -/
structure LooseText where
  chars : List LooseChar
deriving DecidableEq, Repr

namespace LooseText

/-- A string as a loose text. -/
def ofString (s : String) : LooseText := ⟨s.toList.map .char⟩

instance : Coe String LooseText := ⟨ofString⟩

instance : Append LooseText := ⟨fun s t => ⟨s.chars ++ t.chars⟩⟩

/-- The characters of a text, with the replacement character for each half that stands alone. -/
def text (t : LooseText) : String := String.ofList (t.chars.map LooseChar.character)

theorem text_ofString (s : String) : (ofString s).text = s := by
  have h : LooseChar.character ∘ LooseChar.char = id := rfl
  simp [text, ofString, h]

theorem ofString_injective : Function.Injective ofString :=
  Function.LeftInverse.injective text_ofString

/-- Texts with a separator between them. -/
def join (separator : String) (ts : List LooseText) : LooseText :=
  ⟨List.intercalate (ofString separator).chars (ts.map chars)⟩

/-- Whether a text comes before another one by code points, or is the same. -/
def atMost (s t : LooseText) : Bool :=
  !decide (t.chars.map LooseChar.toNat < s.chars.map LooseChar.toNat)

/-! ## Code units -/

/-- Whether two code units are the halves of a pair, in order. -/
def isPair (u v : Nat) : Bool := 0xD800 ≤ u && u < 0xDC00 && 0xDC00 ≤ v && v < 0xE000

/-- The character of a pair. -/
def pairChar (u v : Nat) : Char := Char.ofNat (0x10000 + (u - 0xD800) * 0x400 + (v - 0xDC00))

/-- The characters of code units; larger numbers stand for themselves. -/
def charsOfUnits : List Nat → List LooseChar
  | [] => []
  | [u] => [.ofNat u]
  | u :: v :: rest =>
    if isPair u v then .char (pairChar u v) :: charsOfUnits rest
    else .ofNat u :: charsOfUnits (v :: rest)

/-- The text of code units. -/
def ofUnits (units : List Nat) : LooseText := ⟨charsOfUnits units⟩

end LooseText

end SchemaDiagram
