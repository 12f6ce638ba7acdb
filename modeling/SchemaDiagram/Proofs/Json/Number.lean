/-
# Numbers in JSON text

A number is read from its digits, its point and its exponent, as long as the text that follows
cannot be a part of it.

* `EndsNumber` : where a number ends;
* `JsonToken.number?_digits` : a whole number;
* `JsonToken.number?_text` : a numeral with a point or an exponent.
-/
import Mathlib.Tactic.Common
import SchemaDiagram.Json.Token
import SchemaDiagram.Proofs.Number.Literal

namespace SchemaDiagram

open Decimal

/-- Whether a number ends in front of a text: it begins with nothing that can go on with one. -/
def EndsNumber (rest : List Char) : Prop :=
  ∀ c ∈ rest.head?, c.isDigit = false ∧ c ≠ '.' ∧ c ≠ 'e' ∧ c ≠ 'E'

theorem EndsNumber.endsDigits {rest : List Char} (h : EndsNumber rest) : EndsDigits rest :=
  fun c hc => (h c hc).1

namespace JsonToken

/-! ## Exponents -/

/-- An exponent mark is read as its exponent. -/
theorem exponentPart_exponentMark (e : ℤ) {rest : List Char} (hrest : EndsDigits rest) :
    exponentPart (exponentMark e ++ rest) = some ((exponentMark e).length, e) := by
  obtain ⟨digits, hmark, hne, hdigits, hvalue⟩ := exponentMark_eq e
  have hempty : digits.isEmpty = false := List.isEmpty_eq_false_iff.2 hne
  have hwidth : ∀ c : Char, 1 + ((c :: (digits ++ rest)).length - (digits ++ rest).length) +
      digits.length = ('e' :: c :: digits).length := fun c => by
    simp only [List.length_cons]
    omega
  rw [hmark]
  by_cases hneg : e < 0
  · have hsize : -((e.natAbs : ℕ) : ℤ) = e := by omega
    rw [if_pos hneg, List.cons_append, List.cons_append, exponentPart]
    simp only [takeSign, takeWhile_isDigit hdigits hrest, hempty, hvalue, hwidth, hsize]
    rfl
  · have hsize : ((e.natAbs : ℕ) : ℤ) = e := by omega
    rw [if_neg hneg, List.cons_append, List.cons_append, exponentPart]
    simp only [takeSign, takeWhile_isDigit hdigits hrest, hempty, hvalue, hwidth, hsize]
    rfl

/-- A text that does not begin with an exponent mark has no exponent. -/
theorem exponentPart_eq_none {rest : List Char} (hrest : EndsNumber rest) :
    exponentPart rest = none := by
  cases rest with
  | nil => rfl
  | cons c rest =>
    obtain ⟨-, -, hlower, hupper⟩ := hrest c rfl
    rw [exponentPart, if_neg (not_or.2 ⟨hlower, hupper⟩)]

/-! ## Digits -/

/-- Digits that begin as those of a number do are taken up to their end. -/
theorem wholeDigits_append {digits rest : List Char} (h : ∀ c ∈ digits, c.isDigit = true)
    (hleads : Leads digits) (hrest : EndsDigits rest) : wholeDigits (digits ++ rest) = digits := by
  rcases hleads with rfl | ⟨hne, hhead⟩
  · rfl
  · obtain ⟨c, cs, rfl⟩ := List.exists_cons_of_ne_nil hne
    have hc : c ≠ '0' := fun hc => hhead (congrArg some hc)
    have hrun : wholeDigits (c :: cs ++ rest) = (c :: cs ++ rest).takeWhile Char.isDigit := by
      rw [List.cons_append, wholeDigits]
      intro tail htail
      exact hc (List.cons.inj htail).1
    rw [hrun, takeWhile_isDigit h hrest]

/-- The digits behind a point are taken up to their end. -/
theorem fractionDigits_pointText {n : Numeral} {rest : List Char}
    (h : ∀ c ∈ n.fraction, c.isDigit = true) (hrest : EndsDigits rest)
    (hpoint : rest.head? ≠ some '.') : fractionDigits (n.pointText ++ rest) = n.fraction := by
  rw [Numeral.pointText]
  split
  · next hnil =>
    rw [hnil, List.nil_append, fractionDigits]
    intro tail htail
    rw [htail] at hpoint
    exact hpoint rfl
  · rw [List.cons_append, fractionDigits]
    exact takeWhile_isDigit h hrest

/-! ## Numbers -/

/-- The digits of a whole number are read together. -/
theorem number?_digits {digits rest : List Char} (h : ∀ c ∈ digits, c.isDigit = true)
    (hleads : Leads digits) (hrest : EndsNumber rest) (negative : Bool) :
    number? negative (digits ++ rest) = some (ofWhole negative digits, rest) := by
  have hne : digits.isEmpty = false := List.isEmpty_eq_false_iff.2 hleads.ne_nil
  have hfraction : fractionDigits rest = [] := by
    rw [fractionDigits]
    intro tail htail
    rw [htail] at hrest
    exact (hrest '.' rfl).2.1 rfl
  rw [number?]
  simp only [wholeDigits_append h hleads hrest.endsDigits, List.drop_left, hfraction, hne,
    List.isEmpty_nil, List.drop_zero, exponentPart_eq_none hrest, if_true, Bool.false_eq_true,
    if_false]

/-- The exponent mark of a numeral ends its digits, and so does what follows the numeral. -/
theorem endsDigits_markText {n : Numeral} {rest : List Char} (hrest : EndsNumber rest) :
    EndsDigits (n.markText ++ rest) ∧ (n.markText ++ rest).head? ≠ some '.' := by
  rw [Numeral.markText]
  cases n.exponent with
  | none => exact ⟨hrest.endsDigits, fun h => (hrest '.' h).2.1 rfl⟩
  | some e =>
    refine ⟨fun c hc => ?_, fun h => absurd (Option.some.inj h) (by decide)⟩
    rw [← Option.some.inj hc]
    rfl

/-- The exponent mark of a numeral is read as its exponent. -/
theorem exponentPart_markText {n : Numeral} {rest : List Char} (hrest : EndsNumber rest) :
    exponentPart (n.markText ++ rest) = n.exponent.map fun e => ((exponentMark e).length, e) := by
  rw [Numeral.markText]
  cases n.exponent with
  | none => exact exponentPart_eq_none hrest
  | some e => exact exponentPart_exponentMark e hrest.endsDigits

/-- **A numeral** with a point or an exponent is read as the double nearest to what it says. -/
theorem number?_text {n : Numeral} {rest : List Char} (hn : n.Regular) (hreal : n.IsReal)
    (hrest : EndsNumber rest) (negative : Bool) :
    number? negative (n.text ++ rest) =
      some (.scalar (.real (n.decimal negative).toBinary64), rest) := by
  obtain ⟨hmark, hpoint⟩ := endsDigits_markText (n := n) hrest
  have htext : n.text ++ rest = n.whole ++ (n.pointText ++ (n.markText ++ rest)) := by
    rw [Numeral.text, List.append_assoc, List.append_assoc]
  have hends : EndsDigits (n.pointText ++ (n.markText ++ rest)) := by
    rw [Numeral.pointText]
    split
    · exact hmark
    · intro c hc
      rw [← Option.some.inj hc]
      rfl
  have hne : n.whole.isEmpty = false := List.isEmpty_eq_false_iff.2 hn.leads.ne_nil
  have hwidth : (if n.fraction.isEmpty then 0 else n.fraction.length + 1) = n.pointText.length := by
    rw [Numeral.pointText]
    cases n.fraction with
    | nil => rfl
    | cons c cs => rfl
  rw [number?]
  simp only [htext, wholeDigits_append hn.whole hn.leads hends, List.drop_left,
    fractionDigits_pointText hn.fraction hmark hpoint, hne, hwidth, exponentPart_markText hrest,
    Bool.false_eq_true, if_false]
  have hdrop : (n.pointText ++ (n.markText ++ rest)).drop
      (n.pointText.length + n.markText.length) = rest := by
    rw [← List.append_assoc, ← List.length_append, List.drop_left]
  rw [Numeral.decimal]
  cases hexponent : n.exponent with
  | some e =>
    have hmarkText : n.markText = exponentMark e := by rw [Numeral.markText, hexponent]; rfl
    rw [hmarkText] at hdrop ⊢
    exact congrArg (fun rest' => some (JsonToken.scalar (.real _), rest')) hdrop
  | none =>
    have hmarkText : n.markText = [] := by rw [Numeral.markText, hexponent]; rfl
    rw [hmarkText] at hdrop ⊢
    -- without an exponent there is a point, so the number is not read as a whole one
    rw [Numeral.IsReal, hexponent] at hreal
    cases hfraction : n.fraction with
    | nil =>
      rcases hreal with hne | hsome
      · exact absurd hfraction hne
      · exact absurd hsome Bool.false_ne_true
    | cons c cs => exact congrArg (fun rest' => some (JsonToken.scalar (.real _), rest')) hdrop

end JsonToken

end SchemaDiagram
