/-
# Literals

The text that is written for a double is read back as its digits say, whatever the layout.

* `EndsDigits` : where a run of digits ends;
* `Decimal.Numeral.ofText?_text` : a numeral is read as the decimal that it says;
* `Binary64.readBack`, `Binary64.ofText?_writeWith` : what the text of a double is read as;
* `Binary64.ofText?_text` : full texts give the double back;
* `Binary64.blank_not_mem_writeWith` : such texts are words without blanks.
-/
import Mathlib.Tactic.Common
import SchemaDiagram.Proofs.Number.Nearest
import SchemaDiagram.Proofs.Number.Numeral

namespace SchemaDiagram

open Decimal

/-! ## Runs of digits -/

/-- Whether a run of digits ends in front of a text. -/
def EndsDigits (rest : List Char) : Prop := ∀ c ∈ rest.head?, c.isDigit = false

/-- A run of digits is taken up to its end. -/
theorem takeWhile_isDigit {digits rest : List Char} (h : ∀ c ∈ digits, c.isDigit = true)
    (hrest : EndsDigits rest) : (digits ++ rest).takeWhile Char.isDigit = digits := by
  rw [List.takeWhile_append_of_pos h]
  cases rest with
  | nil => exact List.append_nil _
  | cons c rest =>
    have hc : ¬c.isDigit = true := by
      rw [hrest c rfl]
      exact Bool.false_ne_true
    rw [List.takeWhile_cons_of_neg hc, List.append_nil]

theorem dropWhile_isDigit {digits rest : List Char} (h : ∀ c ∈ digits, c.isDigit = true)
    (hrest : EndsDigits rest) : (digits ++ rest).dropWhile Char.isDigit = rest := by
  rw [List.dropWhile_append_of_pos h]
  cases rest with
  | nil => rfl
  | cons c rest =>
    have hc : ¬c.isDigit = true := by
      rw [hrest c rfl]
      exact Bool.false_ne_true
    exact List.dropWhile_cons_of_neg hc

/-! ## Exponents -/

/-- An exponent mark has its sign and digits that denote its size. -/
theorem exponentMark_eq (e : ℤ) :
    ∃ digits, exponentMark e = 'e' :: (if e < 0 then '-' else '+') :: digits ∧ digits ≠ [] ∧
      (∀ c ∈ digits, c.isDigit = true) ∧ ofDigits digits = e.natAbs := by
  refine ⟨_, rfl, ?_, ?_, ?_⟩
  · split
    · exact List.cons_ne_nil _ _
    · exact Nat.toDigits_ne_nil
  · split
    · exact List.forall_mem_cons.2 ⟨rfl, isDigit_of_mem_toDigits⟩
    · exact isDigit_of_mem_toDigits
  · split
    · exact ofDigits_toDigits _
    · exact ofDigits_toDigits _

/-- An exponent mark is read as its exponent. -/
theorem exponentOfText?_exponentMark (e : ℤ) : exponentOfText? (exponentMark e) = some e := by
  obtain ⟨digits, hmark, hne, hdigits, hvalue⟩ := exponentMark_eq e
  have hempty : digits.isEmpty = false := List.isEmpty_eq_false_iff.2 hne
  have hall : digits.all Char.isDigit = true := List.all_eq_true.2 hdigits
  rw [hmark, exponentOfText?, if_pos (Or.inl rfl)]
  by_cases hneg : e < 0
  · have hsize : -((e.natAbs : ℕ) : ℤ) = e := by omega
    simp only [if_pos hneg, takeSign, hempty, hall, hvalue, hsize]
    rfl
  · have hsize : ((e.natAbs : ℕ) : ℤ) = e := by omega
    simp only [if_neg hneg, takeSign, hempty, hall, hvalue, hsize]
    rfl

/-! ## Numerals -/

namespace Decimal.Numeral

variable {n : Numeral}

/-- The exponent mark of a numeral is read as its exponent; none is zero. -/
theorem exponentOfText?_markText : exponentOfText? n.markText = some (n.exponent.getD 0) := by
  rw [markText]
  cases n.exponent with
  | none => rfl
  | some e => exact exponentOfText?_exponentMark e

theorem endsDigits_markText : EndsDigits n.markText := by
  intro c hc
  rw [markText] at hc
  cases hexponent : n.exponent with
  | none =>
    rw [hexponent] at hc
    exact absurd hc (by simp)
  | some e =>
    rw [hexponent] at hc
    rw [← Option.some.inj hc]
    rfl

/-- A numeral begins with a digit, and so not with a sign or a letter. -/
theorem Regular.exists_cons (hn : n.Regular) : ∃ c cs, n.text = c :: cs ∧ c.isDigit = true := by
  obtain ⟨c, cs, hwhole⟩ := List.exists_cons_of_ne_nil hn.leads.ne_nil
  exact ⟨c, _, by rw [text, hwhole, List.cons_append], hn.whole c (hwhole ▸ List.mem_cons_self)⟩

/-- A sign in front of a numeral is read as this sign. -/
theorem Regular.takeSign (hn : n.Regular) (negative : Bool) :
    takeSign ((if negative then ['-'] else []) ++ n.text) = (negative, n.text) := by
  cases negative with
  | true => rfl
  | false =>
    obtain ⟨c, cs, htext, hc⟩ := hn.exists_cons
    rw [if_neg Bool.false_ne_true, List.nil_append, htext]
    unfold Decimal.takeSign
    split
    · next hsign =>
      rw [(List.cons.inj hsign).1] at hc
      exact absurd hc (by decide)
    · next hsign =>
      rw [(List.cons.inj hsign).1] at hc
      exact absurd hc (by decide)
    · rfl

/-- **A numeral** behind a sign is read as the decimal that it says. -/
theorem Regular.ofText?_text (hn : n.Regular) (negative : Bool) :
    Decimal.ofText? ((if negative then ['-'] else []) ++ n.text) = some (n.decimal negative) := by
  have hends : EndsDigits (n.pointText ++ n.markText) := by
    rw [pointText]
    split
    · exact endsDigits_markText
    · intro c hc
      rw [← Option.some.inj hc]
      rfl
  have hne : n.whole.isEmpty = false := List.isEmpty_eq_false_iff.2 hn.leads.ne_nil
  rw [Decimal.ofText?, hn.takeSign]
  simp only [text, takeWhile_isDigit hn.whole hends, dropWhile_isDigit hn.whole hends, hne,
    Bool.false_and, Bool.false_eq_true, if_false]
  by_cases hnil : n.fraction = []
  · -- without a point, what follows the digits is an exponent mark or nothing
    have hpoint : ∀ tail, n.markText ≠ '.' :: tail := by
      intro tail htail
      rw [markText] at htail
      cases hexponent : n.exponent with
      | none =>
        rw [hexponent] at htail
        cases htail
      | some e =>
        rw [hexponent] at htail
        exact absurd (List.cons.inj htail).1 (by decide)
    rw [pointText, if_pos hnil, List.nil_append]
    split
    · next tail htail => exact absurd htail (hpoint tail)
    · rw [exponentOfText?_markText, decimal, hnil]
      rfl
  · have hfraction := takeWhile_isDigit hn.fraction (endsDigits_markText (n := n))
    have hrest := dropWhile_isDigit hn.fraction (endsDigits_markText (n := n))
    simp only [pointText, if_neg hnil, List.cons_append, hfraction, hrest,
      exponentOfText?_markText]
    rfl

/-- A numeral consists of digits, its point, and the characters of its exponent mark. -/
theorem Regular.isDigit_or_mem (hn : n.Regular) :
    ∀ c ∈ n.text, c.isDigit = true ∨ c ∈ ['.', 'e', '+', '-'] := by
  have hpoint : ∀ c ∈ n.pointText, c.isDigit = true ∨ c ∈ ['.', 'e', '+', '-'] := by
    intro c hc
    rw [pointText] at hc
    split at hc
    · exact absurd hc List.not_mem_nil
    · rcases List.mem_cons.1 hc with rfl | hc
      · exact Or.inr (by decide)
      · exact Or.inl (hn.fraction c hc)
  have hmark : ∀ c ∈ n.markText, c.isDigit = true ∨ c ∈ ['.', 'e', '+', '-'] := by
    intro c hc
    rw [markText] at hc
    cases hexponent : n.exponent with
    | none =>
      rw [hexponent] at hc
      exact absurd hc List.not_mem_nil
    | some e =>
      obtain ⟨digits, hmark, -, hdigits, -⟩ := exponentMark_eq e
      rw [hexponent, Option.elim_some, hmark, List.mem_cons, List.mem_cons] at hc
      rcases hc with rfl | rfl | hc
      · exact Or.inr (by decide)
      · refine Or.inr ?_
        split <;> decide
      · exact Or.inl (hdigits c hc)
  intro c hc
  rw [text, List.mem_append, List.mem_append] at hc
  rcases hc with hc | hc | hc
  · exact Or.inl (hn.whole c hc)
  · exact hpoint c hc
  · exact hmark c hc

end Decimal.Numeral

/-! ## Doubles -/

namespace Binary64

/-- What is read from the digits that are chosen for a double. -/
def readBack (choose : Place → Decimal) : Binary64 → Binary64
  | .nan => .nan
  | .infinite negative => .infinite negative
  | .finite negative place => Decimal.toBinary64 { choose place with negative := negative }

/-- The text of a decimal is read as the double nearest to it. -/
theorem ofText?_write (f : Decimal.Layout) (d : Decimal) :
    ofText? (d.write f).toList = some d.toBinary64 := by
  have hn : (d.numeral f).Regular := regular_numeral
  obtain ⟨c, cs, htext, hc⟩ := hn.exists_cons
  have hsame : ((d.numeral f).decimal d.negative).toBinary64 = d.toBinary64 :=
    toBinary64_congr rfl (magnitude_numeral d.negative)
  rw [ofText?, toList_write, hn.takeSign, hn.ofText?_text, Option.map_some, hsame]
  dsimp only
  -- a numeral is no word
  split
  · next hword =>
    rw [htext] at hword
    rw [(List.cons.inj hword).1] at hc
    exact absurd hc (by decide)
  · next hword =>
    rw [htext] at hword
    rw [(List.cons.inj hword).1] at hc
    exact absurd hc (by decide)
  · rfl

/-- **The text of a double** is read as its digits say. -/
theorem ofText?_writeWith (f : Decimal.Layout) (choose : Place → Decimal) (x : Binary64) :
    ofText? (writeWith f choose x).toList = some (x.readBack choose) := by
  cases x with
  | nan =>
    show ofText? "nan".toList = some .nan
    decide
  | infinite negative =>
    cases negative with
    | false =>
      show ofText? "inf".toList = some (.infinite false)
      decide
    | true =>
      show ofText? "-inf".toList = some (.infinite true)
      decide
  | finite negative place => exact ofText?_write f _

/-- The text of a double has no blanks. -/
theorem blank_not_mem_writeWith (f : Decimal.Layout) (choose : Place → Decimal) (x : Binary64) :
    ' ' ∉ (writeWith f choose x).toList := by
  cases x with
  | nan =>
    show ' ' ∉ "nan".toList
    decide
  | infinite negative =>
    cases negative with
    | false =>
      show ' ' ∉ "inf".toList
      decide
    | true =>
      show ' ' ∉ "-inf".toList
      decide
  | finite negative place =>
    intro hblank
    rw [writeWith, toList_write, List.mem_append] at hblank
    rcases hblank with hblank | hblank
    · split at hblank
      · exact absurd hblank (by decide)
      · exact absurd hblank List.not_mem_nil
    · exact absurd (regular_numeral.isDigit_or_mem ' ' hblank) (by decide)

/-- The full text of a double is read as this double. -/
theorem ofText?_text (x : Binary64) : ofText? x.text.toList = some x := by
  rw [text, ofText?_writeWith]
  cases x with
  | nan => rfl
  | infinite negative => rfl
  | finite negative place => exact congrArg some (toBinary64_shortest negative place)

end Binary64

end SchemaDiagram
