/-
# Numerals

The text of a decimal is a numeral: digits, perhaps a point with more digits, and perhaps an
exponent.  Whatever the layout, its parts denote the magnitude that is written.

* `Decimal.Numeral` : a numeral in its parts, and what it says;
* `Decimal.numeral`, `Decimal.toList_write` : the numeral that is written for a decimal;
* `Decimal.regular_numeral` : its digits begin as those of a number do;
* `Decimal.magnitude_numeral` : it says the magnitude of the decimal.
-/
import Mathlib.Algebra.Field.Rat
import Mathlib.Algebra.GroupWithZero.Basic
import Mathlib.Data.Rat.Cast.Defs
import Mathlib.Tactic.NormNum
import SchemaDiagram.Proofs.Number.Digits

namespace SchemaDiagram

namespace Decimal

/-! ## Parts -/

/-- A numeral: the digits before and behind its point, and its exponent where one is written. -/
structure Numeral where
  whole : List Char
  fraction : List Char
  exponent : Option Int

namespace Numeral

/-- The point of a numeral with the digits behind it; without digits there is no point. -/
def pointText (n : Numeral) : List Char := if n.fraction = [] then [] else '.' :: n.fraction

/-- The exponent mark of a numeral, where it has one. -/
def markText (n : Numeral) : List Char := n.exponent.elim [] exponentMark

/-- The text of a numeral. -/
def text (n : Numeral) : List Char := n.whole ++ (n.pointText ++ n.markText)

/-- What a numeral says behind a sign. -/
def decimal (n : Numeral) (negative : Bool) : Decimal :=
  .ofParts negative n.whole n.fraction (n.exponent.getD 0)

/-- Whether a numeral has a point or an exponent. -/
def IsReal (n : Numeral) : Prop := n.fraction ≠ [] ∨ n.exponent.isSome

end Numeral

/-- Whether digits begin as those of a number do: with a zero only if that is all. -/
def Leads (digits : List Char) : Prop := digits = ['0'] ∨ (digits ≠ [] ∧ digits.head? ≠ some '0')

theorem Leads.ne_nil {digits : List Char} (h : Leads digits) : digits ≠ [] := by
  rcases h with rfl | ⟨hne, -⟩
  · exact List.cons_ne_nil _ _
  · exact hne

/-- A numeral of digits, of which those before the point begin as those of a number do. -/
structure Numeral.Regular (n : Numeral) : Prop where
  whole : ∀ c ∈ n.whole, c.isDigit = true
  leads : Leads n.whole
  fraction : ∀ c ∈ n.fraction, c.isDigit = true

/-! ## Layouts -/

/-- The numeral that is laid out for digits of which the first has the exponent `lead`. -/
def Layout.numeral (f : Layout) (digits : List Char) (lead : Int) : Numeral :=
  if lead < f.plainFrom ∨ f.plainBelow ≤ lead then ⟨digits.take 1, digits.drop 1, some lead⟩
  else if lead < 0 then ⟨['0'], List.replicate (-lead - 1).toNat '0' ++ digits, none⟩
  else
    let width := (lead + 1).toNat
    if digits.length ≤ width then
      ⟨digits ++ List.replicate (width - digits.length) '0', if f.pointZero then ['0'] else [],
        none⟩
    else ⟨digits.take width, digits.drop width, none⟩

variable {f : Layout} {digits : List Char} {lead : Int}

/-- The text of the numeral is the layout. -/
theorem Layout.text_numeral (h : digits ≠ []) :
    (f.numeral digits lead).text = f.place digits lead := by
  rw [numeral, place]
  split
  · have hshort : digits.length < 2 ↔ digits.drop 1 = [] := by
      rw [List.drop_eq_nil_iff]
      omega
    simp only [Numeral.text, Numeral.pointText, hshort]
    exact (List.append_assoc _ _ _).symm
  · split
    · simp [Numeral.text, Numeral.pointText, Numeral.markText, h]
    · dsimp only
      split
      · cases f.pointZero with
        | true => simp [Numeral.text, Numeral.pointText, Numeral.markText]
        | false => simp [Numeral.text, Numeral.pointText, Numeral.markText]
      · next hlong =>
        have hmore : digits.drop (lead + 1).toNat ≠ [] := by
          rw [ne_eq, List.drop_eq_nil_iff]
          exact hlong
        simp [Numeral.text, Numeral.pointText, Numeral.markText, hmore]

theorem Layout.isReal_numeral (hpoint : f.pointZero = true) (h : digits ≠ []) :
    (f.numeral digits lead).IsReal := by
  rw [numeral]
  split
  · exact Or.inr rfl
  · split
    · exact Or.inl (List.append_ne_nil_of_right_ne_nil _ h)
    · dsimp only
      split
      · exact Or.inl (List.cons_ne_nil _ _)
      · next hlong =>
        refine Or.inl ?_
        rw [ne_eq, List.drop_eq_nil_iff]
        exact hlong

theorem Leads.take {n : ℕ} (h : Leads digits) (hn : 0 < n) : Leads (digits.take n) := by
  obtain ⟨k, rfl⟩ := Nat.exists_eq_add_one.2 hn
  rcases h with rfl | ⟨hne, hhead⟩
  · exact Or.inl (by simp)
  · obtain ⟨c, rest, rfl⟩ := List.exists_cons_of_ne_nil hne
    exact Or.inr ⟨List.cons_ne_nil _ _, hhead⟩

/-- The numeral of digits that begin as those of a number do is regular; a zero must stand alone. -/
theorem Layout.regular_numeral (hdigits : ∀ c ∈ digits, c.isDigit = true) (hleads : Leads digits)
    (hzero : digits = ['0'] → lead = 0) : (f.numeral digits lead).Regular := by
  have hreplicate : ∀ n, ∀ c ∈ List.replicate n '0', c.isDigit = true := fun n c hc => by
    rw [List.eq_of_mem_replicate hc]
    rfl
  rw [numeral]
  split
  · exact {
      whole := fun c hc => hdigits c (List.mem_of_mem_take hc)
      leads := hleads.take Nat.one_pos
      fraction := fun c hc => hdigits c (List.mem_of_mem_drop hc) }
  · split
    · exact {
        whole := hreplicate 1
        leads := Or.inl rfl
        fraction := List.forall_mem_append.2 ⟨hreplicate _, hdigits⟩ }
    · next hlead =>
      have hwidth : 0 < (lead + 1).toNat := by omega
      dsimp only
      split
      · refine {
          whole := List.forall_mem_append.2 ⟨hdigits, hreplicate _⟩
          leads := ?_
          fraction := ?_ }
        · rcases hleads with hone | ⟨hne, hhead⟩
          · rw [hone, hzero hone]
            exact Or.inl rfl
          · refine Or.inr ⟨List.append_ne_nil_of_left_ne_nil hne _, ?_⟩
            rwa [List.head?_append_of_ne_nil _ hne]
        · cases f.pointZero with
          | true => exact hreplicate 1
          | false => exact List.forall_mem_nil _
      · exact {
          whole := fun c hc => hdigits c (List.mem_of_mem_take hc)
          leads := hleads.take hwidth
          fraction := fun c hc => hdigits c (List.mem_of_mem_drop hc) }

/-- The numeral says its digits, the first of them with the exponent `lead`. -/
theorem Layout.magnitude_numeral (h : digits ≠ []) (negative : Bool) :
    ((f.numeral digits lead).decimal negative).magnitude =
      (ofDigits digits : ℚ) * (10 : ℚ) ^ (lead + 1 - digits.length) := by
  have hlength : 0 < digits.length := List.length_pos_iff.2 h
  rw [numeral]
  split
  · -- one digit stands before the point, and the exponent is that of this digit
    rw [Numeral.decimal, ofParts, magnitude]
    dsimp only
    rw [List.take_append_drop, List.length_drop, Option.getD_some]
    congr 2
    omega
  · split
    · next hlead =>
      -- the zeros in front do not count, but they move the digits behind the point
      rw [Numeral.decimal, ofParts, magnitude]
      dsimp only
      have hvalue : ofDigits (['0'] ++ (List.replicate (-lead - 1).toNat '0' ++ digits)) =
          ofDigits digits := by
        rw [ofDigits_append, ofDigits_append, ofDigits_replicate, Nat.mul_zero, Nat.zero_add]
        exact Nat.zero_add _
      rw [hvalue, List.length_append, List.length_replicate, Option.getD_none]
      congr 2
      omega
    · next hlead =>
      dsimp only
      split
      · next hshort =>
        -- zeros at the end count ten times more each, and are so many places less
        have hzeros : ∀ k : ℕ, (ofDigits (digits ++ List.replicate k '0') : ℚ) *
            (10 : ℚ) ^ (lead + 1 - digits.length - k) =
              ofDigits digits * (10 : ℚ) ^ (lead + 1 - digits.length) := fun k => by
          have hten : (10 : ℚ) ^ (lead + 1 - digits.length) =
              (10 : ℚ) ^ k * (10 : ℚ) ^ (lead + 1 - digits.length - k) := by
            rw [← zpow_natCast, ← zpow_add₀ (by norm_num), add_sub_cancel]
          rw [ofDigits_append_replicate, hten, Nat.cast_mul, Nat.cast_pow, ← mul_assoc,
            mul_comm (ofDigits digits : ℚ)]
          rfl
        have hwidth : ((lead + 1).toNat - digits.length : ℕ) = lead + 1 - digits.length := by
          omega
        cases f.pointZero with
        | true =>
          rw [← hzeros ((lead + 1).toNat - digits.length + 1), List.replicate_succ',
            ← List.append_assoc, Nat.cast_succ, hwidth, sub_add_cancel_left]
          rfl
        | false =>
          rw [← hzeros ((lead + 1).toNat - digits.length), hwidth, sub_self]
          exact congrArg (fun ds => (ofDigits ds : ℚ) * (10 : ℚ) ^ (0 : ℤ)) (List.append_nil _)
      · next hlong =>
        rw [Numeral.decimal, ofParts, magnitude]
        dsimp only
        rw [List.take_append_drop, List.length_drop, Option.getD_none]
        congr 2
        omega

/-! ## Decimals -/

/-- The numeral that is written for a decimal. -/
def numeral (f : Layout) (d : Decimal) : Numeral :=
  f.numeral (significantDigits d.digits)
    (if d.digits = 0 then 0 else d.exponent + digitCount d.digits - 1)

variable {d : Decimal}

/-- What is written for a decimal is its numeral behind its sign. -/
theorem toList_write :
    (d.write f).toList = (if d.negative then ['-'] else []) ++ (d.numeral f).text := by
  rw [write, numeral, Layout.text_numeral (significantDigits_ne_nil _), String.toList_ofList]
  cases d.negative with
  | true => rfl
  | false => rfl

/-- A layout with points has a point or an exponent in the numeral of every decimal. -/
theorem isReal_numeral (hpoint : f.pointZero = true) : (d.numeral f).IsReal :=
  Layout.isReal_numeral hpoint (significantDigits_ne_nil _)

theorem leads_significantDigits (n : ℕ) : Leads (significantDigits n) := by
  by_cases h : n = 0
  · subst h
    exact Or.inl rfl
  · exact Or.inr ⟨significantDigits_ne_nil n, head?_significantDigits_ne h⟩

theorem regular_numeral : (d.numeral f).Regular := by
  refine Layout.regular_numeral isDigit_of_mem_significantDigits (leads_significantDigits _) ?_
  intro hone
  by_cases h : d.digits = 0
  · rw [if_pos h]
  · refine absurd ?_ (head?_significantDigits_ne h)
    rw [hone]
    rfl

/-- **The numeral** of a decimal says its magnitude. -/
theorem magnitude_numeral (negative : Bool) :
    ((d.numeral f).decimal negative).magnitude = d.magnitude := by
  rw [numeral, Layout.magnitude_numeral (significantDigits_ne_nil _)]
  by_cases h : d.digits = 0
  · rw [magnitude, h]
    have hzero : ofDigits (significantDigits 0) = 0 := rfl
    rw [hzero, Nat.cast_zero, zero_mul, zero_mul]
  · obtain ⟨hvalue, hlength⟩ := ofDigits_significantDigits d.digits
    have hexponent :
        d.exponent + digitCount d.digits - 1 + 1 - (significantDigits d.digits).length =
          (digitCount d.digits - (significantDigits d.digits).length : ℕ) + d.exponent := by
      omega
    have hdigits : (d.digits : ℚ) =
        (10 : ℚ) ^ (digitCount d.digits - (significantDigits d.digits).length) *
          ofDigits (significantDigits d.digits) := by
      exact_mod_cast hvalue.symm
    rw [if_neg h, hexponent, zpow_add₀ (by norm_num), zpow_natCast, magnitude, hdigits, ← mul_assoc,
      mul_comm (ofDigits _ : ℚ)]

end Decimal

end SchemaDiagram
