/-
# Runs of decimal digits

The digits of a number denote it again, with or without the zeros at their end.

* `Decimal.ofDigits_append`, `Decimal.ofDigits_toDigits` : what a run of digits denotes;
* `Decimal.pow_le_of_digitCount`, `Decimal.lt_pow_digitCount` : how large a number of so many
  digits is;
* `Decimal.toDigits_eq_significantDigits` : the zeros that are left out.
-/
import Mathlib.Algebra.Ring.Nat
import Mathlib.Data.List.DropRight
import SchemaDiagram.Number.Decimal

namespace SchemaDiagram

namespace Decimal

/-! ## Runs -/

/-- Digits in front of others count as many times more as the others have room for. -/
theorem ofDigits_append (cs ds : List Char) :
    ofDigits (cs ++ ds) = 10 ^ ds.length * ofDigits cs + ofDigits ds := by
  show Nat.ofDigitChars 10 (cs ++ ds) 0 = _
  rw [Nat.ofDigitChars_append, Nat.ofDigitChars_eq_ofDigitChars_zero]
  rfl

theorem ofDigits_replicate (k : ℕ) : ofDigits (List.replicate k '0') = 0 := by
  show Nat.ofDigitChars 10 _ 0 = 0
  rw [Nat.ofDigitChars_replicate_zero, Nat.mul_zero]

/-- Each zero behind other digits makes them count ten times more. -/
theorem ofDigits_append_replicate (ds : List Char) (k : ℕ) :
    ofDigits (ds ++ List.replicate k '0') = 10 ^ k * ofDigits ds := by
  rw [ofDigits_append, ofDigits_replicate, List.length_replicate, Nat.add_zero]

/-- The digits of a number denote it. -/
theorem ofDigits_toDigits (n : ℕ) : ofDigits (Nat.toDigits 10 n) = n :=
  Nat.ofDigitChars_ten_toDigits

/-- The digits of a number are digits. -/
theorem isDigit_of_mem_toDigits {n : ℕ} : ∀ c ∈ Nat.toDigits 10 n, c.isDigit = true :=
  fun _ h => Nat.isDigit_of_mem_toDigits (by decide) (by decide) h

/-- The digits of a positive number do not begin with a zero. -/
theorem head?_toDigits_ne {n : ℕ} (h : n ≠ 0) : (Nat.toDigits 10 n).head? ≠ some '0' := by
  induction n using Nat.strongRecOn with
  | ind n ih =>
    rcases Nat.lt_or_ge n 10 with hlt | hge
    · rw [Nat.toDigits_of_lt_base hlt, List.head?_cons, ne_eq, Option.some.injEq,
        Nat.digitChar_eq_zero]
      exact h
    · rw [Nat.toDigits_of_base_le (by decide) hge,
        List.head?_append_of_ne_nil _ Nat.toDigits_ne_nil]
      exact ih (n / 10) (by omega) (by omega)

/-! ## How many digits -/

theorem digitCount_pos (n : ℕ) : 0 < digitCount n := List.length_pos_iff.2 Nat.toDigits_ne_nil

/-- A number is below the power of ten that its digits have room for. -/
theorem lt_pow_digitCount (n : ℕ) : n < 10 ^ digitCount n :=
  (Nat.length_toDigits_le_iff (by decide) (digitCount_pos n)).1 (Nat.le_refl _)

/-- A positive number is at least the power of ten of its first digit. -/
theorem pow_le_of_digitCount {n : ℕ} (h : n ≠ 0) : 10 ^ (digitCount n - 1) ≤ n := by
  rcases Nat.eq_zero_or_pos (digitCount n - 1) with hone | hmore
  · rw [hone]
    omega
  · have hnot : ¬digitCount n ≤ digitCount n - 1 := by
      have := digitCount_pos n
      omega
    exact not_lt.1 fun hlt => hnot ((Nat.length_toDigits_le_iff (by decide) hmore).2 hlt)

/-! ## Significant digits -/

theorem significantDigits_ne_nil (n : ℕ) : significantDigits n ≠ [] := by
  rw [significantDigits]
  split
  · exact List.cons_ne_nil _ _
  · next h => exact h

/-- The digits of a number are the significant ones and zeros. -/
theorem toDigits_eq_significantDigits (n : ℕ) :
    ∃ zeros, Nat.toDigits 10 n = significantDigits n ++ List.replicate zeros '0' := by
  have hzeros : (Nat.toDigits 10 n).rtakeWhile (· = '0') =
      List.replicate ((Nat.toDigits 10 n).rtakeWhile (· = '0')).length '0' := by
    rw [List.eq_replicate_iff]
    exact ⟨rfl, fun c hc => by simpa using List.mem_rtakeWhile_imp hc⟩
  have hsplit : (Nat.toDigits 10 n).rdropWhile (· = '0') ++
      (Nat.toDigits 10 n).rtakeWhile (· = '0') = Nat.toDigits 10 n :=
    List.rdropWhile_append_rtakeWhile
  rw [hzeros, List.rdropWhile] at hsplit
  rw [significantDigits]
  split
  · next hnil =>
    rw [hnil, List.nil_append] at hsplit
    have hn : n = 0 := by rw [← ofDigits_toDigits n, ← hsplit, ofDigits_replicate]
    subst hn
    exact ⟨0, rfl⟩
  · exact ⟨_, hsplit.symm⟩

theorem isDigit_of_mem_significantDigits {n : ℕ} :
    ∀ c ∈ significantDigits n, c.isDigit = true := by
  intro c hc
  obtain ⟨zeros, h⟩ := toDigits_eq_significantDigits n
  exact isDigit_of_mem_toDigits c (h ▸ List.mem_append_left _ hc)

/-- The significant digits of a positive number do not begin with a zero. -/
theorem head?_significantDigits_ne {n : ℕ} (hn : n ≠ 0) :
    (significantDigits n).head? ≠ some '0' := by
  obtain ⟨zeros, h⟩ := toDigits_eq_significantDigits n
  have hhead := head?_toDigits_ne hn
  rwa [h, List.head?_append_of_ne_nil _ (significantDigits_ne_nil n)] at hhead

/-- A number is what its significant digits denote, with the zeros that are left out. -/
theorem ofDigits_significantDigits (n : ℕ) :
    10 ^ (digitCount n - (significantDigits n).length) * ofDigits (significantDigits n) = n ∧
      (significantDigits n).length ≤ digitCount n := by
  obtain ⟨zeros, h⟩ := toDigits_eq_significantDigits n
  have hcount : digitCount n = (significantDigits n).length + zeros := by
    rw [digitCount, h, List.length_append, List.length_replicate]
  refine ⟨?_, by omega⟩
  have hvalue := ofDigits_toDigits n
  rw [h, ofDigits_append_replicate] at hvalue
  rwa [hcount, Nat.add_sub_cancel_left]

end Decimal

end SchemaDiagram
