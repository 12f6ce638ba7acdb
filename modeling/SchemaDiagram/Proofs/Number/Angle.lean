/-
# How large sines and random fractions can be

The sine and the cosine of an angle below a full turn are bounded doubles, and so are random
fractions.  The bounds are rough, for all that matters is that products with them do not overflow.

* `Angle.series_le` : the partial sums of the exponential series;
* `Angle.atMost_cosine`, `Angle.atMost_sine` : sines and cosines;
* `Twister.atMost_fraction` : random fractions.
-/
import SchemaDiagram.Number.Angle
import SchemaDiagram.Placement.Twister
import SchemaDiagram.Proofs.Number.Bounds

namespace SchemaDiagram

namespace Angle

/-- Each term of the series is at most `2 ^ t` times the one before, so the sums are bounded. -/
theorem series_le {x t : ℕ} (hx : x ≤ 2 ^ t * one) (count n : ℕ) {term u : ℕ}
    (hterm : term ≤ 2 ^ u) :
    |(series x count n term).1| ≤ count * 2 ^ (u + t * count) ∧
      |(series x count n term).2| ≤ count * 2 ^ (u + t * count) := by
  induction count generalizing n term u with
  | zero => simp [series]
  | succ count ih =>
    have hnext : term * x / one / (n + 1) ≤ 2 ^ (u + t) := by
      calc term * x / one / (n + 1) ≤ term * x / one := Nat.div_le_self _ _
        _ ≤ 2 ^ u * (2 ^ t * one) / one := Nat.div_le_div_right (Nat.mul_le_mul hterm hx)
        _ = 2 ^ (u + t) := by
          rw [← Nat.mul_assoc, Nat.mul_div_cancel _ (by decide), ← Nat.pow_add]
    obtain ⟨hre, him⟩ := ih (n + 1) hnext
    have hexponent : u + t + t * count = u + t * (count + 1) := by
      ring
    rw [hexponent] at hre him
    set bound : ℤ := 2 ^ (u + t * (count + 1)) with hbound
    have hfirst : |(term : ℤ)| ≤ bound := by
      rw [Nat.abs_cast, hbound]
      exact_mod_cast hterm.trans (Nat.pow_le_pow_right two_pos (Nat.le_add_right _ _))
    have hstep : ((count + 1 : ℕ) : ℤ) * bound = count * bound + bound := by
      push_cast
      ring
    rw [hstep]
    have hpos : 0 ≤ bound := (abs_nonneg _).trans hfirst
    constructor
    · calc |(term : ℤ) - (series x count (n + 1) (term * x / one / (n + 1))).2|
          ≤ |(term : ℤ)| + |(series x count (n + 1) (term * x / one / (n + 1))).2| := abs_sub _ _
        _ ≤ count * bound + bound := by linarith
    · exact hre.trans (by linarith)

/-- A degree in radians is less than a thirty-second. -/
theorem unit_radians :
    ∃ s place, halfTurn.div (.ofRat 180) = .finite s place ∧
      Binary64.magnitude place ≤ 1 / 32 := by
  refine ⟨false, ⟨4580687790476533049, by decide⟩, ?quotient, ?bound⟩
  case quotient =>
    decide +kernel
  case bound =>
    decide +kernel

/-- An angle below a full turn is less than sixteen radians. -/
theorem atMost_radians {degrees : ℕ} (h : degrees < 360) : (radians degrees).AtMost 4 := by
  have hdegrees : |(degrees : ℚ)| ≤ 2 ^ 9 := by
    rw [Nat.abs_cast]
    exact_mod_cast (by omega : degrees ≤ 512)
  obtain ⟨s, i, hi, hbound⟩ := (Binary64.atMost_ofRat (by omega) hdegrees).exists_finite
  obtain ⟨t, l, hl, hunit⟩ := unit_radians
  rw [radians, hi, hl]
  refine Binary64.atMost_roundMagnitude (by omega)
    (mul_nonneg (Binary64.magnitude_nonneg i) (Binary64.magnitude_nonneg l)) ?_ _
  calc Binary64.magnitude i * Binary64.magnitude l ≤ 2 ^ 9 * (1 / 32) :=
        mul_le_mul hbound hunit (Binary64.magnitude_nonneg l) (by positivity)
    _ = 2 ^ 4 := by norm_num

theorem one_eq : one = 2 ^ 256 := Nat.one_shiftLeft 256

/-- A sum of so many bounded terms, in the unit of the sums. -/
theorem abs_unit_le {n : ℤ} {count e : ℕ} (h : |n| ≤ count * 2 ^ (256 + e)) :
    |(n : ℚ) / (one : ℚ)| ≤ count * 2 ^ e := by
  have hone : (one : ℚ) = 2 ^ 256 := by
    rw [one_eq, Nat.cast_pow, Nat.cast_ofNat]
  have hcast : |(n : ℚ)| ≤ count * 2 ^ (256 + e) := by
    exact_mod_cast h
  rw [abs_div, hone, abs_of_pos (by positivity : (0 : ℚ) < 2 ^ 256), div_le_iff₀ (by positivity),
    mul_assoc, ← pow_add, Nat.add_comm e]
  exact hcast

/-- The sine and the cosine of less than sixteen radians, as they are summed. -/
theorem turn_le {x : Binary64} (hx : x.AtMost 4) :
    |(turn x).1| ≤ (100 : ℕ) * 2 ^ (4 * 100) ∧ |(turn x).2| ≤ (100 : ℕ) * 2 ^ (4 * 100) := by
  obtain ⟨s, place, rfl, hplace⟩ := hx.exists_finite
  have hscaled : (Binary64.signed s place * (one : ℚ)).floor.toNat ≤ 2 ^ 4 * one := by
    rw [Int.toNat_le]
    have hsigned : Binary64.signed s place ≤ 2 ^ 4 := by
      refine (le_abs_self _).trans ?_
      rw [Binary64.abs_signed]
      exact hplace
    have hfloor : ((Binary64.signed s place * (one : ℚ)).floor : ℚ) ≤ 2 ^ 4 * (one : ℚ) :=
      (Rat.floor_le _).trans (mul_le_mul_of_nonneg_right hsigned (Nat.cast_nonneg one))
    exact_mod_cast hfloor
  obtain ⟨hre, him⟩ := series_le hscaled 100 0 (u := 256) one_eq.le
  exact ⟨abs_unit_le hre, abs_unit_le him⟩

/-- A hundred terms are less than `2 ^ 7` of them. -/
theorem hundred_mul_le : ((100 : ℕ) : ℚ) * 2 ^ (4 * 100) ≤ 2 ^ 407 := by
  calc ((100 : ℕ) : ℚ) * 2 ^ (4 * 100) ≤ 2 ^ 7 * 2 ^ (4 * 100) :=
        mul_le_mul_of_nonneg_right (by norm_num) (by positivity)
    _ = 2 ^ 407 := by rw [← pow_add]

/-- **Sines and cosines** are bounded. -/
theorem atMost_cosine {degrees : ℕ} (h : degrees < 360) : (cosine degrees).AtMost 407 :=
  Binary64.atMost_ofRat (by omega) ((turn_le (atMost_radians h)).1.trans hundred_mul_le)

theorem atMost_sine {degrees : ℕ} (h : degrees < 360) : (sine degrees).AtMost 407 :=
  Binary64.atMost_ofRat (by omega) ((turn_le (atMost_radians h)).2.trans hundred_mul_le)

end Angle

/-- A random fraction is bounded. -/
theorem Twister.atMost_fraction (t : Twister) : t.fraction.1.AtMost 6 := by
  refine Binary64.atMost_ofRat (by omega) ?_
  rw [abs_div, Nat.abs_cast, abs_of_pos (by positivity : (0 : ℚ) < 2 ^ (53 : ℤ)),
    div_le_iff₀ (by positivity)]
  have hupper := UInt32.toNat_lt (t.word.1 >>> 5)
  have hlower := UInt32.toNat_lt (t.word.2.word.1 >>> 6)
  have hbits : (t.word.1 >>> 5).toNat * 0x4000000 + (t.word.2.word.1 >>> 6).toNat ≤
      2 ^ 6 * 2 ^ 53 := by
    omega
  exact_mod_cast hbits

end SchemaDiagram
