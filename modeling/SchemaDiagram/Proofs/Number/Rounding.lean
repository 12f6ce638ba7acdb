/-
# Rounding what needs no rounding

A double is the number nearest to its own value: the magnitude at a place rounds to that place.

* `binaryOrder_spec`, `binaryOrder_eq` : the order of a rational;
* `nearestInt_intCast` : an integer is nearest to itself;
* `Binary64.roundMagnitude_magnitude` : rounding gives back the place.
-/
import Mathlib.Algebra.Order.Field.Power
import Mathlib.Algebra.Order.Floor.Ring
import Mathlib.Data.Rat.Floor
import Mathlib.Tactic.Linarith
import Mathlib.Tactic.Positivity
import SchemaDiagram.Number.Binary64

namespace SchemaDiagram

/-! ## Magnitudes -/

theorem rat_abs_eq (r : ℚ) : r.abs = |r| := by
  unfold Rat.abs
  split
  · next hr => exact (abs_of_nonneg hr).symm
  · next hr => exact (abs_of_neg (not_le.1 hr)).symm

/-! ## Orders -/

/-- A rational lies between the powers of two on the two sides of its order. -/
theorem binaryOrder_spec {r : ℚ} (h : 0 < r) :
    (2 : ℚ) ^ binaryOrder r ≤ r ∧ r < (2 : ℚ) ^ (binaryOrder r + 1) := by
  have hnum : r.num.natAbs ≠ 0 := by
    have := Rat.num_pos.2 h
    omega
  -- the order is that of the numerator less that of the denominator, or one below it
  have hr : r = (r.num.natAbs : ℚ) / (r.den : ℚ) := by
    have habs : ((r.num.natAbs : ℕ) : ℤ) = r.num := by
      have := Rat.num_pos.2 h
      omega
    rw [← Int.cast_natCast (R := ℚ) r.num.natAbs, habs, Rat.num_div_den]
  set a := r.num.natAbs.log2
  set b := r.den.log2
  have hnumLow : (2 : ℚ) ^ a ≤ r.num.natAbs := by exact_mod_cast Nat.log2_self_le hnum
  have hnumHigh : (r.num.natAbs : ℚ) < 2 ^ (a + 1) := by exact_mod_cast Nat.lt_log2_self
  have hdenLow : (2 : ℚ) ^ b ≤ r.den := by exact_mod_cast Nat.log2_self_le r.den_ne_zero
  have hdenHigh : (r.den : ℚ) < 2 ^ (b + 1) := by exact_mod_cast Nat.lt_log2_self
  have hden : (0 : ℚ) < r.den := by exact_mod_cast r.den_pos
  have hlow : (2 : ℚ) ^ ((a : ℤ) - b - 1) ≤ r := by
    have hpow : (2 : ℚ) ^ ((a : ℤ) - b - 1) = 2 ^ a / 2 ^ (b + 1) := by
      rw [sub_sub, zpow_sub₀ two_ne_zero]
      rfl
    rw [hpow, hr]
    exact div_le_div₀ (by positivity) hnumLow hden hdenHigh.le
  have hhigh : r < (2 : ℚ) ^ ((a : ℤ) - b + 1) := by
    have hpow : (2 : ℚ) ^ ((a : ℤ) - b + 1) = 2 ^ (a + 1) / 2 ^ b := by
      rw [sub_add_eq_add_sub, zpow_sub₀ two_ne_zero]
      rfl
    rw [hpow, hr]
    exact div_lt_div₀ hnumHigh hdenLow (by positivity) (by positivity)
  rw [binaryOrder]
  split
  · next hle => exact ⟨hle, hhigh⟩
  · next hle =>
    rw [sub_add_cancel]
    exact ⟨hlow, lt_of_not_ge hle⟩

/-- Only the order of a rational is the exponent of a power of two next below it. -/
theorem binaryOrder_eq {r : ℚ} {k : ℤ} (hlow : (2 : ℚ) ^ k ≤ r) (hhigh : r < (2 : ℚ) ^ (k + 1)) :
    binaryOrder r = k := by
  obtain ⟨hlow', hhigh'⟩ := binaryOrder_spec (lt_of_lt_of_le (by positivity) hlow)
  have hle : k < binaryOrder r + 1 :=
    (zpow_lt_zpow_iff_right₀ one_lt_two).1 (lt_of_le_of_lt hlow hhigh')
  have hge : binaryOrder r < k + 1 :=
    (zpow_lt_zpow_iff_right₀ one_lt_two).1 (lt_of_le_of_lt hlow' hhigh)
  omega

/-- A whole multiple of a power of two whose factor has a given order. -/
theorem binaryOrder_mul {m : ℕ} {k : ℕ} {e : ℤ} (hlow : 2 ^ k ≤ m) (hhigh : m < 2 ^ (k + 1)) :
    binaryOrder ((m : ℚ) * (2 : ℚ) ^ e) = k + e := by
  have hpos : (0 : ℚ) < (2 : ℚ) ^ e := by positivity
  refine binaryOrder_eq ?_ ?_
  · rw [zpow_add₀ two_ne_zero]
    refine mul_le_mul_of_nonneg_right ?_ hpos.le
    exact_mod_cast hlow
  · rw [add_right_comm, zpow_add₀ two_ne_zero]
    refine mul_lt_mul_of_pos_right ?_ hpos
    exact_mod_cast hhigh

/-! ## Integers -/

/-- An integer is the one nearest to itself. -/
theorem nearestInt_intCast (n : ℤ) : nearestInt (n : ℚ) = n := by
  have hfloor : (n : ℚ).floor = n := Rat.floor_intCast n
  rw [nearestInt, hfloor, sub_self, if_pos (by norm_num)]

/-! ## Places -/

namespace Binary64

/-- The magnitude at a positive place is rounded in units of the power of two that scales its
significand. -/
theorem step_magnitude {place : ℕ} (h : place ≠ 0) :
    max (binaryOrder (magnitude place) - 52) (-1074) = exponent place := by
  rw [magnitude, significand, exponent]
  split
  · next hsmall =>
    -- the least exponent: the significand may have fewer binary digits than 53
    have hlog : place.log2 < 52 := (Nat.log2_lt h).2 hsmall
    rw [binaryOrder_mul (Nat.log2_self_le h) Nat.lt_log2_self]
    omega
  · next hlarge =>
    have hmod : place % binade < binade := Nat.mod_lt _ (by decide)
    have hdiv : 0 < place / binade := Nat.div_pos (not_lt.1 hlarge) (by decide)
    have hbinade : binade = 2 ^ 52 := by norm_num
    rw [binaryOrder_mul (k := 52) (by omega) (by omega)]
    omega

/-- A place is counted by its exponent and its significand. -/
theorem place_eq (place : ℕ) :
    (exponent place + 1074) * binade + significand place = place := by
  rw [significand, exponent]
  split
  · omega
  · next hlarge =>
    have hdiv : place / binade ≠ 0 := (Nat.div_pos (not_lt.1 hlarge) (by decide)).ne'
    obtain ⟨q, hq⟩ := Nat.exists_eq_succ_of_ne_zero hdiv
    have hplace : (binade : ℤ) * (q + 1) + (place % binade : ℕ) = place := by
      have := Nat.div_add_mod place binade
      rw [hq] at this
      exact_mod_cast this
    rw [hq]
    push_cast at hplace ⊢
    linarith

theorem magnitude_zero : magnitude 0 = 0 := by
  rw [magnitude, significand, if_pos (by decide), Nat.cast_zero, zero_mul]

/-- **The magnitude at a place** rounds to that place. -/
theorem roundMagnitude_magnitude (negative : Bool) (place : Place) :
    roundMagnitude negative (magnitude place) = .finite negative place := by
  obtain ⟨place, hplace⟩ := place
  dsimp only
  by_cases h : place = 0
  · subst h
    rw [roundMagnitude, if_pos magnitude_zero]
    rfl
  · have hpow : (0 : ℚ) < (2 : ℚ) ^ exponent place := by positivity
    have hsignificand : significand place ≠ 0 := by
      rw [significand]
      split
      · exact h
      · exact Nat.ne_of_gt (Nat.add_pos_left (by decide) _)
    have hpos : magnitude place ≠ 0 := by
      rw [magnitude]
      exact mul_ne_zero (Nat.cast_ne_zero.2 hsignificand) hpow.ne'
    have hunits : magnitude place / (2 : ℚ) ^ exponent place = ((significand place : ℤ) : ℚ) := by
      rw [magnitude, mul_div_cancel_right₀ _ hpow.ne']
      rfl
    rw [roundMagnitude, if_neg hpos]
    dsimp only
    rw [step_magnitude h, hunits, nearestInt_intCast, place_eq, dif_pos (by exact hplace)]
    rfl

end Binary64

end SchemaDiagram
