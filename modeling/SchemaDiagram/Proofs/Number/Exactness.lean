/-
# Quotients that are as if exact

Below `2 ^ 52`, rounding a quotient to a double first makes no difference to the integer that it is
rounded to then: a quotient that is no half of an integer is farther from each half than the first
rounding moves it.

* `Binary64.Separated` : a number that the first rounding does not reach;
* `Binary64.nearestInt_nearestValue`, `Binary64.floor_ceil_nearestValue` : what is separated from
  the halves, or from the integers, is rounded as if once;
* `Binary64.InUnits`, `Binary64.InUnits.separated` : quotients of short coordinates are separated;
* `Binary64.ofInt_held`, `Binary64.exists_add_held` : whole numbers that doubles hold;
* `Quantity.value?` : the exact value of a coordinate;
* `Quantity.nearestQuotient_value`, `Quantity.nearestQuotient_whole`,
  `Quantity.floor_ceilQuotient_whole` : the quotients of short coordinates;
* `Quantity.quotientWith_add_zero` : the quotient of a multiple that a double zero is added to.
-/
import SchemaDiagram.Proofs.Number.Quotient

namespace SchemaDiagram

namespace Binary64

/-! ## Numbers that rounding does not reach -/

/-- The error of rounding what is not too small. -/
theorem abs_nearestValue_sub_le_mul {x : ℚ} (h : (2 : ℚ) ^ (-1022 : ℤ) ≤ |x|) :
    |nearestValue x - x| ≤ |x| * (2 : ℚ) ^ (-53 : ℤ) := by
  refine (abs_nearestValue_sub_le x).trans (max_le le_rfl ?_)
  calc (2 : ℚ) ^ (-1075 : ℤ) = (2 : ℚ) ^ (-1022 : ℤ) * (2 : ℚ) ^ (-53 : ℤ) := by
        rw [← zpow_add₀ two_ne_zero]
        rfl
    _ ≤ |x| * (2 : ℚ) ^ (-53 : ℤ) := mul_le_mul_of_nonneg_right h (by positivity)

/-- A number is farther from another one than the double of this one is, unless they are equal. -/
def Separated (x s : ℚ) : Prop := x = s ∨ |x| * (2 : ℚ) ^ (-53 : ℤ) < |x - s|

theorem Separated.nearestValue_lt {x s : ℚ} (h : Separated x s)
    (hx : (2 : ℚ) ^ (-1022 : ℤ) ≤ |x|) (hlt : x < s) : nearestValue x < s := by
  have herror := (abs_le.1 (abs_nearestValue_sub_le_mul hx)).2
  have hgap := h.resolve_left hlt.ne
  rw [abs_of_neg (sub_neg.2 hlt)] at hgap
  linarith

theorem Separated.lt_nearestValue {x s : ℚ} (h : Separated x s)
    (hx : (2 : ℚ) ^ (-1022 : ℤ) ≤ |x|) (hlt : s < x) : s < nearestValue x := by
  have herror := (abs_le.1 (abs_nearestValue_sub_le_mul hx)).1
  have hgap := h.resolve_left hlt.ne'
  rw [abs_of_pos (sub_pos.2 hlt)] at hgap
  linarith

/-- What is small is rounded to what is small. -/
theorem abs_nearestValue_lt_half {x : ℚ} (h : |x| < 1 / 4) : |nearestValue x| < 1 / 2 := by
  have herror : |nearestValue x - x| ≤ 1 / 4 := by
    refine (abs_nearestValue_sub_le x).trans (max_le ?_ ?_)
    · calc |x| * (2 : ℚ) ^ (-53 : ℤ) ≤ 1 / 4 * 1 :=
            mul_le_mul h.le (zpow_le_one_of_nonpos₀ one_le_two (by omega)) (by positivity)
              (by norm_num)
        _ = 1 / 4 := mul_one _
    · calc (2 : ℚ) ^ (-1075 : ℤ) ≤ (2 : ℚ) ^ (-2 : ℤ) :=
            zpow_le_zpow_right₀ one_le_two (by omega)
        _ = 1 / 4 := by norm_num
  calc |nearestValue x| = |nearestValue x - x + x| := by rw [sub_add_cancel]
    _ ≤ |nearestValue x - x| + |x| := abs_add_le _ _
    _ < 1 / 2 := by linarith

/-- **Rounding to a double first** makes no difference to the nearest integer where no half of an
integer is too near. -/
theorem nearestInt_nearestValue {x : ℚ} (hx : |x| < 2 ^ 52)
    (hhalf : ∀ t : ℤ, Separated x (t / 2)) :
    nearestInt (nearestValue x) = nearestInt x := by
  by_cases hexact : ∃ t : ℤ, x = t / 2
  · -- a half of an integer is held by a double
    obtain ⟨t, rfl⟩ := hexact
    have ht : |t| < 2 ^ 53 := by
      rw [abs_div, abs_two, div_lt_iff₀ two_pos] at hx
      have : |(t : ℚ)| < 2 ^ 53 := by linarith
      exact_mod_cast this
    have hscaled := nearestValue_scaled (e := -1) ht (by omega)
    rw [zpow_neg_one, ← div_eq_mul_inv] at hscaled
    rw [hscaled]
  rcases lt_or_ge |x| (1 / 4) with hsmall | hlarge
  · -- both are rounded to zero
    have hzero : ∀ y : ℚ, |y| < 1 / 2 → nearestInt y = 0 := fun y hy =>
      nearestInt_eq_of_abs_lt (by rwa [Int.cast_zero, sub_zero])
    rw [hzero x (by linarith), hzero _ (abs_nearestValue_lt_half hsmall)]
  · have hlarge : (2 : ℚ) ^ (-1022 : ℤ) ≤ |x| := by
      calc (2 : ℚ) ^ (-1022 : ℤ) ≤ (2 : ℚ) ^ (-2 : ℤ) :=
            zpow_le_zpow_right₀ one_le_two (by omega)
        _ = 1 / 4 := by norm_num
        _ ≤ |x| := hlarge
    have hne : ∀ t : ℤ, x ≠ t / 2 := fun t ht => hexact ⟨t, ht⟩
    have hnear := abs_le.1 (abs_sub_nearestInt_le x)
    -- the value lies between the halves on the two sides of the integer, and so does the double
    have hhigh : ((2 * nearestInt x + 1 : ℤ) : ℚ) / 2 = nearestInt x + 1 / 2 := by
      push_cast
      ring
    have hlow : ((2 * nearestInt x - 1 : ℤ) : ℚ) / 2 = nearestInt x - 1 / 2 := by
      push_cast
      ring
    have hbelow : x < ((2 * nearestInt x + 1 : ℤ) : ℚ) / 2 :=
      lt_of_le_of_ne (by linarith) (hne _)
    have habove : ((2 * nearestInt x - 1 : ℤ) : ℚ) / 2 < x :=
      lt_of_le_of_ne (by linarith) (hne _).symm
    have hbelow' := (hhalf _).nearestValue_lt hlarge hbelow
    have habove' := (hhalf _).lt_nearestValue hlarge habove
    refine nearestInt_eq_of_abs_lt (abs_lt.2 ⟨?_, ?_⟩)
    · linarith
    · linarith

/-- **Rounding to a double first** makes no difference to the integers on the two sides where no
integer is too near. -/
theorem floor_ceil_nearestValue {x : ℚ} (hx : |x| < 2 ^ 52)
    (hint : ∀ t : ℤ, Separated x t)
    (hlarge : x = 0 ∨ (2 : ℚ) ^ (-1022 : ℤ) ≤ |x|) :
    (nearestValue x).floor = x.floor ∧ (nearestValue x).ceil = x.ceil := by
  by_cases hexact : ∃ t : ℤ, x = t
  · obtain ⟨t, rfl⟩ := hexact
    have ht : |t| < 2 ^ 53 := by
      have : |(t : ℚ)| < 2 ^ 53 := hx.trans (by norm_num)
      exact_mod_cast this
    rw [(holds_of_lt ht).nearestValue]
    exact ⟨rfl, rfl⟩
  · have hne : ∀ t : ℤ, x ≠ t := fun t ht => hexact ⟨t, ht⟩
    have hlarge := hlarge.resolve_left (by simpa using hne 0)
    have hlow : (x.floor : ℚ) < x := lt_of_le_of_ne (Rat.floor_le x) (hne _).symm
    have hhigh : x < (x.floor + 1 : ℤ) := Rat.lt_floor_add_one x
    have hlow' := (hint _).lt_nearestValue hlarge hlow
    have hhigh' := (hint _).nearestValue_lt hlarge hhigh
    -- the floor and the ceiling of what lies strictly between two integers that follow each other
    have hbetween : ∀ y : ℚ, (x.floor : ℚ) < y → y < (x.floor + 1 : ℤ) →
        y.floor = x.floor ∧ y.ceil = x.floor + 1 := by
      intro y hy hy'
      constructor
      · exact le_antisymm (Int.lt_add_one_iff.1 (Rat.floor_lt_iff.2 hy')) (Rat.le_floor_iff.2 hy.le)
      · exact le_antisymm (Rat.ceil_le_iff.2 hy'.le) (Int.add_one_le_iff.2 (Rat.lt_ceil_iff.2 hy))
    obtain ⟨hfloor, hceil⟩ := hbetween _ hlow' hhigh'
    exact ⟨hfloor, hceil.trans (hbetween _ hlow hhigh).2.symm⟩

/-! ## Quotients of doubles -/

/-- A number of units, or of halves of them, that is short: no unit is less than one of its last
places. -/
def InUnits (v : ℚ) : Prop :=
  ∃ (n : ℤ) (j : ℕ), 2 * v = n * (2 : ℚ) ^ (-(j : ℤ)) ∧
    |v| * (2 : ℚ) ^ (-52 : ℤ) < (2 : ℚ) ^ (-(j : ℤ))

/-- A short number of units is a half of an integer times a divisor, or at least one unit away from
that, which is too far for its quotient to be rounded to the half. -/
theorem InUnits.separated {v : ℚ} {grid : ℕ} (hgrid : 0 < grid) (h : InUnits v) (t : ℤ) :
    Separated (v / grid) (t / 2) := by
  obtain ⟨n, j, hv, hsmall⟩ := h
  have hpos : (0 : ℚ) < grid := by exact_mod_cast hgrid
  have hunit : (0 : ℚ) < (2 : ℚ) ^ (-(j : ℤ)) := by positivity
  -- twice the distance, times the divisor, is a number of units as well
  set m : ℤ := n - t * grid * 2 ^ j with hm
  have hdistance : v / grid - t / 2 = m * (2 : ℚ) ^ (-(j : ℤ)) / (2 * grid) := by
    have hpow : (2 : ℚ) ^ j * (2 : ℚ) ^ (-(j : ℤ)) = 1 := by
      rw [← zpow_natCast, ← zpow_add₀ two_ne_zero, add_neg_cancel, zpow_zero]
    have hone : (m : ℚ) * (2 : ℚ) ^ (-(j : ℤ)) = 2 * v - t * grid := by
      rw [hm, hv]
      push_cast
      rw [sub_mul, mul_assoc (t * grid : ℚ), hpow, mul_one]
    rw [hone]
    field_simp
  rcases eq_or_ne m 0 with hzero | hne
  · left
    rw [hzero, Int.cast_zero, zero_mul, zero_div] at hdistance
    exact sub_eq_zero.1 hdistance
  · right
    have hone : (1 : ℚ) ≤ |(m : ℚ)| := by
      exact_mod_cast Int.one_le_abs hne
    have hright : |(m : ℚ) * (2 : ℚ) ^ (-(j : ℤ)) / (2 * grid)| =
        |(m : ℚ)| * (2 : ℚ) ^ (-(j : ℤ)) / (2 * grid) := by
      rw [abs_div, abs_mul, abs_of_pos hunit, abs_mul, abs_two, abs_of_pos hpos]
    rw [hdistance, hright, abs_div, abs_of_pos hpos]
    have hhalf : (2 : ℚ) ^ (-52 : ℤ) = 2 * (2 : ℚ) ^ (-53 : ℤ) := by
      norm_num
    rw [hhalf] at hsmall
    rw [div_mul_eq_mul_div, div_lt_div_iff₀ hpos (by positivity)]
    calc |v| * (2 : ℚ) ^ (-53 : ℤ) * (2 * grid) = |v| * (2 * (2 : ℚ) ^ (-53 : ℤ)) * grid := by ring
      _ < (2 : ℚ) ^ (-(j : ℤ)) * grid := mul_lt_mul_of_pos_right hsmall hpos
      _ ≤ |(m : ℚ)| * (2 : ℚ) ^ (-(j : ℤ)) * grid :=
        mul_le_mul_of_nonneg_right (le_mul_of_one_le_left hunit.le hone) hpos.le

/-- The value of a double is a short number of units. -/
theorem inUnits_signed {s : Bool} {place : Place} (h : |signed s place| < 2 ^ 52) :
    InUnits (signed s place) := by
  obtain ⟨m, hm, hmany⟩ : ∃ m : ℤ, signed s place = m * (2 : ℚ) ^ exponent place ∧
      |(m : ℚ)| < 2 ^ 53 := by
    have hcount : ((significand place : ℤ) : ℚ) < 2 ^ 53 := by
      exact_mod_cast significand_lt place
    have habs : |((significand place : ℤ) : ℚ)| = (significand place : ℤ) :=
      abs_of_nonneg (by positivity)
    cases s with
    | false => exact ⟨significand place, rfl, habs.trans_lt hcount⟩
    | true =>
      refine ⟨-significand place, ?_, ?_⟩
      · rw [signed, if_pos rfl, magnitude, Int.cast_neg, neg_mul]
        rfl
      · rw [Int.cast_neg, abs_neg, habs]
        exact hcount
  have hpow : (0 : ℚ) < (2 : ℚ) ^ exponent place := by positivity
  rcases le_or_gt (-1) (exponent place) with hlarge | hsmall
  · -- twice the value is an integer
    obtain ⟨k, hk⟩ := Int.eq_ofNat_of_zero_le (a := exponent place + 1) (by omega)
    refine ⟨m * 2 ^ k, 0, ?_, ?_⟩
    · have hexponent : exponent place = k - 1 := by
        omega
      rw [hm, hexponent, zpow_sub_one₀ two_ne_zero, zpow_natCast]
      push_cast
      ring
    · rw [Nat.cast_zero, neg_zero, zpow_zero]
      calc |signed s place| * (2 : ℚ) ^ (-52 : ℤ) < 2 ^ 52 * (2 : ℚ) ^ (-52 : ℤ) :=
            mul_lt_mul_of_pos_right h (by positivity)
        _ = 1 := by norm_num
  · -- the value is a short number of its own units
    obtain ⟨j, hj⟩ := Int.eq_ofNat_of_zero_le (a := -(exponent place + 1)) (by omega)
    have hunit : (2 : ℚ) ^ (-(j : ℤ)) = 2 * (2 : ℚ) ^ exponent place := by
      have hexponent : -(j : ℤ) = exponent place + 1 := by
        omega
      rw [hexponent, zpow_add_one₀ two_ne_zero, mul_comm]
    refine ⟨m, j, ?_, ?_⟩
    · rw [hm, hunit]
      ring
    · rw [hm, abs_mul, abs_of_pos hpow, hunit]
      calc |(m : ℚ)| * (2 : ℚ) ^ exponent place * (2 : ℚ) ^ (-52 : ℤ)
          < 2 ^ 53 * (2 : ℚ) ^ exponent place * (2 : ℚ) ^ (-52 : ℤ) :=
            mul_lt_mul_of_pos_right (mul_lt_mul_of_pos_right hmany hpow) (by positivity)
        _ = 2 * (2 : ℚ) ^ exponent place := by
          norm_num
          ring

/-! ## Whole numbers as doubles -/

theorem ofRat_intCast (n : ℤ) : ofRat n = roundMagnitude (n < 0) |(n : ℚ)| := by
  have hsign : decide ((n : ℚ) < 0) = decide (n < 0) :=
    decide_eq_decide.2 (by exact_mod_cast Iff.rfl)
  rw [ofRat_eq, hsign]

/-- An integer that a double holds is rounded to that double. -/
theorem ofRat_held {n : ℤ} (h : Holds n) :
    ∃ place : Place, ofRat n = .finite (n < 0) place ∧ magnitude place = |(n : ℚ)| := by
  obtain ⟨place, hplace⟩ := h
  exact ⟨place, by rw [ofRat_intCast, ← hplace, roundMagnitude_magnitude], hplace⟩

/-- A whole number that a double holds is converted without an error. -/
theorem ofInt_held {n : ℤ} (h : Holds n) :
    ∃ place : Place, ofInt n = .ok (.finite (n < 0) place) ∧
      magnitude place = |(n : ℚ)| := by
  obtain ⟨place, hround, hplace⟩ := ofRat_held h
  exact ⟨place, by rw [ofInt, hround], hplace⟩

/-- A whole number that can be converted is converted to a finite double of its sign. -/
theorem finite_of_ofInt {n : ℤ} {y : Binary64} (h : ofInt n = .ok y) :
    ∃ place, y = .finite (n < 0) place := by
  rcases roundMagnitude_cases (n < 0) |(n : ℚ)| with ⟨place, hround⟩ | hround
  · rw [← ofRat_of_ofInt h, ofRat_intCast, hround]
    exact ⟨place, rfl⟩
  · rw [ofInt, ofRat_intCast, hround] at h
    cases h

theorem add_finite (s t : Bool) (i j : Place) : (finite s i).add (.finite t j) =
    if signed s i + signed t j = 0 then zero (s && t) else ofRat (signed s i + signed t j) := rfl

/-- The sum of doubles is an integer if a double holds it. -/
theorem exists_add_held {s t : Bool} {i j : Place} {n : ℤ} (h : Holds n)
    (hsum : signed s i + signed t j = n) :
    ∃ sign place, (finite s i).add (.finite t j) = .finite sign place ∧
      signed sign place = n := by
  rw [add_finite, hsum]
  split
  · next hzero =>
    refine ⟨s && t, ⟨0, by decide⟩, rfl, ?_⟩
    rw [hzero, ← abs_eq_zero, abs_signed]
    exact magnitude_zero
  · obtain ⟨place, hround, hplace⟩ := ofRat_held h
    exact ⟨_, place, hround, signed_of_magnitude hplace⟩

end Binary64

namespace Quantity

open Binary64

variable {grid : ℕ}

/-! ## Quotients of quantities -/

/-- The exact value of a quantity that has one: all but NaN and the infinities do. -/
def value? : Quantity → Option ℚ
  | .whole n => some n
  | .real x => x.toRat?

/-- **A quotient** by a divisor that a double holds is the double nearest to the exact one. -/
theorem dividedBy_value (hgrid : 0 < grid) (hheld : Holds grid) {x : Quantity} {v : ℚ}
    (hv : x.value? = some v) {y : Binary64} (h : x.dividedBy grid = .ok y) :
    ∃ s place, y = .finite s place ∧ signed s place = nearestValue (v / grid) := by
  cases x with
  | whole a =>
    obtain ⟨s, place, hy, -, hplace⟩ := dividedBy_whole hgrid h
    cases hv
    exact ⟨s, place, hy, hplace⟩
  | real x =>
    cases x with
    | nan => exact nomatch hv
    | infinite s => exact nomatch hv
    | finite s i =>
      obtain rfl : signed s i = v := Option.some.inj hv
      obtain ⟨j, hj, hmagnitude⟩ := ofInt_held hheld
      rw [decide_eq_false (not_lt.2 (Int.natCast_nonneg grid))] at hj
      rw [Int.cast_natCast, Nat.abs_cast] at hmagnitude
      have hpos : (0 : ℚ) < grid := by exact_mod_cast hgrid
      have hne : j.val ≠ 0 := ne_zero_of_one_le (one_le_of_ofInt hgrid hj)
      obtain ⟨g, hg, h⟩ := bind_eq_ok.1 h
      rw [hj] at hg
      cases hg
      have hdiv : Binary64.div (.finite s i) (.finite false j) =
          roundMagnitude s |signed s i / grid| := by
        have habs : |signed s i / grid| = magnitude i / magnitude j := by
          rw [abs_div, abs_signed, hmagnitude, Nat.abs_cast]
        rw [Binary64.div, if_neg hne, Bool.bne_false, habs]
      have hround : roundMagnitude s |signed s i / grid| = y := by
        rw [← hdiv]
        exact pure_eq_ok.1 h
      -- the quotient is no greater than the double that is divided
      have hle : |signed s i / grid| ≤ magnitude i := by
        rw [abs_div, abs_signed, Nat.abs_cast]
        exact div_le_self (magnitude_nonneg i) (by exact_mod_cast hgrid)
      obtain ⟨place, hplace⟩ := finite_of_le (abs_nonneg _) hle (roundMagnitude_magnitude s i) s
      refine ⟨s, place, by rw [← hround, hplace], signed_of_roundMagnitude ?_ hplace⟩
      intro hzero
      have hmagnitude : 0 < magnitude i := by
        refine lt_of_le_of_ne (magnitude_nonneg i) fun h => hzero ?_
        rw [← abs_eq_zero, abs_div, abs_signed, ← h, zero_div]
      rw [div_lt_iff₀ hpos, zero_mul, signed]
      cases s with
      | false => simpa using hmagnitude.le
      | true => simpa using hmagnitude

theorem quotientWith_value (hgrid : 0 < grid) (hheld : Holds grid) {x : Quantity} {v : ℚ}
    (hv : x.value? = some v) {round : ℚ → ℤ} {n : ℤ} (h : quotientWith round x grid = .ok n) :
    round (nearestValue (v / grid)) = n := by
  obtain ⟨y, hy, hn⟩ := bind_eq_ok.1 h
  obtain ⟨s, place, rfl, hvalue⟩ := dividedBy_value hgrid hheld hv hy
  rw [← hvalue]
  exact Except.ok.inj hn

/-- What is put on a grid has a value. -/
theorem exists_value_of_quotientWith {round : ℚ → ℤ} {x : Quantity} {n : ℤ}
    (h : quotientWith round x grid = .ok n) : ∃ v, x.value? = some v := by
  cases x with
  | whole a => exact ⟨a, rfl⟩
  | real x =>
    cases x with
    | finite s place => exact ⟨signed s place, rfl⟩
    | nan =>
      obtain ⟨y, hy, hn⟩ := bind_eq_ok.1 h
      obtain ⟨g, -, hy⟩ := bind_eq_ok.1 hy
      rw [← pure_eq_ok.1 hy] at hn
      exact nomatch hn
    | infinite s =>
      obtain ⟨y, hy, hn⟩ := bind_eq_ok.1 h
      obtain ⟨g, -, hy⟩ := bind_eq_ok.1 hy
      rw [← pure_eq_ok.1 hy] at hn
      cases g <;> exact nomatch hn

theorem abs_div_lt {v b : ℚ} (hgrid : 0 < grid) (h : |v| < b) : |v / grid| < b := by
  have hone : (1 : ℚ) ≤ grid := by exact_mod_cast hgrid
  rw [abs_div, Nat.abs_cast]
  exact (div_le_self (abs_nonneg v) hone).trans_lt h

/-- A short whole number is a number of whole units. -/
theorem inUnits_intCast {a : ℤ} (h : |a| < 2 ^ 52) : InUnits a := by
  have hlt : |(a : ℚ)| < 2 ^ 52 := by exact_mod_cast h
  refine ⟨2 * a, 0, ?_, ?_⟩
  · rw [Nat.cast_zero, neg_zero, zpow_zero]
    push_cast
    ring
  · rw [Nat.cast_zero, neg_zero, zpow_zero]
    calc |(a : ℚ)| * (2 : ℚ) ^ (-52 : ℤ) < 2 ^ 52 * (2 : ℚ) ^ (-52 : ℤ) :=
          mul_lt_mul_of_pos_right hlt (by positivity)
      _ = 1 := by norm_num

/-- A short value of a quantity is a number of units. -/
theorem inUnits_of_value {x : Quantity} {v : ℚ} (hv : x.value? = some v) (h : |v| < 2 ^ 52) :
    InUnits v := by
  cases x with
  | whole a =>
    cases hv
    exact inUnits_intCast (by exact_mod_cast h)
  | real x =>
    cases x with
    | nan => exact nomatch hv
    | infinite s => exact nomatch hv
    | finite s place =>
      obtain rfl : signed s place = v := Option.some.inj hv
      exact inUnits_signed h

/-- The nearest integer to the double of a quotient is that to the quotient. -/
theorem nearestInt_of_value (hgrid : 0 < grid) {x : Quantity} {v : ℚ} (hv : x.value? = some v)
    (h : |v| < 2 ^ 52) : nearestInt (nearestValue (v / grid)) = nearestInt (v / grid) :=
  nearestInt_nearestValue (abs_div_lt hgrid h) ((inUnits_of_value hv h).separated hgrid)

/-- **The nearest quotient** of a value below `2 ^ 52` is that of the exact quotient. -/
theorem nearestQuotient_value (hgrid : 0 < grid) (hsmall : grid < 2 ^ 53) {x : Quantity} {v : ℚ}
    (hv : x.value? = some v) (hbound : |v| < 2 ^ 52) {n : ℤ}
    (h : Arithmetic.nearestQuotient x grid = .ok n) : n = nearestInt (v / grid) := by
  rw [← nearestInt_of_value hgrid hv hbound]
  exact (quotientWith_value hgrid (holds_of_natCast_lt hsmall) hv h).symm

/-- The quotient of a short whole number does not overflow. -/
theorem hasQuotient_short {a : ℤ} (hgrid : 0 < grid) (h : |a| < 2 ^ 52) : HasQuotient a grid := by
  have hlt : |(a : ℚ)| < 2 ^ 52 := by exact_mod_cast h
  obtain ⟨place, hround, -⟩ := exists_roundMagnitude (k := 52) (by omega) (abs_nonneg _)
    (abs_div_lt hgrid hlt).le false
  exact hasQuotient_of_round hround

/-- **The nearest quotient of a whole number** below `2 ^ 52` is that of the exact quotient,
whatever the divisor. -/
theorem nearestQuotient_whole {a : ℤ} (hgrid : 0 < grid) (h : |a| < 2 ^ 52) :
    Arithmetic.nearestQuotient (.whole a : Quantity) grid = .ok (nearestInt (a / grid)) := by
  have hvalue : (whole a).value? = some (a : ℚ) := rfl
  refine (quotientWith_whole_iff hgrid).2 ⟨hasQuotient_short hgrid h, ?_⟩
  exact nearestInt_of_value hgrid hvalue (by exact_mod_cast h)

/-- **The quotients rounded down and up** of a whole number below `2 ^ 52` are those of the exact
quotient. -/
theorem floor_ceilQuotient_whole {a : ℤ} (hgrid : 0 < grid) (hsmall : grid < 2 ^ 52)
    (h : |a| < 2 ^ 52) :
    Arithmetic.floorQuotient Quantity a grid = .ok ((a : ℚ) / grid).floor ∧
      Arithmetic.ceilQuotient Quantity a grid = .ok ((a : ℚ) / grid).ceil := by
  have hlt : |(a : ℚ)| < 2 ^ 52 := by exact_mod_cast h
  have hpos : (0 : ℚ) < grid := by exact_mod_cast hgrid
  have hint : ∀ t : ℤ, Separated ((a : ℚ) / grid) t := by
    intro t
    have htwice : ((2 * t : ℤ) : ℚ) / 2 = t := by
      push_cast
      ring
    rw [← htwice]
    exact (inUnits_intCast h).separated hgrid (2 * t)
  have hlarge : (a : ℚ) / grid = 0 ∨ (2 : ℚ) ^ (-1022 : ℤ) ≤ |(a : ℚ) / grid| := by
    rcases eq_or_ne a 0 with rfl | hne
    · left
      rw [Int.cast_zero, zero_div]
    · right
      have hone : (1 : ℚ) ≤ |(a : ℚ)| := by exact_mod_cast Int.one_le_abs hne
      have hmany : (grid : ℚ) ≤ (2 : ℚ) ^ (52 : ℤ) := by exact_mod_cast hsmall.le
      rw [abs_div, Nat.abs_cast, le_div_iff₀ hpos]
      calc (2 : ℚ) ^ (-1022 : ℤ) * grid ≤ (2 : ℚ) ^ (-52 : ℤ) * (2 : ℚ) ^ (52 : ℤ) :=
            mul_le_mul (zpow_le_zpow_right₀ one_le_two (by omega)) hmany hpos.le (by positivity)
        _ = 1 := by rw [← zpow_add₀ two_ne_zero, neg_add_cancel, zpow_zero]
        _ ≤ |(a : ℚ)| := hone
  obtain ⟨hfloor, hceil⟩ := floor_ceil_nearestValue (abs_div_lt hgrid hlt) hint hlarge
  exact ⟨(quotientWith_whole_iff hgrid).2 ⟨hasQuotient_short hgrid h, hfloor⟩,
    (quotientWith_whole_iff hgrid).2 ⟨hasQuotient_short hgrid h, hceil⟩⟩

/-! ## Adding zero -/

/-- The quotient of a double zero is zero. -/
theorem quotientWith_zero {round : ℚ → ℤ} (hround : IsRounding round) (hgrid : 0 < grid) {s : Bool}
    {i : Place} (hi : magnitude i = 0) {y : Binary64} (hy : Binary64.ofInt grid = .ok y) :
    quotientWith round (.real (.finite s i)) grid = .ok 0 := by
  obtain ⟨j, rfl⟩ := finite_of_ofInt hy
  set t := decide ((grid : ℤ) < 0)
  have hdiv : (Binary64.finite s i).div (.finite t j) = .zero (s != t) := by
    rw [Binary64.div, if_neg (ne_zero_of_one_le (one_le_of_ofInt hgrid hy)), hi, zero_div,
      roundMagnitude, if_pos rfl]
  have hzero : signed (s != t) 0 = ((0 : ℤ) : ℚ) := by
    rw [Int.cast_zero, ← abs_eq_zero, abs_signed, magnitude_zero]
  rw [quotientWith, dividedBy, hy]
  show (Binary64.div (.finite s i) (.finite t j)).toIntWith round = .ok 0
  rw [hdiv]
  show Except.ok (round (signed (s != t) 0)) = .ok 0
  rw [hzero, hround.intCast]

/-- **A multiple plus a double zero** is divided without an error, if a double holds the multiple and
the divisor can be converted. -/
theorem quotientWith_add_zero {k : ℤ} {round : ℚ → ℤ} (hround : IsRounding round)
    (hgrid : 0 < grid) (hk : Holds k) (hmultiple : Holds (k * grid)) {y : Binary64}
    (hy : Binary64.ofInt grid = .ok y) (t : Bool) :
    ∃ x, (whole (k * grid)).add (.real (.zero t)) = .ok x ∧ quotientWith round x grid = .ok k := by
  obtain ⟨place, hplace, hmagnitude⟩ := ofInt_held hmultiple
  have hsum : signed (k * grid < 0) place + signed t 0 = ((k * grid : ℤ) : ℚ) := by
    have hzero : signed t 0 = 0 := by
      rw [← abs_eq_zero, abs_signed, magnitude_zero]
    rw [signed_of_magnitude hmagnitude, hzero, add_zero]
  obtain ⟨s, i, hadd, hvalue⟩ := exists_add_held (j := ⟨0, by decide⟩) hmultiple hsum
  refine ⟨.real (.finite s i), ?_, ?_⟩
  · rw [← hadd]
    show (do return Quantity.real (Binary64.add (← Binary64.ofInt (k * grid)) (.zero t))) = _
    rw [hplace]
    rfl
  rcases eq_or_ne k 0 with rfl | hne
  · have hi : magnitude i = 0 := by
      rw [← abs_signed s, hvalue, zero_mul, Int.cast_zero, abs_zero]
    exact quotientWith_zero hround hgrid hi hy
  · -- what divides the multiple is held as well
    have hmultiple_ne : k * grid ≠ 0 := mul_ne_zero hne (by exact_mod_cast hgrid.ne')
    have hheld : Holds grid := hmultiple.of_dvd hmultiple_ne (dvd_mul_left _ _)
    have hquotient : (Quantity.real (.finite s i)).dividedBy grid =
        .ok ((Binary64.finite s i).div y) := by
      rw [dividedBy, hy]
      rfl
    have hv : (Quantity.real (.finite s i)).value? = some ((k * grid : ℤ) : ℚ) :=
      congrArg some hvalue
    obtain ⟨s', j, hfinite, hj⟩ := dividedBy_value hgrid hheld hv hquotient
    rw [multiple_div hgrid, hk.nearestValue] at hj
    rw [quotientWith, hquotient, hfinite]
    show Except.ok (round (signed s' j)) = .ok k
    rw [hj, hround.intCast]

end Quantity

end SchemaDiagram
