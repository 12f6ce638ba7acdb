/-
# Texts with few digits

A double that is rounded to a number of significant digits is read back as the same double exactly
when it is the nearest one to some decimal with so few digits, as long as there are at most fifteen.

Two decimals with so few digits are further apart than the doubles around them, so that only one of
them is read as the double.  Near zero it is the other way round; there the doubles are evenly
spaced, and what is nearer to a double than a decimal that is read as it, is read as it, too.

* `nearestInt_closest`, `nearestInt_eq_of_closer` : which integers are nearest;
* `Binary64.decimalOrder_spec` : the order of a magnitude;
* `Binary64.exists_between` : a point of the decimal grid on the way to a short decimal;
* `Binary64.roundMagnitude_rounded` : short decimals are found by rounding;
* `Quantity.Short`, `Quantity.sameNumber_readBack_iff` : what has its own value again.
-/
import SchemaDiagram.Proofs.Number.Literal
import SchemaDiagram.Proofs.Number.Symmetry

namespace SchemaDiagram

/-! ## Integers -/

/-- Two integers are no further apart than a rational is from both. -/
theorem abs_intCast_sub_le (r : ℚ) (m n : ℤ) : |(m : ℚ) - n| ≤ |r - m| + |r - n| := by
  rw [abs_sub_comm r (m : ℚ)]
  exact abs_sub_le _ _ _

/-- Different integers are at least one apart. -/
theorem one_le_abs_intCast_sub {m n : ℤ} (h : m ≠ n) : 1 ≤ |(m : ℚ) - n| := by
  exact_mod_cast Int.one_le_abs (sub_ne_zero.2 h)

/-- How far a number is from a multiple of a unit, in this unit. -/
theorem abs_sub_mul_eq {unit : ℚ} (hunit : 0 < unit) (t m : ℚ) :
    |t - m * unit| = |t / unit - m| * unit := by
  rw [← abs_of_pos hunit, ← abs_mul, abs_of_pos hunit, sub_mul, div_mul_cancel₀ _ hunit.ne']

/-- No integer is nearer than the nearest one. -/
theorem nearestInt_closest (r : ℚ) (j : ℤ) : |r - nearestInt r| ≤ |r - j| := by
  by_cases hj : nearestInt r = j
  · rw [hj]
  · have hnear := abs_sub_nearestInt_le r
    have hapart := one_le_abs_intCast_sub hj
    have htriangle := abs_intCast_sub_le r (nearestInt r) j
    linarith

/-- Half way between two integers the even one is taken. -/
theorem even_of_tie {r : ℚ} (h : |r - nearestInt r| = 1 / 2) : nearestInt r % 2 = 0 := by
  have hlow : (r.floor : ℚ) ≤ r := Rat.floor_le r
  have hhigh : r < (r.floor + 1 : ℤ) := Rat.lt_floor_add_one r
  push_cast at hhigh
  rw [nearestInt] at h ⊢
  split_ifs at h ⊢ with hbelow habove heven
  · rw [abs_of_nonneg (by linarith)] at h
    linarith
  · push_cast at h
    rw [abs_of_nonpos (by linarith)] at h
    linarith
  · exact heven
  · omega

/-- What is nearer to an integer than something that is rounded to it, is rounded to it, too. -/
theorem nearestInt_eq_of_closer {r s : ℚ} (h : |s - nearestInt r| ≤ |r - nearestInt r|) :
    nearestInt s = nearestInt r := by
  have hnear := abs_sub_nearestInt_le r
  rcases lt_or_eq_of_le (h.trans hnear) with hlt | heq
  · exact nearestInt_eq_of_abs_lt hlt
  · -- both lie half way, where the even integer is taken
    have heven := even_of_tie (le_antisymm hnear (heq ▸ h))
    by_contra hne
    have hnear' := abs_sub_nearestInt_le s
    have hapart := one_le_abs_intCast_sub hne
    have htriangle := abs_intCast_sub_le s (nearestInt s) (nearestInt r)
    have heven' := even_of_tie (le_antisymm hnear' (by linarith))
    have hclose : |nearestInt s - nearestInt r| ≤ 1 := by
      have hone : |(nearestInt s : ℚ) - nearestInt r| ≤ 1 := by linarith
      exact_mod_cast hone
    rw [abs_le] at hclose
    omega

namespace Binary64

variable {n : ℕ} {place : Place}

/-! ## Orders -/

/-- A magnitude lies between the powers of ten on the two sides of its leading digit. -/
theorem decimalOrder_spec {r : ℚ} (h : (10 : ℚ) ^ (-400 : ℤ) ≤ r) :
    (10 : ℚ) ^ (decimalOrder r - 1) ≤ r ∧ r < (10 : ℚ) ^ decimalOrder r := by
  have hten : (10 : ℚ) ≠ 0 := by norm_num
  have hpow : (0 : ℚ) < (10 : ℚ) ^ (400 : ℤ) := by positivity
  have hsmall : (0 : ℚ) < (10 : ℚ) ^ (-400 : ℤ) := by positivity
  have hinverse : (10 : ℚ) ^ (400 : ℤ) * (10 : ℚ) ^ (-400 : ℤ) = 1 := by
    rw [← zpow_add₀ hten]
    rfl
  -- the order is that of the whole number of units of `10 ^ -400`
  set m := (r * (10 : ℚ) ^ (400 : ℤ)).floor with hm
  have hone : 1 ≤ m := by
    rw [hm, Rat.le_floor_iff, Int.cast_one]
    calc (1 : ℚ) = (10 : ℚ) ^ (-400 : ℤ) * (10 : ℚ) ^ (400 : ℤ) := by rw [mul_comm, hinverse]
      _ ≤ r * (10 : ℚ) ^ (400 : ℤ) := mul_le_mul_of_nonneg_right h hpow.le
  obtain ⟨k, hk⟩ := Int.eq_ofNat_of_zero_le (zero_le_one.trans hone)
  have hkne : k ≠ 0 := by omega
  have horder : decimalOrder r = Decimal.digitCount k - 400 := by
    rw [decimalOrder, ← hm, hk, Int.toNat_natCast]
  have hcount := Decimal.digitCount_pos k
  have hunits : r = r * (10 : ℚ) ^ (400 : ℤ) * (10 : ℚ) ^ (-400 : ℤ) := by
    rw [mul_assoc, hinverse, mul_one]
  have hlow : (k : ℚ) ≤ r * (10 : ℚ) ^ (400 : ℤ) := by
    have hfloor := Rat.floor_le (r * (10 : ℚ) ^ (400 : ℤ))
    rwa [← hm, hk, Int.cast_natCast] at hfloor
  have hhigh : r * (10 : ℚ) ^ (400 : ℤ) < k + 1 := by
    have hfloor := Rat.lt_floor_add_one (r * (10 : ℚ) ^ (400 : ℤ))
    rw [← hm, hk] at hfloor
    exact_mod_cast hfloor
  constructor
  · have hsplit : decimalOrder r - 1 = ((Decimal.digitCount k - 1 : ℕ) : ℤ) + (-400) := by omega
    calc (10 : ℚ) ^ (decimalOrder r - 1)
        = ((10 ^ (Decimal.digitCount k - 1) : ℕ) : ℚ) * (10 : ℚ) ^ (-400 : ℤ) := by
          rw [hsplit, zpow_add₀ hten, zpow_natCast]
          norm_cast
      _ ≤ k * (10 : ℚ) ^ (-400 : ℤ) :=
          mul_le_mul_of_nonneg_right (by exact_mod_cast Decimal.pow_le_of_digitCount hkne) hsmall.le
      _ ≤ r * (10 : ℚ) ^ (400 : ℤ) * (10 : ℚ) ^ (-400 : ℤ) :=
          mul_le_mul_of_nonneg_right hlow hsmall.le
      _ = r := hunits.symm
  · have hsplit : decimalOrder r = (Decimal.digitCount k : ℤ) + (-400) := by omega
    calc r = r * (10 : ℚ) ^ (400 : ℤ) * (10 : ℚ) ^ (-400 : ℤ) := hunits
      _ < (k + 1) * (10 : ℚ) ^ (-400 : ℤ) := mul_lt_mul_of_pos_right hhigh hsmall
      _ ≤ ((10 ^ Decimal.digitCount k : ℕ) : ℚ) * (10 : ℚ) ^ (-400 : ℤ) :=
          mul_le_mul_of_nonneg_right (by exact_mod_cast Decimal.lt_pow_digitCount k) hsmall.le
      _ = (10 : ℚ) ^ decimalOrder r := by
          rw [hsplit, zpow_add₀ hten, zpow_natCast]
          norm_cast

/-! ## Rounding to few digits -/

/-- The exponent of the last of `n` significant digits of a magnitude. -/
def lastDigit (n : ℕ) (r : ℚ) : ℤ := decimalOrder r - n

/-- The decimals of `n` significant digits next to a positive magnitude are the whole numbers of
units of its last digit, and rounding takes the nearest one. -/
theorem rounded_eq (h : place.val ≠ 0) :
    (rounded n place).negative = false ∧ (rounded n place).exponent = lastDigit n (magnitude place) ∧
      ((rounded n place).digits : ℤ) =
        nearestInt (magnitude place / (10 : ℚ) ^ lastDigit n (magnitude place)) := by
  have hpos : 0 ≤ magnitude place / (10 : ℚ) ^ lastDigit n (magnitude place) := by
    rw [magnitude]
    positivity
  rw [rounded, if_neg h]
  refine ⟨rfl, rfl, Int.toNat_of_nonneg (le_nearestInt ?_)⟩
  rw [Int.cast_zero]
  exact hpos

/-- No decimal of the grid is nearer to a magnitude than the rounded one. -/
theorem rounded_closest (h : place.val ≠ 0) (j : ℤ) :
    |magnitude place - (rounded n place).magnitude| ≤
      |magnitude place - j * (10 : ℚ) ^ lastDigit n (magnitude place)| := by
  obtain ⟨-, hexponent, hdigits⟩ := rounded_eq (n := n) h
  have hpow : (0 : ℚ) < (10 : ℚ) ^ lastDigit n (magnitude place) := by positivity
  have hrounded : (rounded n place).magnitude =
      (nearestInt (magnitude place / (10 : ℚ) ^ lastDigit n (magnitude place)) : ℤ) *
        (10 : ℚ) ^ lastDigit n (magnitude place) := by
    rw [Decimal.magnitude, hexponent, ← hdigits, Int.cast_natCast]
  rw [hrounded, abs_sub_mul_eq hpow, abs_sub_mul_eq hpow]
  exact mul_le_mul_of_nonneg_right (nearestInt_closest _ j) hpow.le

/-- The positive magnitudes have a decimal order. -/
theorem magnitude_spec (h : place.val ≠ 0) :
    (10 : ℚ) ^ (decimalOrder (magnitude place) - 1) ≤ magnitude place ∧
      magnitude place < (10 : ℚ) ^ decimalOrder (magnitude place) := by
  refine decimalOrder_spec ?_
  calc (10 : ℚ) ^ (-400 : ℤ) ≤ (10 : ℚ) ^ (-331 : ℤ) := zpow_le_zpow_right₀ (by norm_num) (by norm_num)
    _ ≤ (2 : ℚ) ^ (-1075 : ℤ) := two_zpow_le_ten_zpow.2
    _ ≤ (2 : ℚ) ^ (-1074 : ℤ) := zpow_le_zpow_right₀ one_le_two (by norm_num)
    _ ≤ magnitude place := (magnitude_bounds h).1

/-- **On the way** from a decimal with few digits to a magnitude there is a point of the grid of
its last digit, if this decimal is not on the grid itself. -/
theorem exists_between {d : Decimal} (hn : 0 < n) (hd : d.digits < 10 ^ n) (h : place.val ≠ 0) :
    ∃ j : ℤ, d.magnitude = j * (10 : ℚ) ^ lastDigit n (magnitude place) ∨
      (d.magnitude ≤ j * (10 : ℚ) ^ lastDigit n (magnitude place) ∧
        j * (10 : ℚ) ^ lastDigit n (magnitude place) ≤ magnitude place) := by
  have hten : (10 : ℚ) ≠ 0 := by norm_num
  obtain ⟨hlow, -⟩ := magnitude_spec h
  rcases le_or_gt (lastDigit n (magnitude place)) d.exponent with hcoarse | hfine
  · -- a decimal without finer digits is on the grid
    obtain ⟨k, hk⟩ := Int.eq_ofNat_of_zero_le (sub_nonneg.2 hcoarse)
    refine ⟨d.digits * 10 ^ k, Or.inl ?_⟩
    have hexponent : d.exponent = k + lastDigit n (magnitude place) := by omega
    rw [Decimal.magnitude, hexponent, zpow_add₀ hten, zpow_natCast]
    push_cast
    ring
  · -- a decimal with finer digits lies below the power of ten of the leading digit
    refine ⟨10 ^ (n - 1), Or.inr ⟨?_, ?_⟩⟩
    · calc d.magnitude ≤ (10 : ℚ) ^ n * (10 : ℚ) ^ d.exponent :=
            mul_le_mul_of_nonneg_right (by exact_mod_cast hd.le) (by positivity)
        _ ≤ (10 : ℚ) ^ n * (10 : ℚ) ^ (lastDigit n (magnitude place) - 1) :=
            mul_le_mul_of_nonneg_left (zpow_le_zpow_right₀ (by norm_num) (by omega)) (by positivity)
        _ = ((10 ^ (n - 1) : ℤ) : ℚ) * (10 : ℚ) ^ lastDigit n (magnitude place) := by
            push_cast
            rw [← zpow_natCast, ← zpow_natCast, ← zpow_add₀ hten, ← zpow_add₀ hten]
            congr 1
            omega
    · refine le_trans (le_of_eq ?_) hlow
      push_cast
      rw [← zpow_natCast, ← zpow_add₀ hten]
      congr 1
      rw [lastDigit]
      omega

/-! ## Reading back -/

/-- A magnitude is at one place only. -/
theorem eq_of_magnitude {i j : Place} (h : magnitude i = magnitude j) : i = j := by
  have hround := roundMagnitude_magnitude false i
  rw [h, roundMagnitude_magnitude] at hround
  cases hround
  rfl

/-- What has the nearest magnitude of a place, and is not too great, is rounded to this place. -/
theorem roundMagnitude_of_nearestMagnitude {r : ℚ} {negative : Bool} {other : Place} (hr : 0 ≤ r)
    (hfinite : roundMagnitude negative r = .finite negative other)
    (h : nearestMagnitude r = magnitude place) :
    roundMagnitude negative r = .finite negative place := by
  have hother : other = place :=
    eq_of_magnitude ((magnitude_of_roundMagnitude hr hfinite).2.trans h)
  rw [hfinite, hother]

/-- On the way from what is rounded to a place, all is rounded to it. -/
theorem roundMagnitude_of_between {r s : ℚ} {negative : Bool} (hr : 0 ≤ r)
    (h : roundMagnitude negative r = .finite negative place) (hlow : r ≤ s)
    (hhigh : s ≤ magnitude place) : roundMagnitude negative s = .finite negative place := by
  have hs := hr.trans hlow
  have hexact := roundMagnitude_magnitude negative place
  obtain ⟨other, hfinite⟩ := finite_of_le hs hhigh hexact negative
  refine roundMagnitude_of_nearestMagnitude hs hfinite (le_antisymm ?_ ?_)
  · have hmono := nearestMagnitude_mono hs hhigh
    rwa [← (magnitude_of_roundMagnitude (hs.trans hhigh) hexact).2] at hmono
  · have hmono := nearestMagnitude_mono hr hlow
    rwa [← (magnitude_of_roundMagnitude hr h).2] at hmono

/-- Where doubles are evenly spaced, what is nearer to a place than something that is rounded to it,
is rounded to it, too. -/
theorem roundMagnitude_of_closer {r s : ℚ} {negative : Bool} (hr : 0 < r)
    (h : roundMagnitude negative r = .finite negative place) (hplace : place.val ≠ 0)
    (hsmall : magnitude place < 2 ^ 50 * (2 : ℚ) ^ unitOf r)
    (hcloser : |s - magnitude place| ≤ |r - magnitude place|) :
    roundMagnitude negative s = .finite negative place := by
  have hplaceEq := (magnitude_of_roundMagnitude hr.le h).2
  -- with so few units, the unit is the least one
  have hfew : unitsOf r < 2 ^ 50 := by
    rw [hplaceEq, nearestMagnitude] at hsmall
    have hcast := lt_of_mul_lt_mul_right hsmall (by positivity)
    exact_mod_cast hcast
  have hunit : unitOf r = -1074 := by
    by_contra hne
    have := le_unitsOf hr hne
    omega
  have herror : |r - magnitude place| ≤ (2 : ℚ) ^ (-1074 : ℤ) / 2 := by
    rw [abs_sub_comm, hplaceEq, ← hunit]
    exact abs_nearestMagnitude_sub_le r
  have hleast : (2 : ℚ) ^ (-1074 : ℤ) ≤ magnitude place := (magnitude_bounds hplace).1
  have hpow : (0 : ℚ) < (2 : ℚ) ^ (-1074 : ℤ) := by positivity
  obtain ⟨hlow, hhigh⟩ := abs_le.1 (hcloser.trans herror)
  have hs : 0 < s := by linarith
  have hbelow : s < (2 : ℚ) ^ (-1023 : ℤ) := by
    have hsplit : (2 : ℚ) ^ (-1023 : ℤ) = 2 ^ 51 * (2 : ℚ) ^ (-1074 : ℤ) := by
      rw [← zpow_natCast, ← zpow_add₀ two_ne_zero]
      rfl
    rw [hunit] at hsmall
    rw [hsplit]
    linarith
  have hunit' : unitOf s = -1074 := by
    have horder := (zpow_lt_zpow_iff_right₀ one_lt_two).1 ((binaryOrder_spec hs).1.trans_lt hbelow)
    simp only [unitOf]
    omega
  have hunits : unitsOf s = unitsOf r := by
    rw [hplaceEq, nearestMagnitude, hunit, abs_sub_mul_eq hpow, abs_sub_mul_eq hpow] at hcloser
    have hnearer := le_of_mul_le_mul_right hcloser hpow
    rw [unitsOf, hunit', unitsOf, hunit]
    rw [unitsOf, hunit] at hnearer
    exact nearestInt_eq_of_closer hnearer
  obtain ⟨other, hfinite, -⟩ := exists_roundMagnitude (k := 0) (by norm_num) hs.le
    (hbelow.le.trans (by rw [pow_zero]; exact zpow_le_one_of_nonpos₀ one_le_two (by norm_num)))
    negative
  refine roundMagnitude_of_nearestMagnitude hs.le hfinite ?_
  rw [hplaceEq, nearestMagnitude, nearestMagnitude, hunits, hunit', hunit]

/-- **A decimal with few digits** that is read as a double is found by rounding this double to so
many digits, or else rounding finds another one that is read as the same double. -/
theorem roundMagnitude_rounded {d : Decimal} {negative : Bool} (hn : 0 < n) (hn' : n ≤ 15)
    (hd : d.digits < 10 ^ n) (hplace : place.val ≠ 0)
    (h : roundMagnitude negative d.magnitude = .finite negative place) :
    roundMagnitude negative (rounded n place).magnitude = .finite negative place := by
  have hten : (10 : ℚ) ≠ 0 := by norm_num
  set v := magnitude place with hv
  set unit := (10 : ℚ) ^ lastDigit n v with hunit
  have hpow : (0 : ℚ) < unit := by positivity
  have hnonneg := d.magnitude_nonneg
  have hpos : 0 < d.magnitude := by
    refine lt_of_le_of_ne hnonneg fun hzero => hplace ?_
    rw [← hzero, roundMagnitude, if_pos rfl] at h
    cases h
    rfl
  have hnearest := (magnitude_of_roundMagnitude hnonneg h).2
  have herror : |v - d.magnitude| ≤ (2 : ℚ) ^ unitOf d.magnitude / 2 := by
    rw [hv, hnearest]
    exact abs_nearestMagnitude_sub_le _
  obtain ⟨j, hj⟩ := exists_between hn hd hplace
  have hway : |v - j * unit| ≤ |v - d.magnitude| := by
    rcases hj with heq | ⟨hlow, hhigh⟩
    · rw [← heq]
    · rw [abs_of_nonneg (sub_nonneg.2 hhigh), abs_of_nonneg (sub_nonneg.2 (hlow.trans hhigh))]
      exact sub_le_sub_left hlow _
  have hclosest := rounded_closest (n := n) hplace j
  rcases lt_or_ge ((2 : ℚ) ^ unitOf d.magnitude) unit with hcoarse | hfine
  · -- only one point of the grid is as near as that
    have hsame : (rounded n place).magnitude = j * unit := by
      obtain ⟨-, hexponent, -⟩ := rounded_eq (n := n) hplace
      have hdigits : (rounded n place).magnitude = ((rounded n place).digits : ℤ) * unit := by
        rw [Decimal.magnitude, hexponent, Int.cast_natCast]
      by_contra hne
      have hapart : (1 : ℚ) ≤ |(((rounded n place).digits : ℤ) : ℚ) - j| := by
        refine one_le_abs_intCast_sub fun heq => hne ?_
        rw [hdigits, heq]
      have hdistance : |(rounded n place).magnitude - j * unit| =
          |(((rounded n place).digits : ℤ) : ℚ) - j| * unit := by
        rw [abs_sub_mul_eq hpow, hdigits, mul_div_cancel_right₀ _ hpow.ne']
      have htriangle : |(rounded n place).magnitude - j * unit| ≤
          |v - (rounded n place).magnitude| + |v - j * unit| := by
        rw [abs_sub_comm v (rounded n place).magnitude]
        exact abs_sub_le _ _ _
      have hscaled := mul_le_mul_of_nonneg_right hapart hpow.le
      linarith
    rw [hsame]
    rcases hj with heq | ⟨hlow, hhigh⟩
    · rwa [← heq]
    · exact roundMagnitude_of_between hnonneg h hlow hhigh
  · -- the magnitude has so few units that they are the least ones
    refine roundMagnitude_of_closer hpos h hplace ?_ ?_
    · calc v < (10 : ℚ) ^ decimalOrder v := (magnitude_spec hplace).2
        _ = (10 : ℚ) ^ n * unit := by
          rw [hunit, lastDigit, ← zpow_natCast, ← zpow_add₀ hten, add_sub_cancel]
        _ ≤ 2 ^ 50 * unit := by
          refine mul_le_mul_of_nonneg_right ?_ hpow.le
          calc (10 : ℚ) ^ n ≤ 10 ^ 15 := pow_le_pow_right₀ (by norm_num) hn'
            _ ≤ 2 ^ 50 := by norm_num
        _ ≤ 2 ^ 50 * (2 : ℚ) ^ unitOf d.magnitude := mul_le_mul_of_nonneg_left hfine (by norm_num)
    · rw [abs_sub_comm, abs_sub_comm d.magnitude]
      exact hclosest.trans hway

/-- A double to which a short decimal is nearest is read back from its rounded digits. -/
theorem readBack_rounded {d : Decimal} {t : Bool} (hn : 0 < n) (hn' : n ≤ 15)
    (hd : d.digits < 10 ^ n) (h : d.toBinary64 = .finite t place) (negative : Bool) :
    (finite negative place).readBack (rounded n) = .finite negative place := by
  have hround := Decimal.toBinary64_eq_finite h negative
  rw [Decimal.toBinary64_eq_roundMagnitude] at hround
  by_cases hplace : place.val = 0
  · have hfirst : place = ⟨0, by decide⟩ := Fin.ext hplace
    rw [readBack, rounded, if_pos hplace, hfirst]
    rfl
  · rw [readBack, Decimal.toBinary64_eq_roundMagnitude]
    exact roundMagnitude_rounded hn hn' hd hplace hround

/-- What is read back from rounded digits is what some short decimal is read as. -/
theorem exists_short_rounded (hn : 0 < n) (negative : Bool) (place : Place) :
    ∃ d : Decimal, d.digits < 10 ^ n ∧
      d.toBinary64 = (finite negative place).readBack (rounded n) := by
  by_cases hplace : place.val = 0
  · refine ⟨{ rounded n place with negative := negative }, ?_, rfl⟩
    rw [rounded, if_pos hplace]
    exact pow_pos (by norm_num) n
  · have hten : (10 : ℚ) ≠ 0 := by norm_num
    obtain ⟨-, hexponent, hdigits⟩ := rounded_eq (n := n) hplace
    have hpow : (0 : ℚ) < (10 : ℚ) ^ lastDigit n (magnitude place) := by positivity
    have hle : ((rounded n place).digits : ℤ) ≤ 10 ^ n := by
      rw [hdigits]
      refine nearestInt_le ?_
      rw [div_le_iff₀ hpow, lastDigit]
      push_cast
      rw [← zpow_natCast, ← zpow_add₀ hten, add_sub_cancel]
      exact (magnitude_spec hplace).2.le
    rcases lt_or_eq_of_le hle with hlt | heq
    · exact ⟨{ rounded n place with negative := negative }, by exact_mod_cast hlt, rfl⟩
    · -- a power of ten needs one digit only
      have hpower : (rounded n place).digits = 10 ^ n := by exact_mod_cast heq
      refine ⟨⟨negative, 10 ^ (n - 1), (rounded n place).exponent + 1⟩,
        Nat.pow_lt_pow_right (by norm_num) (by omega), ?_⟩
      rw [readBack]
      refine Decimal.toBinary64_congr rfl ?_
      rw [Decimal.magnitude, Decimal.magnitude]
      dsimp only
      rw [hpower, zpow_add_one₀ hten]
      obtain ⟨k, rfl⟩ := Nat.exists_eq_add_one.2 hn
      push_cast
      rw [pow_succ]
      ring

end Binary64

/-! ## Quantities -/

namespace Quantity

variable {n : ℕ} {x : Quantity} {y : Binary64}

/-- A quantity of which the value is that of the double nearest to some decimal with at most `n`
digits. -/
def Short (n : ℕ) (x : Quantity) : Prop :=
  ∀ v, x.value? = some v → ∃ d : Decimal, d.digits < 10 ^ n ∧ d.toBinary64.toRat? = some v

/-- A double that has a value is finite. -/
theorem exists_of_toRat? {x : Binary64} {v : ℚ} (h : x.toRat? = some v) :
    ∃ s place, x = .finite s place ∧ Binary64.signed s place = v := by
  cases x with
  | nan => cases h
  | infinite s => cases h
  | finite s place => exact ⟨s, place, rfl, Option.some.inj h⟩

/-- **A quantity** has its own value again after it is rounded to a few digits and read back exactly
when it is short. -/
theorem sameNumber_readBack_iff (hn : 0 < n) (hn' : n ≤ 15) (hy : x.toBinary64 = .ok y) :
    (real (y.readBack (Binary64.rounded n))).SameNumber x ↔ x.Short n := by
  cases x with
  | whole a =>
    obtain ⟨place, rfl⟩ := Binary64.finite_of_ofInt hy
    constructor
    · rintro (hsame | ⟨v, hread, hv⟩) w hw
      · cases hsame
      · obtain ⟨d, hd, hround⟩ := Binary64.exists_short_rounded hn (a < 0) place
        have hvalue : v = w := Option.some.inj (hv.symm.trans hw)
        exact ⟨d, hd, by rw [hround, ← hvalue]; exact hread⟩
    · intro hshort
      obtain ⟨d, hd, hvalue⟩ := hshort a rfl
      obtain ⟨s, other, hround, hvalue⟩ := exists_of_toRat? hvalue
      -- the double of the decimal has the value of the whole number, so it is its double
      have hother : Binary64.magnitude other = |(a : ℚ)| := by
        rw [← hvalue, Binary64.abs_signed]
      obtain ⟨place', hplace', hheld⟩ := Binary64.ofInt_held ⟨other, hother⟩
      have hsame : place' = place := by
        have hok := hplace'.symm.trans hy
        cases hok
        rfl
      subst hsame
      have heq : other = place' := Binary64.eq_of_magnitude (hother.trans hheld.symm)
      subst heq
      rw [Binary64.readBack_rounded hn hn' hd hround]
      exact Or.inr ⟨a, congrArg some (Binary64.signed_of_magnitude hother), rfl⟩
  | real x =>
    cases hy
    cases y with
    | nan => exact iff_of_true (.refl _) fun v hv => by cases hv
    | infinite s => exact iff_of_true (.refl _) fun v hv => by cases hv
    | finite s place =>
      constructor
      · intro hsame v hv
        obtain ⟨d, hd, hround⟩ := Binary64.exists_short_rounded hn s place
        refine ⟨d, hd, ?_⟩
        rw [hround]
        rcases hsame with hsame | ⟨w, hread, hw⟩
        · rw [real.inj hsame]
          exact hv
        · rw [← hv, hw]
          exact hread
      · intro hshort
        obtain ⟨d, hd, hvalue⟩ := hshort _ rfl
        obtain ⟨t, other, hround, hvalue⟩ := exists_of_toRat? hvalue
        have heq : other = place := Binary64.eq_of_magnitude (by
          rw [← Binary64.abs_signed t, hvalue, Binary64.abs_signed])
        subst heq
        rw [Binary64.readBack_rounded hn hn' hd hround]
        exact .refl _

/-- A quantity is short if its value is held by a double and has at most `n` decimal digits. -/
theorem short_of_magnitude {v : ℚ} {d : Decimal} {place : Binary64.Place}
    (hv : x.value? = some v) (hplace : Binary64.magnitude place = |v|) (hd : d.digits < 10 ^ n)
    (hmagnitude : d.magnitude = |v|) : x.Short n := by
  intro w hw
  obtain rfl : v = w := Option.some.inj (hv.symm.trans hw)
  refine ⟨{ d with negative := v < 0 }, hd, ?_⟩
  have hread := Decimal.toBinary64_of_magnitude (d := { d with negative := decide (v < 0) })
    (hmagnitude.trans hplace.symm)
  rw [hread, Binary64.toRat?, Binary64.signed, hplace]
  by_cases hneg : v < 0
  · rw [if_pos (decide_eq_true hneg), abs_of_neg hneg, neg_neg]
  · rw [if_neg (by simpa using hneg), abs_of_nonneg (not_lt.1 hneg)]

/-- Whole numbers with at most `n` digits are short. -/
theorem short_whole {a : ℤ} (hn' : n ≤ 15) (h : |a| < 10 ^ n) : (whole a).Short n := by
  have hlt : |a| < 2 ^ 53 :=
    calc |a| < 10 ^ n := h
      _ ≤ 10 ^ 15 := pow_le_pow_right₀ (by norm_num) hn'
      _ < 2 ^ 53 := by norm_num
  obtain ⟨place, hplace⟩ := Binary64.holds_of_lt hlt
  refine short_of_magnitude (d := ⟨false, a.natAbs, 0⟩) rfl hplace ?_ ?_
  · rw [← Int.natCast_natAbs] at h
    exact_mod_cast h
  · rw [Decimal.magnitude, zpow_zero, mul_one, ← Int.cast_natCast (R := ℚ), Int.natCast_natAbs,
      Int.cast_abs]

end Quantity

end SchemaDiagram
