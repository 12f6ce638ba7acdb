/-
# Reading back the digits of a double

A decimal is read as the double nearest to it, whatever digits it is written with.  The shortest
digits of a place, with any sign, are read as that place again.

* `Binary64.magnitude_bounds` : between which powers of two the positive magnitudes lie;
* `Decimal.toBinary64_eq_roundMagnitude` : the limits of the first digit do not change what a decimal
  is read as;
* `Decimal.toBinary64_congr` : decimals of the same magnitude;
* `Decimal.toBinary64_of_magnitude` : a decimal that is exactly the magnitude at a place;
* `Binary64.toBinary64_shortest` : the shortest digits.
-/
import SchemaDiagram.Number.Shortest
import SchemaDiagram.Proofs.Number.Accuracy
import SchemaDiagram.Proofs.Number.Digits

namespace SchemaDiagram

namespace Decimal

/-! ## Magnitudes -/

theorem magnitude_eq_zero_iff {d : Decimal} : d.magnitude = 0 ↔ d.digits = 0 := by
  have hpow : (10 : ℚ) ^ d.exponent ≠ 0 := zpow_ne_zero _ (by norm_num)
  rw [magnitude, mul_eq_zero, Nat.cast_eq_zero, or_iff_left hpow]

theorem magnitude_nonneg (d : Decimal) : 0 ≤ d.magnitude := by
  rw [magnitude]
  positivity

/-- A decimal is at least the power of ten at its first digit. -/
theorem pow_le_magnitude {d : Decimal} (h : d.digits ≠ 0) :
    (10 : ℚ) ^ (d.exponent + digitCount d.digits - 1) ≤ d.magnitude := by
  have hcount : d.exponent + digitCount d.digits - 1 =
      (digitCount d.digits - 1 : ℕ) + d.exponent := by
    have := digitCount_pos d.digits
    omega
  rw [magnitude, hcount, zpow_add₀ (by norm_num), zpow_natCast]
  refine mul_le_mul_of_nonneg_right ?_ (by positivity)
  exact_mod_cast pow_le_of_digitCount h

/-- A decimal is below the power of ten in front of its first digit. -/
theorem magnitude_lt_pow (d : Decimal) :
    d.magnitude < (10 : ℚ) ^ (d.exponent + digitCount d.digits) := by
  rw [magnitude, add_comm, zpow_add₀ (by norm_num), zpow_natCast]
  refine mul_lt_mul_of_pos_right ?_ (by positivity)
  exact_mod_cast lt_pow_digitCount d.digits

end Decimal

namespace Binary64

/-! ## Signs -/

/-- A magnitude that rounds to a place does so with either sign. -/
theorem roundMagnitude_eq_finite {r : ℚ} {s t : Bool} {place : Place}
    (h : roundMagnitude s r = .finite t place) (negative : Bool) :
    roundMagnitude negative r = .finite negative place := by
  rw [roundMagnitude] at h ⊢
  split at h
  · next hr =>
    rw [if_pos hr]
    cases h
    rfl
  · next hr =>
    rw [if_neg hr]
    dsimp only at h ⊢
    split at h
    · next hplace =>
      rw [dif_pos hplace]
      cases h
      rfl
    · cases h

/-! ## Bounds -/

/-- The exponents of places begin with that of the least magnitude. -/
theorem le_exponent (place : ℕ) : -1074 ≤ exponent place := by
  rw [exponent]
  split
  · omega
  · next hlarge =>
    have := Nat.div_pos (not_lt.1 hlarge) (by decide)
    omega

/-- The positive magnitudes lie between two powers of two. -/
theorem magnitude_bounds {place : Place} (h : place.val ≠ 0) :
    (2 : ℚ) ^ (-1074 : ℤ) ≤ magnitude place ∧ magnitude place < (2 : ℚ) ^ (1024 : ℤ) := by
  have hhigh : exponent place ≤ 971 := by
    rw [exponent]
    split
    · omega
    · have hlt : place.val / binade < 2047 := Nat.div_lt_of_lt_mul place.isLt
      omega
  have hone : 1 ≤ significand place := by
    rw [significand]
    split
    · omega
    · exact Nat.le_trans (by decide) (Nat.le_add_right _ _)
  have hmany : significand place < 2 ^ 53 := by
    rw [significand]
    have hmod : place.val % binade < binade := Nat.mod_lt _ (by decide)
    have hbinade : binade = 2 ^ 52 := by norm_num
    split
    · omega
    · omega
  rw [magnitude]
  constructor
  · calc (2 : ℚ) ^ (-1074 : ℤ) ≤ (2 : ℚ) ^ exponent place :=
          zpow_le_zpow_right₀ one_le_two (le_exponent place)
      _ = 1 * (2 : ℚ) ^ exponent place := (one_mul _).symm
      _ ≤ significand place * (2 : ℚ) ^ exponent place :=
        mul_le_mul_of_nonneg_right (by exact_mod_cast hone) (by positivity)
  · calc (significand place : ℚ) * (2 : ℚ) ^ exponent place
        < 2 ^ 53 * (2 : ℚ) ^ exponent place :=
          mul_lt_mul_of_pos_right (by exact_mod_cast hmany) (by positivity)
      _ ≤ 2 ^ 53 * (2 : ℚ) ^ (971 : ℤ) :=
          mul_le_mul_of_nonneg_left (zpow_le_zpow_right₀ one_le_two hhigh) (by positivity)
      _ = (2 : ℚ) ^ (1024 : ℤ) := by
          rw [← zpow_natCast, ← zpow_add₀ two_ne_zero]
          rfl

/-- The powers of ten beyond which digits do not count lie beyond all finite magnitudes. -/
theorem two_zpow_le_ten_zpow :
    (2 : ℚ) ^ (1024 : ℤ) ≤ (10 : ℚ) ^ (311 : ℤ) ∧
      (10 : ℚ) ^ (-331 : ℤ) ≤ (2 : ℚ) ^ (-1075 : ℤ) := by
  have hlarge : (2 : ℕ) ^ 1024 ≤ 10 ^ 311 := by decide +kernel
  have hsmall : (2 : ℕ) ^ 1075 ≤ 10 ^ 331 := by decide +kernel
  have hlarge' : ((2 : ℕ) : ℚ) ^ 1024 ≤ ((10 : ℕ) : ℚ) ^ 311 := by
    rw [← Nat.cast_pow, ← Nat.cast_pow, Nat.cast_le]
    exact hlarge
  have hsmall' : ((2 : ℕ) : ℚ) ^ 1075 ≤ ((10 : ℕ) : ℚ) ^ 331 := by
    rw [← Nat.cast_pow, ← Nat.cast_pow, Nat.cast_le]
    exact hsmall
  refine ⟨hlarge', ?_⟩
  rw [zpow_neg, zpow_neg]
  exact inv_anti₀ (by positivity) hsmall'

/-- Magnitudes beyond the finite ones are infinite. -/
theorem roundMagnitude_of_large {r : ℚ} (h : (2 : ℚ) ^ (1024 : ℤ) ≤ r) (negative : Bool) :
    roundMagnitude negative r = .infinite negative := by
  refine (roundMagnitude_cases negative r).resolve_left ?_
  rintro ⟨place, hround⟩
  have hpow : (0 : ℚ) < (2 : ℚ) ^ (1024 : ℤ) := by positivity
  have hexact : nearestMagnitude ((2 : ℚ) ^ (1024 : ℤ)) = (2 : ℚ) ^ (1024 : ℤ) := by
    have hone := nearestMagnitude_scaled (n := 1) (e := 1024) (by norm_num) (by norm_num)
    rwa [Nat.cast_one, one_mul] at hone
  have hlarge : (2 : ℚ) ^ (1024 : ℤ) ≤ magnitude place := by
    rw [(magnitude_of_roundMagnitude (hpow.le.trans h) hround).2, ← hexact]
    exact nearestMagnitude_mono hpow.le h
  by_cases hplace : place.val = 0
  · rw [hplace, magnitude_zero] at hlarge
    exact absurd hlarge (not_le.2 hpow)
  · exact absurd hlarge (not_le.2 (magnitude_bounds hplace).2)

/-- Up to half of the least positive magnitude, everything is rounded to zero. -/
theorem roundMagnitude_of_small {r : ℚ} (hr : 0 ≤ r) (h : r ≤ (2 : ℚ) ^ (-1075 : ℤ))
    (negative : Bool) : roundMagnitude negative r = zero negative := by
  have hhalf : nearestMagnitude ((2 : ℚ) ^ (-1075 : ℤ)) = 0 := by
    have horder : binaryOrder ((2 : ℚ) ^ (-1075 : ℤ)) = -1075 :=
      binaryOrder_eq le_rfl (zpow_lt_zpow_right₀ one_lt_two (by norm_num))
    have hunits : (2 : ℚ) ^ (-1075 : ℤ) / (2 : ℚ) ^ (-1074 : ℤ) = 1 / 2 := by
      rw [← zpow_sub₀ two_ne_zero]
      norm_num
    have heven : nearestInt (1 / 2) = 0 := by decide +kernel
    rw [nearestMagnitude, unitsOf, unitOf, horder]
    norm_num only [max_eq_right]
    rw [hunits, heven, Int.cast_zero, zero_mul]
  have hleast : r ≤ magnitude (⟨1, by decide⟩ : Place) := by
    have hone : magnitude (⟨1, by decide⟩ : Place) = (2 : ℚ) ^ (-1074 : ℤ) := by
      have hmagnitude := magnitude_units (k := 0) (u := 1) (by norm_num) (Or.inl rfl)
      rw [Nat.cast_one, one_mul, Nat.cast_zero, zero_sub, zero_mul, zero_add] at hmagnitude
      exact hmagnitude
    rw [hone]
    exact h.trans (zpow_le_zpow_right₀ one_le_two (by norm_num))
  obtain ⟨place, hround⟩ := finite_of_le hr hleast (roundMagnitude_magnitude false _) negative
  have hzero : magnitude place ≤ 0 := by
    rw [(magnitude_of_roundMagnitude hr hround).2, ← hhalf]
    exact nearestMagnitude_mono hr h
  have hplace : place.val = 0 := by
    by_contra hne
    exact absurd ((magnitude_bounds hne).1.trans hzero) (not_le.2 (by positivity))
  have hfirst : place = ⟨0, by decide⟩ := Fin.ext hplace
  rw [hround, hfirst]
  rfl

end Binary64

/-! ## Decimals -/

namespace Decimal

/-- **A decimal is read as the double nearest to it.**  Where the place of its first digit decides
already, the nearest double is the same. -/
theorem toBinary64_eq_roundMagnitude (d : Decimal) :
    d.toBinary64 = .roundMagnitude d.negative d.magnitude := by
  rw [toBinary64]
  split
  · next hzero =>
    rw [magnitude_eq_zero_iff.2 hzero, Binary64.roundMagnitude, if_pos rfl]
  · next hdigits =>
    split
    · next hlarge =>
      refine (Binary64.roundMagnitude_of_large ?_ _).symm
      calc (2 : ℚ) ^ (1024 : ℤ) ≤ (10 : ℚ) ^ (311 : ℤ) := Binary64.two_zpow_le_ten_zpow.1
        _ ≤ (10 : ℚ) ^ (d.exponent + digitCount d.digits - 1) :=
          zpow_le_zpow_right₀ (by norm_num) (by omega)
        _ ≤ d.magnitude := pow_le_magnitude hdigits
    · split
      · next hsmall =>
        refine (Binary64.roundMagnitude_of_small (magnitude_nonneg d) ?_ _).symm
        calc d.magnitude ≤ (10 : ℚ) ^ (d.exponent + digitCount d.digits) := (magnitude_lt_pow d).le
          _ ≤ (10 : ℚ) ^ (-331 : ℤ) := zpow_le_zpow_right₀ (by norm_num) (by omega)
          _ ≤ (2 : ℚ) ^ (-1075 : ℤ) := Binary64.two_zpow_le_ten_zpow.2
      · rfl

/-- What a decimal is read as depends on its sign and its magnitude only. -/
theorem toBinary64_congr {a b : Decimal} (hnegative : a.negative = b.negative)
    (h : a.magnitude = b.magnitude) : a.toBinary64 = b.toBinary64 := by
  rw [toBinary64_eq_roundMagnitude, toBinary64_eq_roundMagnitude, hnegative, h]

/-- A decimal that is exactly the magnitude at a place is read as that place. -/
theorem toBinary64_of_magnitude {d : Decimal} {place : Binary64.Place}
    (h : d.magnitude = Binary64.magnitude place) : d.toBinary64 = .finite d.negative place := by
  rw [toBinary64_eq_roundMagnitude, h, Binary64.roundMagnitude_magnitude]

/-- A decimal that is read as a place is so with either sign. -/
theorem toBinary64_eq_finite {d : Decimal} {s : Bool} {place : Binary64.Place}
    (h : d.toBinary64 = .finite s place) (negative : Bool) :
    Decimal.toBinary64 { d with negative := negative } = .finite negative place := by
  rw [toBinary64_eq_roundMagnitude] at h ⊢
  exact Binary64.roundMagnitude_eq_finite h negative

end Decimal

namespace Binary64

/-- The magnitude at a place is a whole number of units of `10 ^ -1074`. -/
theorem magnitude_exact (place : Place) :
    ((magnitude place * (10 : ℚ) ^ (1074 : ℤ)).floor.toNat : ℚ) * (10 : ℚ) ^ (-1074 : ℤ) =
      magnitude place := by
  have hlow : 0 ≤ exponent place + 1074 := by
    have := le_exponent place
    omega
  -- of the factors of the unit, the twos make the power of two of the magnitude whole
  have hten : (10 : ℚ) ^ (1074 : ℤ) = (2 : ℚ) ^ (1074 : ℤ) * (5 : ℚ) ^ (1074 : ℤ) := by
    have hfactors : (10 : ℚ) = 2 * 5 := by norm_num
    rw [hfactors, mul_zpow]
  have hwhole : magnitude place * (10 : ℚ) ^ (1074 : ℤ) =
      (significand place * 2 ^ (exponent place + 1074).toNat * 5 ^ 1074 : ℕ) := by
    have hpow : (2 : ℚ) ^ exponent place * (2 : ℚ) ^ (1074 : ℤ) =
        (2 : ℚ) ^ (exponent place + 1074).toNat := by
      rw [← zpow_add₀ two_ne_zero, ← zpow_natCast, Int.toNat_of_nonneg hlow]
    rw [magnitude, hten, mul_assoc, ← mul_assoc ((2 : ℚ) ^ _), hpow, ← mul_assoc,
      Nat.cast_mul, Nat.cast_mul, Nat.cast_pow, Nat.cast_pow]
    rfl
  have hfloor : ∀ n : ℕ, ((n : ℚ).floor.toNat : ℚ) = n := fun n => by
    have hcast : (n : ℚ) = ((n : ℤ) : ℚ) := (Int.cast_natCast n).symm
    rw [hcast, Rat.floor_intCast, Int.toNat_natCast, Int.cast_natCast]
  rw [hwhole, hfloor, ← hwhole, mul_assoc, ← zpow_add₀ (by norm_num)]
  norm_num

/-- Of two decimals that are tried, the one that is found is read back as the place. -/
theorem toBinary64_of_tried {place : Place} {first second d : Decimal}
    (h : (if decide (first.toBinary64 = .finite false place) then some first
      else if decide (second.toBinary64 = .finite false place) then some second else none) =
        some d) :
    d.toBinary64 = .finite false place := by
  split at h
  · next hfirst =>
    rw [← Option.some.inj h]
    exact of_decide_eq_true hfirst
  · split at h
    · next hsecond =>
      rw [← Option.some.inj h]
      exact of_decide_eq_true hsecond
    · exact nomatch h

/-- **The shortest digits** of a place are read back as that place, with any sign. -/
theorem toBinary64_shortest (negative : Bool) (place : Place) :
    Decimal.toBinary64 { shortest place with negative := negative } = .finite negative place := by
  suffices h : (shortest place).toBinary64 = .finite false place from
    Decimal.toBinary64_eq_finite h negative
  rw [shortest]
  split
  · next hzero =>
    have hfirst : place = ⟨0, by decide⟩ := Fin.ext hzero
    rw [hfirst]
    rfl
  · cases hfound : (List.range' 1 17).findSome? (shortestAt place) with
    | some d =>
      obtain ⟨n, -, hn⟩ := List.exists_of_findSome?_eq_some hfound
      exact toBinary64_of_tried hn
    -- no number of digits up to 17 was found, so all digits are written
    | none => exact Decimal.toBinary64_of_magnitude (magnitude_exact place)

end Binary64

end SchemaDiagram
