/-
# Quotients that are rounded twice

The quotient of a coordinate by the grid size is rounded to a double before it is rounded to an
integer.  The second rounding gives an integer that a double holds, so a multiple of the grid size
by such an integer is divided without an error.

* `IsRounding` : rounding down, up or to the nearest integer;
* `Binary64.Holds`, `Binary64.Holds.of_dvd` : an integer that a double holds, as every rounded double
  is, and what divides one;
* `Quantity.HasQuotient`, `Quantity.quotientWith_whole_iff` : when a quotient of whole numbers can
  be rounded, and to what;
* `Quantity.quotientWith_multiple`, `Quantity.round_quotient_le` : quotients of multiples, and of
  what does not pass one.
-/
import Mathlib.Data.Nat.Prime.Basic
import SchemaDiagram.Number.Arithmetic
import SchemaDiagram.Proofs.Number.Accuracy
import SchemaDiagram.Proofs.Number.Nearest

namespace SchemaDiagram

/-! ## Roundings -/

/-- A way of rounding rationals to integers that keeps the order and all integers. -/
structure IsRounding (round : ℚ → ℤ) : Prop where
  intCast : ∀ n : ℤ, round n = n
  mono : ∀ r s : ℚ, r ≤ s → round r ≤ round s

theorem isRounding_nearestInt : IsRounding nearestInt where
  intCast := nearestInt_intCast
  mono := fun _ _ => nearestInt_mono

theorem isRounding_floor : IsRounding Rat.floor where
  intCast := Rat.floor_intCast
  mono := fun r _ h => Rat.le_floor_iff.2 ((Rat.floor_le r).trans h)

theorem isRounding_ceil : IsRounding Rat.ceil where
  intCast := Rat.ceil_intCast
  mono := fun _ _ h => Rat.ceil_le_iff.2 (h.trans Rat.le_ceil)

theorem IsRounding.le {round : ℚ → ℤ} (h : IsRounding round) {r : ℚ} {n : ℤ} (hr : r ≤ n) :
    round r ≤ n := h.intCast n ▸ h.mono _ _ hr

theorem IsRounding.ge {round : ℚ → ℤ} (h : IsRounding round) {r : ℚ} {n : ℤ} (hr : (n : ℚ) ≤ r) :
    n ≤ round r := h.intCast n ▸ h.mono _ _ hr

namespace Binary64

/-! ## Integers that doubles hold -/

/-- An integer that is the value of a double. -/
def Holds (n : ℤ) : Prop := ∃ place : Place, magnitude place = |(n : ℚ)|

/-- The place of an integer that a double holds, with its sign. -/
theorem signed_of_magnitude {n : ℤ} {place : Place} (h : magnitude place = |(n : ℚ)|) :
    signed (n < 0) place = n := by
  rw [signed, h]
  by_cases hneg : n < 0
  · have hn : (n : ℚ) < 0 := by exact_mod_cast hneg
    rw [if_pos (decide_eq_true hneg), abs_of_neg hn, neg_neg]
  · have hn : (0 : ℚ) ≤ n := by exact_mod_cast not_lt.1 hneg
    rw [if_neg (by simpa using hneg), abs_of_nonneg hn]

/-- An integer that a double holds is rounded to itself. -/
theorem Holds.nearestValue {n : ℤ} (h : Holds n) : nearestValue n = n := by
  obtain ⟨place, hplace⟩ := h
  have hround := roundMagnitude_magnitude (n < 0) place
  have hsign : (n : ℚ) ≠ 0 → (decide (n < 0) = true ↔ (n : ℚ) < 0) := by
    intro _
    rw [decide_eq_true_iff]
    exact_mod_cast Iff.rfl
  rw [hplace] at hround
  rw [← signed_of_roundMagnitude hsign hround, signed_of_magnitude hplace]

/-- A short integer is held by a double. -/
theorem holds_of_lt {n : ℤ} (h : |n| < 2 ^ 53) : Holds n := by
  have habs : n.natAbs < 2 ^ 53 := by
    rw [← Int.natCast_natAbs] at h
    exact_mod_cast h
  have hcast : ((n.natAbs : ℕ) : ℚ) = |(n : ℚ)| := by
    rw [← Int.cast_natCast, Int.natCast_natAbs, Int.cast_abs]
  have hle : |(n : ℚ)| ≤ 2 ^ 53 := by
    exact_mod_cast h.le
  obtain ⟨place, hround, -⟩ := exists_roundMagnitude (by omega) (abs_nonneg _) hle false
  refine ⟨place, ?_⟩
  have hexact := nearestMagnitude_scaled (e := 0) habs (by omega)
  rw [zpow_zero, mul_one, hcast] at hexact
  rw [(magnitude_of_roundMagnitude (abs_nonneg _) hround).2, hexact]

theorem holds_of_natCast_lt {n : ℕ} (h : n < 2 ^ 53) : Holds n := by
  refine holds_of_lt ?_
  rw [Nat.abs_cast]
  exact_mod_cast h

theorem significand_lt (place : ℕ) : significand place < 2 ^ 53 := by
  have hmod : place % binade < binade := Nat.mod_lt _ (by decide)
  have hbinade := binade_eq_pow
  rw [significand]
  split
  · omega
  · omega

/-- An integer that a double holds is a short number times a power of two. -/
theorem Holds.exists_scaled {n : ℤ} (h : Holds n) :
    ∃ m t : ℕ, m < 2 ^ 53 ∧ n.natAbs = m * 2 ^ t := by
  obtain ⟨place, hplace⟩ := h
  rw [← Int.cast_abs, ← Int.natCast_natAbs, Int.cast_natCast, magnitude] at hplace
  rcases le_or_gt 0 (exponent place) with hexponent | hexponent
  · obtain ⟨t, ht⟩ := Int.eq_ofNat_of_zero_le hexponent
    rw [ht, zpow_natCast] at hplace
    exact ⟨significand place, t, significand_lt place, by exact_mod_cast hplace.symm⟩
  · -- the double is short itself
    refine ⟨n.natAbs, 0, ?_, (mul_one _).symm⟩
    have hshort : (n.natAbs : ℚ) < 2 ^ 53 := by
      rw [← hplace]
      calc (significand place : ℚ) * (2 : ℚ) ^ exponent place ≤ significand place * 1 := by
            refine mul_le_mul_of_nonneg_left ?_ (Nat.cast_nonneg _)
            exact zpow_le_one_of_nonpos₀ one_le_two hexponent.le
        _ < 2 ^ 53 := by
            rw [mul_one]
            exact_mod_cast significand_lt place
    exact_mod_cast hshort

/-- A short number times a power of two is held if it is no greater than what is held. -/
theorem Holds.of_scaled {n d : ℤ} (h : Holds n) (hle : |d| ≤ |n|) {m t : ℕ} (hm : m < 2 ^ 53)
    (hd : d.natAbs = m * 2 ^ t) : Holds d := by
  obtain ⟨place, hplace⟩ := h
  have hvalue : |(d : ℚ)| = m * (2 : ℚ) ^ (t : ℤ) := by
    rw [← Int.cast_abs, ← Int.natCast_natAbs, Int.cast_natCast, hd, zpow_natCast]
    push_cast
    rfl
  have hbound : |(d : ℚ)| ≤ magnitude place := by
    rw [hplace]
    exact_mod_cast hle
  obtain ⟨place', hround⟩ := finite_of_le (abs_nonneg _) hbound
    (roundMagnitude_magnitude false place) false
  refine ⟨place', ?_⟩
  rw [(magnitude_of_roundMagnitude (abs_nonneg _) hround).2, hvalue]
  exact nearestMagnitude_scaled hm (by omega)

/-- What divides an integer that a double holds is held as well. -/
theorem Holds.of_dvd {n d : ℤ} (h : Holds n) (hn : n ≠ 0) (hd : d ∣ n) : Holds d := by
  obtain ⟨m, t, hm, hsplit⟩ := h.exists_scaled
  have hdvd : d.natAbs ∣ m * 2 ^ t := hsplit ▸ Int.natAbs_dvd_natAbs.2 hd
  obtain ⟨m', power, hm', hpower, hd'⟩ := Nat.dvd_mul.1 hdvd
  obtain ⟨t', -, rfl⟩ := (Nat.dvd_prime_pow Nat.prime_two).1 hpower
  have hpos : 0 < m := by
    refine Nat.pos_of_ne_zero fun hzero => hn ?_
    rwa [hzero, Nat.zero_mul, Int.natAbs_eq_zero] at hsplit
  exact h.of_scaled (Int.le_of_dvd (abs_pos.2 hn) ((abs_dvd_abs d n).2 hd))
    ((Nat.le_of_dvd hpos hm').trans_lt hm) hd'.symm

/-- **A rounded double** is an integer that a double holds. -/
theorem holds_of_toIntWith {round : ℚ → ℤ} (hround : IsRounding round) {x : Binary64} {n : ℤ}
    (h : x.toIntWith round = .ok n) : Holds n := by
  cases x with
  | nan => exact nomatch h
  | infinite s => exact nomatch h
  | finite s place =>
    have hn : round (signed s place) = n := Except.ok.inj h
    rcases le_or_gt 0 (exponent place) with hexponent | hexponent
    · -- the double is an integer itself
      obtain ⟨k, hk⟩ := Int.eq_ofNat_of_zero_le hexponent
      have hmagnitude : magnitude place = ((significand place * 2 ^ k : ℕ) : ℤ) := by
        rw [magnitude, hk, zpow_natCast]
        push_cast
        rfl
      have habs : |(n : ℚ)| = |signed s place| := by
        rw [← hn]
        cases s with
        | false =>
          rw [signed, if_neg Bool.false_ne_true, hmagnitude, hround.intCast]
        | true =>
          rw [signed, if_pos rfl, hmagnitude, ← Int.cast_neg, hround.intCast]
      exact ⟨place, by rw [habs, abs_signed]⟩
    · -- the double is short
      have hsmall : magnitude place ≤ 2 ^ 52 := by
        calc magnitude place ≤ 2 ^ 53 * (2 : ℚ) ^ (-1 : ℤ) := by
              refine mul_le_mul ?_ ?_ (by positivity) (by positivity)
              · exact_mod_cast (significand_lt place).le
              · exact zpow_le_zpow_right₀ one_le_two (by omega)
          _ = 2 ^ 52 := by norm_num
      rw [← abs_signed s, abs_le] at hsmall
      have hlow : -2 ^ 52 ≤ n := hn ▸ hround.ge (by push_cast; exact hsmall.1)
      have hhigh : n ≤ 2 ^ 52 := hn ▸ hround.le (by push_cast; exact hsmall.2)
      exact holds_of_lt (abs_lt.2 ⟨by omega, by omega⟩)

end Binary64

/-! ## Quotients of whole numbers -/

namespace Quantity

open Binary64

variable {a b k n : ℤ} {grid : ℕ} {round : ℚ → ℤ}

/-- The quotient of a whole number does not overflow. -/
def HasQuotient (a : ℤ) (grid : ℕ) : Prop := ∃ y, (whole a).dividedBy grid = .ok y

theorem natAbs_div (a : ℤ) (grid : ℕ) : (a.natAbs : ℚ) / (grid : ℚ) = |(a : ℚ) / grid| := by
  rw [abs_div, Nat.abs_cast, ← Int.cast_abs, ← Int.natCast_natAbs, Int.cast_natCast]

/-- There is a quotient when the magnitude can be held with any sign. -/
theorem hasQuotient_of_round {s t : Bool} {place : Place}
    (h : roundMagnitude s |(a : ℚ) / grid| = .finite t place) : HasQuotient a grid := by
  have hround := roundMagnitude_eq_finite h (a < 0)
  exact ⟨.finite (a < 0) place, by rw [dividedBy, natAbs_div, hround]⟩

/-- A quotient is the double nearest to the exact one. -/
theorem dividedBy_whole (hgrid : 0 < grid) {y : Binary64} (h : (whole a).dividedBy grid = .ok y) :
    ∃ s place, y = .finite s place ∧ roundMagnitude s |(a : ℚ) / grid| = .finite s place ∧
      signed s place = nearestValue (a / grid) := by
  rw [dividedBy, natAbs_div] at h
  rcases roundMagnitude_cases (a < 0) |(a : ℚ) / grid| with ⟨place, hround⟩ | hround
  · rw [hround] at h
    refine ⟨_, place, (Except.ok.inj h).symm, hround, signed_of_roundMagnitude ?_ hround⟩
    intro _
    have hpos : (0 : ℚ) < grid := by exact_mod_cast hgrid
    rw [decide_eq_true_iff, div_lt_iff₀ hpos, zero_mul]
    exact_mod_cast Iff.rfl
  · rw [hround] at h
    exact nomatch h

/-- **The rounded quotient** of a whole number. -/
theorem quotientWith_whole_iff (hgrid : 0 < grid) :
    quotientWith round (.whole a) grid = .ok n ↔
      HasQuotient a grid ∧ round (nearestValue (a / grid)) = n := by
  constructor
  · intro h
    obtain ⟨y, hy, hn⟩ := bind_eq_ok.1 h
    obtain ⟨s, place, rfl, -, hvalue⟩ := dividedBy_whole hgrid hy
    exact ⟨⟨_, hy⟩, hvalue ▸ Except.ok.inj hn⟩
  · rintro ⟨⟨y, hy⟩, hn⟩
    obtain ⟨s, place, rfl, -, hvalue⟩ := dividedBy_whole hgrid hy
    refine bind_eq_ok.2 ⟨_, hy, ?_⟩
    rw [← hn, ← hvalue]
    rfl

/-- A whole number of smaller magnitude has a quotient, too. -/
theorem HasQuotient.of_abs_le (hgrid : 0 < grid) (hb : HasQuotient b grid) (h : |a| ≤ |b|) :
    HasQuotient a grid := by
  obtain ⟨y, hy⟩ := hb
  obtain ⟨s, place, -, hround, -⟩ := dividedBy_whole hgrid hy
  have hle : |(a : ℚ) / grid| ≤ |(b : ℚ) / grid| := by
    rw [abs_div, abs_div]
    refine div_le_div_of_nonneg_right ?_ (abs_nonneg _)
    exact_mod_cast h
  obtain ⟨place', hround'⟩ := finite_of_le (abs_nonneg _) hle hround s
  exact hasQuotient_of_round hround'

/-! ## Multiples -/

/-- Every rounded quotient is an integer that a double holds. -/
theorem holds_of_quotientWith (hround : IsRounding round) {x : Quantity}
    (h : quotientWith round x grid = .ok n) : Holds n := by
  obtain ⟨y, -, hn⟩ := bind_eq_ok.1 h
  exact holds_of_toIntWith hround hn

theorem multiple_div (hgrid : 0 < grid) (k : ℤ) : ((k * grid : ℤ) : ℚ) / grid = k := by
  have hne : (grid : ℚ) ≠ 0 := by exact_mod_cast hgrid.ne'
  push_cast
  rw [mul_div_cancel_right₀ _ hne]

/-- A multiple by an integer that a double holds has a quotient. -/
theorem hasQuotient_multiple (hgrid : 0 < grid) (hk : Holds k) : HasQuotient (k * grid) grid := by
  obtain ⟨place, hplace⟩ := hk
  have hround := roundMagnitude_magnitude false place
  rw [hplace, ← multiple_div hgrid k] at hround
  exact hasQuotient_of_round hround

/-- **A multiple** by an integer that a double holds is divided without an error. -/
theorem quotientWith_multiple (hround : IsRounding round) (hgrid : 0 < grid) (hk : Holds k) :
    quotientWith round (.whole (k * grid)) grid = .ok k := by
  rw [quotientWith_whole_iff hgrid, multiple_div hgrid, hk.nearestValue]
  exact ⟨hasQuotient_multiple hgrid hk, hround.intCast k⟩

/-- The quotient of what does not pass a multiple does not pass its factor. -/
theorem round_quotient_le (hround : IsRounding round) (hgrid : 0 < grid) (hk : Holds k)
    (h : a ≤ k * grid) : round (nearestValue (a / grid)) ≤ k := by
  have hle : (a : ℚ) / grid ≤ k := by
    rw [← multiple_div hgrid k]
    refine div_le_div_of_nonneg_right ?_ (Nat.cast_nonneg grid)
    exact_mod_cast h
  exact hround.le (hk.nearestValue ▸ nearestValue_mono hle)

end Quantity

end SchemaDiagram
