/-
# How near rounding stays

The double nearest to a rational misses it by at most half a unit of the last place, and of two
rationals the greater one is not rounded to less.  A whole number of units that is short enough to
be held is not changed at all.

* `nearestInt_mono`, `abs_sub_nearestInt_le` : the integer nearest to a rational;
* `Binary64.nearestValue` : the value that a rational is rounded to, as if no magnitude were too
  great;
* `Binary64.signed_of_roundMagnitude` : a rounded magnitude has this value;
* `Binary64.nearestValue_mono`, `Binary64.abs_nearestValue_sub_le` : the order is kept, and the
  error small;
* `Binary64.nearestValue_scaled` : what is rounded to itself;
* `Binary64.finite_of_le` : what is no greater than a magnitude that is held can be held.
-/
import SchemaDiagram.Proofs.Number.Bounds

namespace SchemaDiagram

/-! ## Integers -/

theorem nearestInt_mono {r s : ℚ} (h : r ≤ s) : nearestInt r ≤ nearestInt s := by
  have hfloor : r.floor ≤ s.floor := by
    rw [Rat.le_floor_iff]
    exact (Rat.floor_le r).trans h
  rcases eq_or_lt_of_le hfloor with heq | hlt
  · -- on the same floor, only the part above it counts
    rw [nearestInt, nearestInt, heq]
    split_ifs <;> first | omega | linarith
  · have hbelow : nearestInt r ≤ r.floor + 1 := nearestInt_le (Rat.lt_floor_add_one r).le
    have habove : s.floor ≤ nearestInt s := le_nearestInt (Rat.floor_le s)
    omega

/-- The nearest integer is at most one half away. -/
theorem abs_sub_nearestInt_le (r : ℚ) : |r - nearestInt r| ≤ 1 / 2 := by
  have hlow : (r.floor : ℚ) ≤ r := Rat.floor_le r
  have hhigh : r < (r.floor + 1 : ℤ) := Rat.lt_floor_add_one r
  push_cast at hhigh
  rw [nearestInt, abs_le]
  split_ifs <;> push_cast <;> constructor <;> linarith

/-- An integer less than one half away is the nearest one. -/
theorem nearestInt_eq_of_abs_lt {r : ℚ} {n : ℤ} (h : |r - n| < 1 / 2) : nearestInt r = n := by
  have hnear := abs_sub_nearestInt_le r
  rw [abs_lt] at h
  rw [abs_le] at hnear
  have hlow : ((n - 1 : ℤ) : ℚ) < (nearestInt r : ℤ) := by
    push_cast
    linarith
  have hhigh : ((nearestInt r : ℤ) : ℚ) < (n + 1 : ℤ) := by
    push_cast
    linarith
  have hlow' := Int.cast_lt.1 hlow
  have hhigh' := Int.cast_lt.1 hhigh
  omega

namespace Binary64

/-! ## Units -/

/-- The exponent of the unit in which a positive rational is rounded. -/
def unitOf (r : ℚ) : ℤ := max (binaryOrder r - 52) (-1074)

/-- How many units a positive rational is rounded to. -/
def unitsOf (r : ℚ) : ℤ := nearestInt (r / (2 : ℚ) ^ unitOf r)

theorem placeOf_eq (r : ℚ) : placeOf r = (unitOf r + 1074) * binade + unitsOf r := rfl

theorem le_unitOf (r : ℚ) : -1074 ≤ unitOf r := le_max_right _ _

theorem unitOf_mono {r s : ℚ} (hr : 0 < r) (h : r ≤ s) : unitOf r ≤ unitOf s := by
  have hlow := (binaryOrder_spec hr).1
  have hhigh := (binaryOrder_spec (hr.trans_le h)).2
  have horder : binaryOrder r < binaryOrder s + 1 :=
    (zpow_lt_zpow_iff_right₀ one_lt_two).1 ((hlow.trans h).trans_lt hhigh)
  simp only [unitOf]
  omega

/-- There are at most so many units as a significand counts, or one more. -/
theorem unitsOf_le {r : ℚ} (hr : 0 < r) : unitsOf r ≤ 2 ^ 53 := by
  refine nearestInt_le ?_
  rw [div_le_iff₀ (by positivity)]
  calc r ≤ (2 : ℚ) ^ (binaryOrder r + 1) := (binaryOrder_spec hr).2.le
    _ ≤ (2 : ℚ) ^ (53 + unitOf r) := by
      refine zpow_le_zpow_right₀ one_le_two ?_
      simp only [unitOf]
      omega
    _ = ((2 ^ 53 : ℤ) : ℚ) * (2 : ℚ) ^ unitOf r := by
      rw [zpow_add₀ two_ne_zero]
      norm_num

theorem unitsOf_nonneg {r : ℚ} (hr : 0 ≤ r) : 0 ≤ unitsOf r := by
  refine le_nearestInt ?_
  rw [Int.cast_zero]
  positivity

/-- In one unit, a greater magnitude is rounded to at least as many units. -/
theorem unitsOf_mono {r s : ℚ} (hunit : unitOf r = unitOf s) (h : r ≤ s) :
    unitsOf r ≤ unitsOf s := by
  rw [unitsOf, unitsOf, hunit]
  exact nearestInt_mono (div_le_div_of_nonneg_right h (by positivity))

/-- Units other than the least one are counted from the least significand on. -/
theorem le_unitsOf {r : ℚ} (hr : 0 < r) (h : unitOf r ≠ -1074) : 2 ^ 52 ≤ unitsOf r := by
  have hunit : unitOf r = binaryOrder r - 52 := by
    simp only [unitOf] at h ⊢
    omega
  refine le_nearestInt ?_
  rw [le_div_iff₀ (by positivity), hunit]
  calc ((2 ^ 52 : ℤ) : ℚ) * (2 : ℚ) ^ (binaryOrder r - 52)
      = (2 : ℚ) ^ (52 : ℤ) * (2 : ℚ) ^ (binaryOrder r - 52) := by norm_num
    _ = (2 : ℚ) ^ binaryOrder r := by rw [← zpow_add₀ two_ne_zero, add_sub_cancel]
    _ ≤ r := (binaryOrder_spec hr).1

/-- The magnitude at a place that is given by a unit and a number of units. -/
theorem magnitude_units {k u : ℕ} (hu : u ≤ 2 ^ 53) (h : k = 0 ∨ 2 ^ 52 ≤ u) :
    magnitude (k * binade + u) = u * (2 : ℚ) ^ ((k : ℤ) - 1074) := by
  have hbinade := binade_eq_pow
  have hpos : 0 < binade := by decide
  rw [magnitude, significand, exponent]
  rcases lt_or_ge u binade with hsmall | hlarge
  · -- only the least unit is counted from zero
    have hk : k = 0 := h.resolve_right (by omega)
    subst hk
    rw [zero_mul, zero_add, if_pos hsmall, if_pos hsmall]
    norm_num
  · have hnot : ¬k * binade + u < binade := by
      omega
    rw [if_neg hnot, if_neg hnot]
    rcases eq_or_lt_of_le hu with hlast | hless
    · -- a full count of units is the first of the next unit
      have htwo : k * binade + u = (k + 2) * binade := by
        rw [hlast, hbinade]
        ring
      have hdiv : (k * binade + u) / binade = k + 2 := by
        rw [htwo, Nat.mul_div_cancel _ hpos]
      have hmod : (k * binade + u) % binade = 0 := by
        rw [htwo, Nat.mul_mod_left]
      have hexponent : ((k + 2 : ℕ) : ℤ) - 1075 = (k : ℤ) - 1074 + 1 := by
        omega
      rw [hdiv, hmod, hexponent, hlast, zpow_add_one₀ two_ne_zero]
      norm_num
      ring
    · have hone : k * binade + u = u - binade + binade * (k + 1) := by
        rw [Nat.mul_add, Nat.mul_comm k]
        omega
      have hdiv : (k * binade + u) / binade = k + 1 := by
        rw [hone, Nat.add_mul_div_left _ _ hpos, Nat.div_eq_of_lt (by omega), Nat.zero_add]
      have hmod : binade + (k * binade + u) % binade = u := by
        rw [hone, Nat.add_mul_mod_self_left, Nat.mod_eq_of_lt (by omega)]
        omega
      have hexponent : ((k + 1 : ℕ) : ℤ) - 1075 = (k : ℤ) - 1074 := by
        omega
      rw [hdiv, hmod, hexponent]

/-! ## Rounded values -/

/-- The magnitude that a magnitude is rounded to, as if none were too great. -/
def nearestMagnitude (r : ℚ) : ℚ := unitsOf r * (2 : ℚ) ^ unitOf r

/-- The value that a rational is rounded to, as if no magnitude were too great. -/
def nearestValue (x : ℚ) : ℚ := if x < 0 then -nearestMagnitude (-x) else nearestMagnitude x

theorem nearestMagnitude_zero : nearestMagnitude 0 = 0 := by
  have hzero : nearestInt 0 = 0 := nearestInt_intCast 0
  rw [nearestMagnitude, unitsOf, zero_div, hzero, Int.cast_zero, zero_mul]

theorem nearestMagnitude_nonneg {r : ℚ} (hr : 0 ≤ r) : 0 ≤ nearestMagnitude r := by
  have hunits : (0 : ℚ) ≤ unitsOf r := by
    exact_mod_cast unitsOf_nonneg hr
  rw [nearestMagnitude]
  positivity

theorem magnitude_placeOf {r : ℚ} (hr : 0 < r) :
    magnitude (placeOf r).toNat = nearestMagnitude r := by
  have hunit := le_unitOf r
  have hunits := unitsOf_nonneg hr.le
  obtain ⟨k, hk⟩ := Int.eq_ofNat_of_zero_le (a := unitOf r + 1074) (by omega)
  obtain ⟨u, hu⟩ := Int.eq_ofNat_of_zero_le hunits
  have hle : u ≤ 2 ^ 53 := by
    have := unitsOf_le hr
    omega
  have hcount : k = 0 ∨ 2 ^ 52 ≤ u := by
    by_cases hleast : unitOf r = -1074
    · left
      omega
    · right
      have := le_unitsOf hr hleast
      omega
  have hplace : (placeOf r).toNat = k * binade + u := by
    rw [placeOf_eq, hk, hu]
    exact_mod_cast Int.toNat_natCast (k * binade + u)
  have hexponent : (k : ℤ) - 1074 = unitOf r := by
    omega
  rw [hplace, magnitude_units hle hcount, hexponent, nearestMagnitude, hu, Int.cast_natCast]

/-- **A rounded magnitude** has the rounded value. -/
theorem magnitude_of_roundMagnitude {r : ℚ} (hr : 0 ≤ r) {s t : Bool} {place : Place}
    (h : roundMagnitude s r = .finite t place) : t = s ∧ magnitude place = nearestMagnitude r := by
  rw [roundMagnitude] at h
  split at h
  · next hzero =>
    cases h
    exact ⟨rfl, by rw [hzero, nearestMagnitude_zero]; exact magnitude_zero⟩
  · next hne =>
    dsimp only at h
    split at h
    · cases h
      exact ⟨rfl, magnitude_placeOf (lt_of_le_of_ne hr (Ne.symm hne))⟩
    · cases h

theorem nearestValue_zero : nearestValue 0 = 0 := by
  rw [nearestValue, if_neg (lt_irrefl 0), nearestMagnitude_zero]

/-- The signed value of a rounded magnitude; zero has either sign. -/
theorem signed_of_roundMagnitude {x : ℚ} {s t : Bool} {place : Place}
    (hs : x ≠ 0 → (s = true ↔ x < 0)) (h : roundMagnitude s |x| = .finite t place) :
    signed t place = nearestValue x := by
  obtain ⟨rfl, hplace⟩ := magnitude_of_roundMagnitude (abs_nonneg x) h
  by_cases hzero : x = 0
  · rw [hzero, abs_zero, nearestMagnitude_zero] at hplace
    rw [hzero, nearestValue_zero, signed, hplace, neg_zero, ite_self]
  · rw [signed, hplace, nearestValue]
    by_cases hx : x < 0
    · rw [if_pos ((hs hzero).2 hx), if_pos hx, abs_of_neg hx]
    · rw [if_neg (fun ht => hx ((hs hzero).1 ht)), if_neg hx, abs_of_nonneg (not_lt.1 hx)]

/-- A magnitude is rounded to a place, or it is too great. -/
theorem roundMagnitude_cases (negative : Bool) (r : ℚ) :
    (∃ place, roundMagnitude negative r = .finite negative place) ∨
      roundMagnitude negative r = .infinite negative := by
  rw [roundMagnitude]
  split
  · exact Or.inl ⟨_, rfl⟩
  · dsimp only
    split
    · exact Or.inl ⟨_, rfl⟩
    · exact Or.inr rfl

/-! ## Order -/

/-- A greater magnitude is at the same place or a later one. -/
theorem placeOf_mono {r s : ℚ} (hr : 0 < r) (h : r ≤ s) : placeOf r ≤ placeOf s := by
  rw [placeOf_eq, placeOf_eq]
  rcases eq_or_lt_of_le (unitOf_mono hr h) with heq | hlt
  · have hunits := unitsOf_mono heq h
    rw [heq]
    omega
  · have hle := unitsOf_le hr
    have hunit := le_unitOf r
    have hge := le_unitsOf (hr.trans_le h) (by omega)
    have hbinade : (binade : ℤ) = 2 ^ 52 := by
      exact_mod_cast binade_eq_pow
    rw [hbinade]
    omega

theorem nearestMagnitude_mono {r s : ℚ} (hr : 0 ≤ r) (h : r ≤ s) :
    nearestMagnitude r ≤ nearestMagnitude s := by
  rcases eq_or_lt_of_le hr with rfl | hpos
  · rw [nearestMagnitude_zero]
    exact nearestMagnitude_nonneg h
  rw [nearestMagnitude, nearestMagnitude]
  rcases eq_or_lt_of_le (unitOf_mono hpos h) with heq | hlt
  · have hunits := unitsOf_mono heq h
    rw [heq]
    exact mul_le_mul_of_nonneg_right (by exact_mod_cast hunits) (by positivity)
  · -- a greater unit begins where the smaller one ends
    have hle : (unitsOf r : ℚ) ≤ 2 ^ 53 := by
      exact_mod_cast unitsOf_le hpos
    have hunit := le_unitOf r
    have hge : (2 : ℚ) ^ 52 ≤ unitsOf s := by
      exact_mod_cast le_unitsOf (hpos.trans_le h) (by omega)
    calc (unitsOf r : ℚ) * (2 : ℚ) ^ unitOf r ≤ 2 ^ 53 * (2 : ℚ) ^ unitOf r :=
          mul_le_mul_of_nonneg_right hle (by positivity)
      _ = 2 ^ 52 * (2 : ℚ) ^ (unitOf r + 1) := by
          rw [zpow_add_one₀ two_ne_zero]
          ring
      _ ≤ 2 ^ 52 * (2 : ℚ) ^ unitOf s :=
          mul_le_mul_of_nonneg_left (zpow_le_zpow_right₀ one_le_two (by omega)) (by positivity)
      _ ≤ unitsOf s * (2 : ℚ) ^ unitOf s := mul_le_mul_of_nonneg_right hge (by positivity)

/-- **Rounding keeps the order.** -/
theorem nearestValue_mono {x y : ℚ} (h : x ≤ y) : nearestValue x ≤ nearestValue y := by
  rw [nearestValue, nearestValue]
  split_ifs with hx hy hy
  · exact neg_le_neg (nearestMagnitude_mono (by linarith) (by linarith))
  · have hx' : 0 ≤ nearestMagnitude (-x) := nearestMagnitude_nonneg (by linarith)
    have hy' : 0 ≤ nearestMagnitude y := nearestMagnitude_nonneg (not_lt.1 hy)
    linarith
  · linarith
  · exact nearestMagnitude_mono (not_lt.1 hx) h

/-- What is no greater than a magnitude that can be held can be held. -/
theorem finite_of_le {r s : ℚ} (hr : 0 ≤ r) (h : r ≤ s) {a b : Bool} {place : Place}
    (hs : roundMagnitude a s = .finite b place) (negative : Bool) :
    ∃ place' : Place, roundMagnitude negative r = .finite negative place' := by
  rcases eq_or_lt_of_le hr with rfl | hpos
  · exact ⟨_, if_pos rfl⟩
  · have hfinite : (placeOf s).toNat < finiteCount := by
      rw [roundMagnitude, if_neg (hpos.trans_le h).ne'] at hs
      dsimp only at hs
      split at hs
      · assumption
      · cases hs
    have hplace := Int.toNat_le_toNat (placeOf_mono hpos h)
    exact ⟨_, roundMagnitude_of_place hpos.ne' (hplace.trans_lt hfinite)⟩

/-! ## Error -/

/-- A magnitude is missed by at most half a unit. -/
theorem abs_nearestMagnitude_sub_le (r : ℚ) :
    |nearestMagnitude r - r| ≤ (2 : ℚ) ^ unitOf r / 2 := by
  have hpow : (0 : ℚ) < (2 : ℚ) ^ unitOf r := by positivity
  have hnear := abs_sub_nearestInt_le (r / (2 : ℚ) ^ unitOf r)
  have hsplit : nearestMagnitude r - r =
      -((r / (2 : ℚ) ^ unitOf r - unitsOf r) * (2 : ℚ) ^ unitOf r) := by
    rw [nearestMagnitude, sub_mul, div_mul_cancel₀ _ hpow.ne']
    ring
  rw [hsplit, abs_neg, abs_mul, abs_of_pos hpow]
  calc |r / (2 : ℚ) ^ unitOf r - unitsOf r| * (2 : ℚ) ^ unitOf r
      ≤ 1 / 2 * (2 : ℚ) ^ unitOf r := mul_le_mul_of_nonneg_right hnear hpow.le
    _ = (2 : ℚ) ^ unitOf r / 2 := by ring

/-- **The error of rounding** is at most `2 ^ -53` of the value, or half the least magnitude. -/
theorem abs_nearestValue_sub_le (x : ℚ) :
    |nearestValue x - x| ≤ max (|x| * (2 : ℚ) ^ (-53 : ℤ)) ((2 : ℚ) ^ (-1075 : ℤ)) := by
  have hmagnitude : ∀ r : ℚ, 0 ≤ r → |nearestMagnitude r - r| ≤
      max (r * (2 : ℚ) ^ (-53 : ℤ)) ((2 : ℚ) ^ (-1075 : ℤ)) := by
    intro r hr
    rcases eq_or_lt_of_le hr with rfl | hpos
    · rw [nearestMagnitude_zero, sub_zero, abs_zero]
      positivity
    · refine (abs_nearestMagnitude_sub_le r).trans (le_max_iff.2 ?_)
      have hhalf : ∀ e : ℤ, (2 : ℚ) ^ e / 2 = (2 : ℚ) ^ (e - 1) := fun e => by
        rw [zpow_sub_one₀ two_ne_zero, div_eq_mul_inv]
      rw [hhalf]
      by_cases hleast : unitOf r = -1074
      · right
        rw [hleast]
        norm_num
      · left
        have hunit : unitOf r - 1 = binaryOrder r + (-53) := by
          simp only [unitOf] at hleast ⊢
          omega
        rw [hunit, zpow_add₀ two_ne_zero]
        exact mul_le_mul_of_nonneg_right (binaryOrder_spec hpos).1 (by positivity)
  rw [nearestValue]
  split_ifs with hx
  · have hflip : -nearestMagnitude (-x) - x = -(nearestMagnitude (-x) - -x) := by ring
    rw [abs_of_neg hx, hflip, abs_neg]
    exact hmagnitude (-x) (by linarith)
  · rw [abs_of_nonneg (not_lt.1 hx)]
    exact hmagnitude x (not_lt.1 hx)

/-! ## What is rounded to itself -/

theorem nearestMagnitude_scaled {n : ℕ} {e : ℤ} (hn : n < 2 ^ 53) (he : -1074 ≤ e) :
    nearestMagnitude (n * (2 : ℚ) ^ e) = n * (2 : ℚ) ^ e := by
  rcases Nat.eq_zero_or_pos n with rfl | hpos
  · rw [Nat.cast_zero, zero_mul, nearestMagnitude_zero]
  set r : ℚ := n * (2 : ℚ) ^ e with hr
  have hrpos : 0 < r := by positivity
  -- the unit is no greater than the power of two that scales the number
  have hunit : unitOf r ≤ e := by
    have hbelow : r < (2 : ℚ) ^ (53 + e) := by
      rw [zpow_add₀ two_ne_zero]
      refine mul_lt_mul_of_pos_right ?_ (by positivity)
      exact_mod_cast hn
    have horder := (zpow_lt_zpow_iff_right₀ one_lt_two).1
      ((binaryOrder_spec hrpos).1.trans_lt hbelow)
    simp only [unitOf]
    omega
  obtain ⟨k, hk⟩ := Int.eq_ofNat_of_zero_le (a := e - unitOf r) (by omega)
  have hunits : r / (2 : ℚ) ^ unitOf r = ((n * 2 ^ k : ℤ) : ℚ) := by
    have he' : e = k + unitOf r := by
      omega
    rw [div_eq_iff (by positivity)]
    conv_lhs => rw [hr, he']
    rw [zpow_add₀ two_ne_zero, zpow_natCast]
    push_cast
    ring
  rw [nearestMagnitude, unitsOf, hunits, nearestInt_intCast, ← hunits,
    div_mul_cancel₀ _ (by positivity)]

/-- **A short number of units** is rounded to itself. -/
theorem nearestValue_scaled {n e : ℤ} (hn : |n| < 2 ^ 53) (he : -1074 ≤ e) :
    nearestValue (n * (2 : ℚ) ^ e) = n * (2 : ℚ) ^ e := by
  have habs : n.natAbs < 2 ^ 53 := by
    rw [← Int.natCast_natAbs] at hn
    exact_mod_cast hn
  have hpow : (0 : ℚ) < (2 : ℚ) ^ e := by positivity
  have hexact := nearestMagnitude_scaled habs he
  have hcast : ((n.natAbs : ℕ) : ℚ) = |(n : ℚ)| := by
    rw [← Int.cast_natCast, Int.natCast_natAbs, Int.cast_abs]
  rw [hcast] at hexact
  rw [nearestValue]
  split_ifs with hneg
  · have hn : (n : ℚ) < 0 := (neg_iff_pos_of_mul_neg hneg).2 hpow
    rw [abs_of_neg hn, neg_mul] at hexact
    rw [hexact, neg_neg]
  · have hn : (0 : ℚ) ≤ n := nonneg_of_mul_nonneg_left (not_lt.1 hneg) hpow
    rw [abs_of_nonneg hn] at hexact
    exact hexact

end Binary64

end SchemaDiagram
