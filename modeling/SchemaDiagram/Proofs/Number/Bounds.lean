/-
# Numbers that do not overflow

A rational of magnitude at most `2 ^ k` is rounded to a finite double of magnitude at most `2 ^ k`,
as long as `k` is at most 1023.  So a computation with known bounds has a result, and the result has
a bound again.

* `Binary64.exists_roundMagnitude`, `Binary64.one_le_of_roundMagnitude` : what is rounded to;
* `Binary64.AtMost` : a bounded double;
* `Binary64.AtMost.add`, `Binary64.AtMost.mul`, `Binary64.AtMost.div` : bounds of results;
* `Binary64.ofInt_atMost` : a whole number of bounded magnitude as a double.
-/
import SchemaDiagram.Number.Quantity
import SchemaDiagram.Proofs.Number.Rounding
import SchemaDiagram.Proofs.Outcome

namespace SchemaDiagram

/-! ## Powers of two -/

section

variable {R : Type} [CommRing R] [LinearOrder R] [IsStrictOrderedRing R] {a b : R} {j k m : ℕ}

theorem abs_le_pow_mono (ha : |a| ≤ 2 ^ j) (hjk : j ≤ k) : |a| ≤ 2 ^ k :=
  ha.trans (pow_le_pow_right₀ one_le_two hjk)

theorem abs_add_le_pow (ha : |a| ≤ 2 ^ j) (hb : |b| ≤ 2 ^ k) (hj : j < m) (hk : k < m) :
    |a + b| ≤ 2 ^ m := by
  obtain ⟨m, rfl⟩ := Nat.exists_eq_succ_of_ne_zero (Nat.ne_of_gt (Nat.zero_lt_of_lt hj))
  calc |a + b| ≤ |a| + |b| := abs_add_le a b
    _ ≤ 2 ^ m + 2 ^ m :=
      add_le_add (abs_le_pow_mono ha (Nat.le_of_lt_succ hj))
        (abs_le_pow_mono hb (Nat.le_of_lt_succ hk))
    _ = 2 ^ (m + 1) := by ring

theorem abs_sub_le_pow (ha : |a| ≤ 2 ^ j) (hb : |b| ≤ 2 ^ k) (hj : j < m) (hk : k < m) :
    |a - b| ≤ 2 ^ m := by
  rw [sub_eq_add_neg]
  exact abs_add_le_pow ha (by rwa [abs_neg]) hj hk

theorem abs_mul_le_pow (ha : |a| ≤ 2 ^ j) (hb : |b| ≤ 2 ^ k) (hm : j + k ≤ m) :
    |a * b| ≤ 2 ^ m := by
  calc |a * b| = |a| * |b| := abs_mul a b
    _ ≤ 2 ^ j * 2 ^ k := mul_le_mul ha hb (abs_nonneg b) (by positivity)
    _ = 2 ^ (j + k) := (pow_add 2 j k).symm
    _ ≤ 2 ^ m := pow_le_pow_right₀ one_le_two hm

theorem abs_natCast_le_pow {n : ℕ} (h : n ≤ 2 ^ k) : |(n : R)| ≤ 2 ^ k := by
  rw [Nat.abs_cast]
  exact_mod_cast h

end

/-! ## Integers -/

/-- The integer nearest to a rational does not pass an integer that the rational does not pass. -/
theorem nearestInt_le {r : ℚ} {n : ℤ} (h : r ≤ n) : nearestInt r ≤ n := by
  have hfloor : (r.floor : ℚ) ≤ r := Rat.floor_le r
  have hlow : r.floor ≤ n := by exact_mod_cast hfloor.trans h
  rw [nearestInt]
  split
  · exact hlow
  · next habove =>
    -- the rational is above its floor, so the floor is below the integer
    have hlt : (r.floor : ℚ) < n := by linarith
    have hnext : r.floor + 1 ≤ n := by exact_mod_cast hlt
    split
    · exact hnext
    · split
      · exact hlow
      · exact hnext

theorem le_nearestInt {r : ℚ} {n : ℤ} (h : (n : ℚ) ≤ r) : n ≤ nearestInt r := by
  have hlow : n ≤ r.floor := Rat.le_floor_iff.2 h
  rw [nearestInt]
  split
  · exact hlow
  · split
    · omega
    · split
      · exact hlow
      · omega

namespace Binary64

/-! ## Places and powers of two -/

theorem binade_eq_pow : binade = 2 ^ 52 := by
  norm_num

theorem binade_eq : (binade : ℚ) = (2 : ℚ) ^ (52 : ℤ) := by
  norm_num

/-- The magnitudes up to the place of a power of two. -/
theorem magnitude_le {place k : ℕ} (h : place ≤ (k + 1023) * binade) :
    magnitude place ≤ 2 ^ k := by
  have hmod : place % binade < binade := Nat.mod_lt _ (by decide)
  have hdiv : binade * (place / binade) + place % binade = place := Nat.div_add_mod _ _
  rw [magnitude, significand, exponent]
  split
  · next hsmall =>
    calc (place : ℚ) * (2 : ℚ) ^ (-1074 : ℤ) ≤ (2 : ℚ) ^ (52 : ℤ) * (2 : ℚ) ^ (-1074 : ℤ) := by
          refine mul_le_mul_of_nonneg_right ?_ (by positivity)
          rw [← binade_eq]
          exact_mod_cast hsmall.le
      _ = (2 : ℚ) ^ (-1022 : ℤ) := by
          rw [← zpow_add₀ two_ne_zero]
          rfl
      _ ≤ 1 := zpow_le_one_of_nonpos₀ one_le_two (by omega)
      _ ≤ 2 ^ k := one_le_pow₀ one_le_two
  · next hlarge =>
    by_cases hlast : place / binade ≤ k + 1022
    · calc ((binade + place % binade : ℕ) : ℚ) * (2 : ℚ) ^ ((place / binade : ℕ) - 1075 : ℤ)
          ≤ (2 : ℚ) ^ (53 : ℤ) * (2 : ℚ) ^ ((k : ℤ) - 53) := by
            refine mul_le_mul ?_ ?_ (by positivity) (by positivity)
            · have hbinade := binade_eq_pow
              have hmany : binade + place % binade ≤ 2 ^ 53 := by omega
              exact_mod_cast hmany
            · exact zpow_le_zpow_right₀ one_le_two (by omega)
        _ = 2 ^ k := by
            rw [← zpow_add₀ two_ne_zero, add_sub_cancel, zpow_natCast]
    · -- only the power of two itself is left
      have hexponent : place / binade = k + 1023 := by
        have := Nat.div_le_of_le_mul (h.trans_eq (Nat.mul_comm _ _))
        omega
      have hrest : place % binade = 0 := by
        rw [hexponent, Nat.mul_comm] at hdiv
        omega
      have hpower : ((place / binade : ℕ) - 1075 : ℤ) = (k : ℤ) - 52 := by
        omega
      rw [hrest, hpower, Nat.add_zero, binade_eq, ← zpow_add₀ two_ne_zero, add_sub_cancel,
        zpow_natCast]

/-- The magnitudes from the place of one on. -/
theorem one_le_magnitude {place : ℕ} (h : 1023 * binade ≤ place) : 1 ≤ magnitude place := by
  have hdiv : 1023 ≤ place / binade := (Nat.le_div_iff_mul_le (by decide)).2 h
  have hlarge : ¬place < binade := by
    omega
  rw [magnitude, significand, exponent, if_neg hlarge, if_neg hlarge]
  calc (1 : ℚ) = (2 : ℚ) ^ (52 : ℤ) * (2 : ℚ) ^ (-52 : ℤ) := by
        rw [← zpow_add₀ two_ne_zero]
        rfl
    _ ≤ ((binade + place % binade : ℕ) : ℚ) * (2 : ℚ) ^ ((place / binade : ℕ) - 1075 : ℤ) := by
        refine mul_le_mul ?_ ?_ (by positivity) (by positivity)
        · rw [← binade_eq]
          exact_mod_cast Nat.le_add_right _ _
        · exact zpow_le_zpow_right₀ one_le_two (by omega)

/-! ## Rounding -/

/-- The integer that numbers the place to which a positive rational is rounded. -/
def placeOf (r : ℚ) : ℤ :=
  (max (binaryOrder r - 52) (-1074) + 1074) * binade +
    nearestInt (r / (2 : ℚ) ^ max (binaryOrder r - 52) (-1074))

theorem roundMagnitude_of_place {negative : Bool} {r : ℚ} (hr : r ≠ 0)
    (h : (placeOf r).toNat < finiteCount) :
    roundMagnitude negative r = .finite negative ⟨(placeOf r).toNat, h⟩ := by
  rw [roundMagnitude, if_neg hr]
  exact dif_pos h

/-- A positive rational that is at most a power of two is not rounded beyond it. -/
theorem placeOf_le {r : ℚ} {k : ℕ} (hpos : 0 < r) (h : r ≤ 2 ^ k) :
    placeOf r ≤ (k + 1023) * binade := by
  obtain ⟨hlow, hhigh⟩ := binaryOrder_spec hpos
  set e := binaryOrder r
  have he : e ≤ k := by
    rw [← zpow_natCast] at h
    exact (zpow_le_zpow_iff_right₀ one_lt_two).1 (hlow.trans h)
  -- the rational in units of the step is at most a whole power of two
  have hunits : ∀ (step : ℤ) (m : ℕ), r ≤ (2 : ℚ) ^ (step + m) →
      nearestInt (r / (2 : ℚ) ^ step) ≤ 2 ^ m := by
    intro step m hr
    refine nearestInt_le ?_
    rw [div_le_iff₀ (by positivity)]
    push_cast
    rw [← zpow_natCast, ← zpow_add₀ two_ne_zero, add_comm (m : ℤ)]
    exact hr
  have hbinade : (binade : ℤ) = 2 ^ 52 := by
    exact_mod_cast binade_eq_pow
  rw [placeOf, hbinade]
  rcases le_or_gt (-1022) e with hnormal | hsubnormal
  · have hstep : max (e - 52) (-1074) = e - 52 := by
      omega
    rw [hstep]
    rcases eq_or_lt_of_le he with hlast | hbelow
    · have hr : r ≤ (2 : ℚ) ^ (e - 52 + (52 : ℕ)) := by
        rw [Nat.cast_ofNat, sub_add_cancel, hlast, zpow_natCast]
        exact h
      have := hunits (e - 52) 52 hr
      omega
    · have hr : r ≤ (2 : ℚ) ^ (e - 52 + (53 : ℕ)) :=
        hhigh.le.trans (zpow_le_zpow_right₀ one_le_two (by omega))
      have := hunits (e - 52) 53 hr
      omega
  · have hstep : max (e - 52) (-1074) = -1074 := by
      omega
    have hr : r ≤ (2 : ℚ) ^ ((-1074 : ℤ) + (52 : ℕ)) :=
      hhigh.le.trans (zpow_le_zpow_right₀ one_le_two (by omega))
    have := hunits (-1074) 52 hr
    rw [hstep]
    omega

/-- A rational that is at least one is not rounded below one. -/
theorem le_placeOf {r : ℚ} (h : 1 ≤ r) : 1023 * binade ≤ placeOf r := by
  obtain ⟨hlow, hhigh⟩ := binaryOrder_spec (zero_lt_one.trans_le h)
  set e := binaryOrder r with he
  have horder : 0 ≤ e := by
    have hlt : (2 : ℚ) ^ (0 : ℤ) < (2 : ℚ) ^ (e + 1) := by
      rw [zpow_zero]
      exact h.trans_lt hhigh
    have := (zpow_lt_zpow_iff_right₀ one_lt_two).1 hlt
    omega
  have hstep : max (e - 52) (-1074) = e - 52 := by
    omega
  have hunits : 2 ^ 52 ≤ nearestInt (r / (2 : ℚ) ^ (e - 52)) := by
    refine le_nearestInt ?_
    rw [le_div_iff₀ (by positivity), Int.cast_pow, Int.cast_ofNat, ← zpow_natCast,
      ← zpow_add₀ two_ne_zero, Nat.cast_ofNat, add_sub_cancel]
    exact hlow
  have hbinade : (binade : ℤ) = 2 ^ 52 := by
    exact_mod_cast binade_eq_pow
  rw [placeOf, hbinade, ← he, hstep]
  omega

/-- **Rounding does not overflow**: a rational that is at most a power of two among the finite
magnitudes is rounded to a finite magnitude that is at most this power. -/
theorem exists_roundMagnitude {r : ℚ} {k : ℕ} (hk : k ≤ 1023) (hpos : 0 ≤ r) (h : r ≤ 2 ^ k)
    (negative : Bool) :
    ∃ place : Place, roundMagnitude negative r = .finite negative place ∧
      magnitude place ≤ 2 ^ k := by
  rcases eq_or_lt_of_le hpos with rfl | hlt
  · refine ⟨⟨0, by decide⟩, ?_, ?_⟩
    · rw [roundMagnitude, if_pos rfl]
      rfl
    · show magnitude 0 ≤ 2 ^ k
      rw [magnitude_zero]
      positivity
  · have hplace : (placeOf r).toNat ≤ (k + 1023) * binade := by
      have := placeOf_le hlt h
      rw [Int.toNat_le]
      exact_mod_cast this
    have hfinite : (placeOf r).toNat < finiteCount := by
      have hcount : finiteCount = 2047 * 2 ^ 52 := by norm_num
      rw [binade_eq_pow] at hplace
      rw [hcount]
      omega
    exact ⟨⟨_, hfinite⟩, roundMagnitude_of_place hlt.ne' hfinite, magnitude_le hplace⟩

/-- What is at least one is rounded to what is at least one. -/
theorem one_le_of_roundMagnitude {r : ℚ} {s t : Bool} {place : Place} (h : 1 ≤ r)
    (hround : roundMagnitude s r = .finite t place) : 1 ≤ magnitude place := by
  have hle : 1023 * binade ≤ (placeOf r).toNat := by
    have := le_placeOf h
    omega
  rw [roundMagnitude, if_neg (zero_lt_one.trans_le h).ne'] at hround
  dsimp only at hround
  split at hround
  · cases hround
    exact one_le_magnitude hle
  · cases hround

/-! ## Bounded doubles -/

/-- A finite double of magnitude at most `2 ^ k`. -/
def AtMost (k : ℕ) : Binary64 → Prop
  | .finite _ place => magnitude place ≤ 2 ^ k
  | _ => False

variable {x y : Binary64} {j k m : ℕ}

/-- The finite doubles are those that have some bound. -/
theorem AtMost.exists_finite (h : x.AtMost k) :
    ∃ s place, x = .finite s place ∧ magnitude place ≤ 2 ^ k := by
  cases x with
  | nan => exact h.elim
  | infinite s => exact h.elim
  | finite s place => exact ⟨s, place, rfl, h⟩

theorem AtMost.mono (h : x.AtMost j) (hjk : j ≤ k) : x.AtMost k := by
  cases x with
  | finite s place => exact le_trans h (pow_le_pow_right₀ one_le_two hjk)
  | nan => exact h
  | infinite s => exact h

theorem AtMost.neg (h : x.AtMost k) : x.neg.AtMost k := by
  cases x with
  | finite s place => exact h
  | nan => exact h
  | infinite s => exact h

theorem AtMost.abs (h : x.AtMost k) : x.abs.AtMost k := by
  cases x with
  | finite s place => exact h
  | nan => exact h
  | infinite s => exact h

theorem magnitude_nonneg (place : ℕ) : 0 ≤ magnitude place := by
  rw [magnitude]
  positivity

theorem abs_signed (negative : Bool) (place : ℕ) : |signed negative place| = magnitude place := by
  cases negative with
  | true => rw [signed, if_pos rfl, abs_neg, abs_of_nonneg (magnitude_nonneg place)]
  | false => rw [signed, if_neg Bool.false_ne_true, abs_of_nonneg (magnitude_nonneg place)]

theorem atMost_roundMagnitude {r : ℚ} (hk : k ≤ 1023) (hpos : 0 ≤ r) (h : r ≤ 2 ^ k)
    (negative : Bool) : (roundMagnitude negative r).AtMost k := by
  obtain ⟨place, hround, hplace⟩ := exists_roundMagnitude hk hpos h negative
  rw [hround]
  exact hplace

theorem ofRat_eq (r : ℚ) : ofRat r = roundMagnitude (r < 0) |r| := by
  rw [ofRat, rat_abs_eq]

theorem atMost_ofRat {r : ℚ} (hk : k ≤ 1023) (h : |r| ≤ 2 ^ k) : (ofRat r).AtMost k := by
  rw [ofRat_eq]
  exact atMost_roundMagnitude hk (abs_nonneg r) h _

/-- The bound of a sum. -/
theorem AtMost.add (hx : x.AtMost j) (hy : y.AtMost k) (hj : j < m) (hk : k < m)
    (hm : m ≤ 1023) : (x.add y).AtMost m := by
  obtain ⟨s, i, rfl, hi⟩ := hx.exists_finite
  obtain ⟨t, l, rfl, hl⟩ := hy.exists_finite
  have hsum : |signed s i + signed t l| ≤ 2 ^ m := by
    refine abs_add_le_pow ?_ ?_ hj hk
    · rw [abs_signed]
      exact hi
    · rw [abs_signed]
      exact hl
  show (if signed s i + signed t l = 0 then zero (s && t)
    else ofRat (signed s i + signed t l)).AtMost m
  split
  · show magnitude 0 ≤ 2 ^ m
    rw [magnitude_zero]
    positivity
  · exact atMost_ofRat hm hsum

theorem AtMost.sub (hx : x.AtMost j) (hy : y.AtMost k) (hj : j < m) (hk : k < m)
    (hm : m ≤ 1023) : (x.sub y).AtMost m :=
  hx.add hy.neg hj hk hm

/-- The bound of a product. -/
theorem AtMost.mul (hx : x.AtMost j) (hy : y.AtMost k) (h : j + k ≤ m) (hm : m ≤ 1023) :
    (x.mul y).AtMost m := by
  obtain ⟨s, i, rfl, hi⟩ := hx.exists_finite
  obtain ⟨t, l, rfl, hl⟩ := hy.exists_finite
  refine atMost_roundMagnitude hm (mul_nonneg (magnitude_nonneg i) (magnitude_nonneg l)) ?_ _
  calc magnitude i * magnitude l ≤ 2 ^ j * 2 ^ k :=
        mul_le_mul hi hl (magnitude_nonneg l) (by positivity)
    _ = 2 ^ (j + k) := (pow_add 2 j k).symm
    _ ≤ 2 ^ m := pow_le_pow_right₀ one_le_two h

/-- A whole number of bounded magnitude is a double. -/
theorem ofInt_atMost {n : ℤ} (hk : k ≤ 1023) (h : |n| ≤ 2 ^ k) :
    Succeeds (ofInt n) (AtMost k) := by
  have habs : |(n : ℚ)| ≤ 2 ^ k := by
    exact_mod_cast h
  obtain ⟨s, place, hround, hplace⟩ := (atMost_ofRat hk habs).exists_finite
  exact ⟨.finite s place, by rw [ofInt, hround], hplace⟩

theorem ofRat_of_ofInt {n : ℤ} (h : ofInt n = .ok y) : ofRat n = y := by
  rw [ofInt] at h
  split at h
  · exact nomatch h
  · exact Except.ok.inj h

/-- A positive whole number is no double zero. -/
theorem one_le_of_ofInt {n : ℕ} (hn : 0 < n) {t : Bool} {l : Place}
    (h : ofInt n = .ok (.finite t l)) : 1 ≤ magnitude l := by
  have hround := ofRat_of_ofInt h
  rw [ofRat_eq] at hround
  refine one_le_of_roundMagnitude ?_ hround
  rw [Int.cast_natCast, Nat.abs_cast]
  exact_mod_cast hn

theorem ne_zero_of_one_le {l : Place} (h : 1 ≤ magnitude l) : l.val ≠ 0 := by
  intro hl
  rw [hl, magnitude_zero] at h
  exact absurd h (by norm_num)

/-- The bound of a quotient by a positive whole number. -/
theorem AtMost.div {n : ℕ} (hk : k ≤ 1023) (hj : j ≤ 1023) (hx : x.AtMost k) (hn : 0 < n)
    (hlarge : n ≤ 2 ^ j) : Succeeds (ofInt n) fun y => (x.div y).AtMost k := by
  obtain ⟨s, i, rfl, hi⟩ := hx.exists_finite
  have hbound : |(n : ℤ)| ≤ 2 ^ j := by
    rw [Nat.abs_cast]
    exact_mod_cast hlarge
  obtain ⟨y, hy, hbounded⟩ := ofInt_atMost hj hbound
  obtain ⟨t, l, rfl, -⟩ := hbounded.exists_finite
  have hone := one_le_of_ofInt hn hy
  refine ⟨_, hy, ?_⟩
  show (if l.val = 0 then (if i.val = 0 then nan else infinite (s != t))
    else roundMagnitude (s != t) (magnitude i / magnitude l)).AtMost k
  rw [if_neg (ne_zero_of_one_le hone)]
  refine atMost_roundMagnitude hk (div_nonneg (magnitude_nonneg i) (magnitude_nonneg l)) ?_ _
  exact (div_le_self (magnitude_nonneg i) hone).trans hi

/-- A bounded double is rounded to an integer. -/
theorem AtMost.toIntWith (hx : x.AtMost k) {round : ℚ → ℤ} {P : ℤ → Prop}
    (hround : ∀ r : ℚ, |r| ≤ 2 ^ k → P (round r)) : Succeeds (x.toIntWith round) P := by
  obtain ⟨s, place, rfl, hplace⟩ := hx.exists_finite
  refine .ok (hround (signed s place) ?_)
  rw [abs_signed]
  exact hplace

end Binary64

end SchemaDiagram
