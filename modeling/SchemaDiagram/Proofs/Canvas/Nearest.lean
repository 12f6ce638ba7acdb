/-
# The nearest grid point inside the canvas

A clamped coordinate is the multiple of the grid size that is nearest to the coordinate among those
between the limits.  Where the limits have no multiple between them it is the higher limit, and
where they are the wrong way round it is the lower one.

* `NearestOnGrid` : what a clamped coordinate is to be;
* `nearestOnGrid_of_steps` : the steps of clamping give it, if their quotients are as if exact;
* `clampBetween_exact`, `clampBetween_computed` : exact coordinates, and those that a program
  computes with;
* `Config.clamp_nearest` : the positions that are clamped.
-/
import SchemaDiagram.Proofs.Canvas.Clamping
import SchemaDiagram.Proofs.Number.Exactness

namespace SchemaDiagram

variable {α : Type} [Arithmetic α] {grid : ℕ} {low high r q above below : ℤ}

/-! ## Multiples beside the limits -/

/-- The greatest multiple that is not above a limit. -/
theorem isGreatest_floor (hgrid : 0 < grid) (high : ℤ) :
    IsGreatest {s : ℤ | (grid : ℤ) ∣ s ∧ s ≤ high} (((high : ℚ) / grid).floor * grid) := by
  have hpos : (0 : ℚ) < grid := by exact_mod_cast hgrid
  refine ⟨⟨dvd_mul_left _ _, ?_⟩, ?_⟩
  · have hle := (le_div_iff₀ hpos).1 (Rat.floor_le ((high : ℚ) / grid))
    exact_mod_cast hle
  · rintro s ⟨⟨t, rfl⟩, hs⟩
    have ht : (t : ℚ) ≤ (high : ℚ) / grid := by
      rw [le_div_iff₀ hpos, mul_comm]
      exact_mod_cast hs
    rw [mul_comm]
    exact mul_le_mul_of_nonneg_right (Rat.le_floor_iff.2 ht) (Int.natCast_nonneg grid)

/-- The least multiple that is not below a limit. -/
theorem isLeast_ceil (hgrid : 0 < grid) (low : ℤ) :
    IsLeast {s : ℤ | (grid : ℤ) ∣ s ∧ low ≤ s} (((low : ℚ) / grid).ceil * grid) := by
  have hpos : (0 : ℚ) < grid := by exact_mod_cast hgrid
  refine ⟨⟨dvd_mul_left _ _, ?_⟩, ?_⟩
  · have hle := (div_le_iff₀ hpos).1 (Rat.le_ceil (x := (low : ℚ) / grid))
    exact_mod_cast hle
  · rintro s ⟨⟨t, rfl⟩, hs⟩
    have ht : (low : ℚ) / grid ≤ t := by
      rw [div_le_iff₀ hpos, mul_comm]
      exact_mod_cast hs
    rw [mul_comm (grid : ℤ)]
    exact mul_le_mul_of_nonneg_right (Rat.ceil_le_iff.2 ht) (Int.natCast_nonneg grid)

/-- The quotients of the limits are rounded as if they were exact. -/
structure ExactLimits (α : Type) [Arithmetic α] (grid : ℕ) (low high : ℤ) : Prop where
  floor : Arithmetic.floorQuotient α high grid = .ok ((high : ℚ) / grid).floor
  ceil : Arithmetic.ceilQuotient α low grid = .ok ((low : ℚ) / grid).ceil

theorem Lowered.cases (hgrid : 0 < grid) (hexact : ExactLimits α grid low high)
    (h : Lowered α grid high q above) :
    q * grid ≤ high ∧ above = q * grid ∨
      high < q * grid ∧ IsGreatest {s : ℤ | (grid : ℤ) ∣ s ∧ s ≤ high} above := by
  rcases lt_or_ge high (q * grid) with hhigh | hhigh
  · obtain ⟨k, hk, rfl⟩ := h.of_lt hhigh
    rw [hexact.floor, Except.ok.injEq] at hk
    exact Or.inr ⟨hhigh, hk ▸ isGreatest_floor hgrid high⟩
  · exact Or.inl ⟨hhigh, h.of_le hhigh⟩

theorem Raised.cases (hgrid : 0 < grid) (hexact : ExactLimits α grid low high)
    (h : Raised α grid low above below) :
    low ≤ above ∧ below = above ∨
      above < low ∧ IsLeast {s : ℤ | (grid : ℤ) ∣ s ∧ low ≤ s} below := by
  rcases lt_or_ge above low with hlow | hlow
  · obtain ⟨k, hk, rfl⟩ := h.of_lt hlow
    rw [hexact.ceil, Except.ok.injEq] at hk
    exact Or.inr ⟨hlow, hk ▸ isLeast_ceil hgrid low⟩
  · exact Or.inl ⟨hlow, h.of_le hlow⟩

/-! ## The nearest multiple -/

/-- A multiple of the grid size between two limits. -/
structure OnGrid (grid : ℕ) (low high s : ℤ) : Prop where
  low_le : low ≤ s
  le_high : s ≤ high
  dvd : (grid : ℤ) ∣ s

/-- The best place for a coordinate between two limits: a multiple of the grid size, where there is
one, and no other one is nearer. -/
structure NearestOnGrid (grid : ℕ) (low high : ℤ) (v : ℚ) (r : ℤ) : Prop where
  aligned : ∀ s, OnGrid grid low high s → OnGrid grid low high r
  nearest : ∀ s, OnGrid grid low high s → |(r : ℚ) - v| ≤ |(s : ℚ) - v|
  inverted : high < low → r = low
  narrow : low ≤ high → (∀ s, ¬OnGrid grid low high s) → r = high

/-- The multiple of factor `q` is a good first step for a coordinate: it is half a step away at
most, or passes all multiples between the limits as the coordinate does. -/
def GoodStep (grid : ℕ) (low high : ℤ) (v : ℚ) (q : ℤ) : Prop :=
  |((q * grid : ℤ) : ℚ) - v| ≤ grid / 2 ∨
    (high : ℚ) ≤ v ∧ (∀ s, OnGrid grid low high s → s ≤ q * grid) ∨
    v ≤ low ∧ ∀ s, OnGrid grid low high s → q * grid ≤ s

/-- Multiples that differ are one step apart at least. -/
theorem add_le_of_dvd {s t : ℤ} (hs : (grid : ℤ) ∣ s) (ht : (grid : ℤ) ∣ t) (h : s < t) :
    s + grid ≤ t := by
  have hstep := Int.le_of_dvd (sub_pos.2 h) (dvd_sub ht hs)
  omega

namespace GoodStep

variable {v : ℚ} {s : ℤ}

/-- A coordinate is not below a multiple that its own one is above. -/
theorem le_value (hgood : GoodStep grid low high v q) (hs : OnGrid grid low high s)
    (h : s < q * grid) : (s : ℚ) ≤ v := by
  rcases hgood with hnear | ⟨hbeyond, -⟩ | ⟨-, hpassed⟩
  · have hstep : ((s + grid : ℤ) : ℚ) ≤ (q * grid : ℤ) := by
      exact_mod_cast add_le_of_dvd hs.dvd (dvd_mul_left _ _) h
    have hbound := (abs_le.1 hnear).2
    have hgrid : (0 : ℚ) ≤ grid := Nat.cast_nonneg grid
    push_cast at hstep hbound
    linarith
  · have hle : (s : ℚ) ≤ high := by exact_mod_cast hs.le_high
    exact hle.trans hbeyond
  · exact absurd (hpassed s hs) (not_le.2 h)

/-- A coordinate is not above a multiple that its own one is below. -/
theorem value_le (hgood : GoodStep grid low high v q) (hs : OnGrid grid low high s)
    (h : q * grid < s) : v ≤ (s : ℚ) := by
  rcases hgood with hnear | ⟨-, hpassed⟩ | ⟨hbeyond, -⟩
  · have hstep : ((q * grid + grid : ℤ) : ℚ) ≤ s := by
      exact_mod_cast add_le_of_dvd (dvd_mul_left _ _) hs.dvd h
    have hbound := (abs_le.1 hnear).1
    have hgrid : (0 : ℚ) ≤ grid := Nat.cast_nonneg grid
    push_cast at hstep hbound
    linarith
  · exact absurd (hpassed s hs) (not_le.2 h)
  · have hle : (low : ℚ) ≤ s := by exact_mod_cast hs.low_le
    exact hbeyond.trans hle

end GoodStep

/-- Of two multiples on one side of a coordinate, the one between is nearer. -/
theorem abs_sub_le_of_le {v : ℚ} {s t : ℤ} (h : s ≤ t ∧ (t : ℚ) ≤ v ∨ t ≤ s ∧ v ≤ (t : ℚ)) :
    |(t : ℚ) - v| ≤ |(s : ℚ) - v| := by
  rcases h with ⟨hst, htv⟩ | ⟨hts, hvt⟩
  · have hst : (s : ℚ) ≤ t := by exact_mod_cast hst
    rw [abs_of_nonpos (sub_nonpos.2 htv), abs_of_nonpos (sub_nonpos.2 (hst.trans htv))]
    exact neg_le_neg (sub_le_sub_right hst v)
  · have hts : (t : ℚ) ≤ s := by exact_mod_cast hts
    rw [abs_of_nonneg (sub_nonneg.2 hvt), abs_of_nonneg (sub_nonneg.2 (hvt.trans hts))]
    exact sub_le_sub_right hts v

/-- A good first step between the limits is the nearest one. -/
theorem GoodStep.nearest {v : ℚ} {s : ℤ} (hgood : GoodStep grid low high v q)
    (hq : OnGrid grid low high (q * grid)) (hs : OnGrid grid low high s) :
    |((q * grid : ℤ) : ℚ) - v| ≤ |(s : ℚ) - v| := by
  rcases hgood with hnear | ⟨hbeyond, hpassed⟩ | ⟨hbeyond, hpassed⟩
  · -- every other multiple is half a step away at least
    have hbounds := abs_le.1 hnear
    rcases lt_trichotomy s (q * grid) with hless | rfl | hmore
    · have hstep : ((s + grid : ℤ) : ℚ) ≤ (q * grid : ℤ) := by
        exact_mod_cast add_le_of_dvd hs.dvd hq.dvd hless
      push_cast at hstep hnear hbounds ⊢
      refine hnear.trans (le_trans ?_ (neg_le_abs _))
      linarith
    · exact le_rfl
    · have hstep : ((q * grid + grid : ℤ) : ℚ) ≤ s := by
        exact_mod_cast add_le_of_dvd hq.dvd hs.dvd hmore
      push_cast at hstep hnear hbounds ⊢
      refine hnear.trans (le_trans ?_ (le_abs_self _))
      linarith
  · have hle : ((q * grid : ℤ) : ℚ) ≤ high := by exact_mod_cast hq.le_high
    exact abs_sub_le_of_le (Or.inl ⟨hpassed s hs, hle.trans hbeyond⟩)
  · have hle : (low : ℚ) ≤ ((q * grid : ℤ) : ℚ) := by exact_mod_cast hq.low_le
    exact abs_sub_le_of_le (Or.inr ⟨hpassed s hs, hbeyond.trans hle⟩)

variable {v : ℚ}

/-- Where the limits have multiples between them, the steps end at the nearest one. -/
theorem steps_onGrid (hgrid : 0 < grid) (hexact : ExactLimits α grid low high)
    (hgood : GoodStep grid low high v q) (habove : Lowered α grid high q above)
    (hbelow : Raised α grid low above below) {t : ℤ} (ht : OnGrid grid low high t) :
    OnGrid grid low high below ∧
      ∀ s, OnGrid grid low high s → |(below : ℚ) - v| ≤ |(s : ℚ) - v| := by
  rcases habove.cases hgrid hexact with ⟨hhigh, rfl⟩ | ⟨hhigh, hgreatest⟩
  · rcases hbelow.cases hgrid hexact with ⟨hlow, rfl⟩ | ⟨hlow, hleast⟩
    · have hq : OnGrid grid low high (q * grid) := ⟨hlow, hhigh, dvd_mul_left _ _⟩
      exact ⟨hq, fun s hs => hgood.nearest hq hs⟩
    · -- the least multiple of the range is the nearest one
      have hon : OnGrid grid low high below :=
        ⟨hleast.1.2, (hleast.2 ⟨ht.dvd, ht.low_le⟩).trans ht.le_high, hleast.1.1⟩
      have hvalue := hgood.value_le hon (hlow.trans_le hon.low_le)
      exact ⟨hon, fun s hs => abs_sub_le_of_le (Or.inr ⟨hleast.2 ⟨hs.dvd, hs.low_le⟩, hvalue⟩)⟩
  · -- the greatest multiple of the range is the nearest one
    have hon : OnGrid grid low high above :=
      ⟨ht.low_le.trans (hgreatest.2 ⟨ht.dvd, ht.le_high⟩), hgreatest.1.2, hgreatest.1.1⟩
    obtain rfl : below = above := hbelow.of_le hon.low_le
    have hvalue := hgood.le_value hon (hon.le_high.trans_lt hhigh)
    exact ⟨hon, fun s hs => abs_sub_le_of_le (Or.inl ⟨hgreatest.2 ⟨hs.dvd, hs.le_high⟩, hvalue⟩)⟩

/-- Where the limits have no multiple between them, the steps end above them. -/
theorem steps_narrow (hgrid : 0 < grid) (hexact : ExactLimits α grid low high)
    (habove : Lowered α grid high q above) (hbelow : Raised α grid low above below)
    (hnone : ∀ s, ¬OnGrid grid low high s) : high < below := by
  rcases hbelow.cases hgrid hexact with ⟨hlow, rfl⟩ | ⟨-, hleast⟩
  · exfalso
    rcases habove.cases hgrid hexact with ⟨hhigh, rfl⟩ | ⟨-, hgreatest⟩
    · exact hnone _ ⟨hlow, hhigh, dvd_mul_left _ _⟩
    · exact hnone _ ⟨hlow, hgreatest.1.2, hgreatest.1.1⟩
  · by_contra hle
    exact hnone _ ⟨hleast.1.2, not_lt.1 hle, hleast.1.1⟩

/-- **The steps of clamping** end at the best place, if their quotients are as if exact. -/
theorem nearestOnGrid_of_steps (hgrid : 0 < grid) (hexact : ExactLimits α grid low high)
    (hgood : GoodStep grid low high v q) (habove : Lowered α grid high q above)
    (hbelow : Raised α grid low above below) (hr : min (max below low) (max low high) = r) :
    NearestOnGrid grid low high v r := by
  have hsome : ∀ t, OnGrid grid low high t → r = below := by
    intro t ht
    have hon := (steps_onGrid hgrid hexact hgood habove hbelow ht).1
    have hlow := hon.low_le
    have hhigh := hon.le_high
    omega
  constructor
  case aligned =>
    intro t ht
    rw [hsome t ht]
    exact (steps_onGrid hgrid hexact hgood habove hbelow ht).1
  case nearest =>
    intro s hs
    rw [hsome s hs]
    exact (steps_onGrid hgrid hexact hgood habove hbelow hs).2 s hs
  case inverted =>
    intro hless
    omega
  case narrow =>
    intro hle hnone
    have hhigh := steps_narrow hgrid hexact habove hbelow hnone
    omega

/-- What is at its best place stays there. -/
theorem NearestOnGrid.again {r' : ℤ} (h : NearestOnGrid grid low high v r)
    (h' : NearestOnGrid grid low high r r') : r' = r := by
  rcases lt_or_ge high low with hless | hle
  · rw [h.inverted hless, h'.inverted hless]
  · by_cases hnone : ∀ s, ¬OnGrid grid low high s
    · rw [h.narrow hle hnone, h'.narrow hle hnone]
    · obtain ⟨s, hs⟩ := not_forall.1 hnone
      have hzero := h'.nearest r (h.aligned s (not_not.1 hs))
      rw [sub_self, abs_zero, abs_nonpos_iff, sub_eq_zero] at hzero
      exact_mod_cast hzero

/-! ## Exact coordinates -/

/-- The multiple of the nearest integer to a quotient is at most half a step away. -/
theorem abs_nearestInt_mul_sub_le (hgrid : 0 < grid) (v : ℚ) :
    |((nearestInt (v / grid) * grid : ℤ) : ℚ) - v| ≤ grid / 2 := by
  have hpos : (0 : ℚ) < grid := by exact_mod_cast hgrid
  have hhalf := abs_sub_nearestInt_le (v / grid)
  have hsplit : ((nearestInt (v / grid) * grid : ℤ) : ℚ) - v =
      -(v / grid - nearestInt (v / grid)) * grid := by
    push_cast
    field_simp
    ring
  rw [hsplit, abs_mul, abs_neg, Nat.abs_cast]
  calc |v / grid - nearestInt (v / grid)| * grid ≤ 1 / 2 * grid :=
        mul_le_mul_of_nonneg_right hhalf hpos.le
    _ = grid / 2 := by ring

/-- **An exact coordinate** is clamped to its best place. -/
theorem clampBetween_exact (hgrid : 0 < grid) (low high : ℤ) (v : ℚ) :
    ∃ r, clampBetween grid low high v = .ok r ∧ NearestOnGrid grid low high v r := by
  have hexact : ExactLimits ℚ grid low high := ⟨rfl, rfl⟩
  obtain ⟨above, below, habove, hbelow⟩ :=
    exists_steps (nearestInt (v / grid)) ⟨_, hexact.floor⟩ ⟨_, hexact.ceil⟩
  refine ⟨_, clampBetween_eq_ok.2 ⟨_, above, below, rfl, habove, hbelow, rfl⟩, ?_⟩
  exact nearestOnGrid_of_steps hgrid hexact (Or.inl (abs_nearestInt_mul_sub_le hgrid v)) habove
    hbelow rfl

/-! ## Computed coordinates -/

/-- Limits and a grid size that are short enough for quotients to be as if exact. -/
structure ShortLimits (grid : ℕ) (low high : ℤ) : Prop where
  grid_lt : grid < 2 ^ 52
  low_nonneg : 0 ≤ low
  low_lt : low < 2 ^ 52
  abs_high_lt : |high| < 2 ^ 52

theorem ShortLimits.exact (hgrid : 0 < grid) (h : ShortLimits grid low high) :
    ExactLimits Quantity grid low high := by
  have hlow : |low| < 2 ^ 52 := by
    rw [abs_of_nonneg h.low_nonneg]
    exact h.low_lt
  exact ⟨(Quantity.floor_ceilQuotient_whole hgrid h.grid_lt h.abs_high_lt).1,
    (Quantity.floor_ceilQuotient_whole hgrid h.grid_lt hlow).2⟩

/-- The nearest quotient of any computed coordinate is a good first step for short limits: beyond
`2 ^ 52`, where it need not be that of the nearest multiple, it is beyond the limits. -/
theorem ShortLimits.goodStep (hgrid : 0 < grid) (h : ShortLimits grid low high) {x : Quantity}
    (hv : x.value? = some v) (hq : Arithmetic.nearestQuotient x grid = .ok q) :
    GoodStep grid low high v q := by
  have hsmall : grid < 2 ^ 53 := h.grid_lt.trans (by norm_num)
  have hgrid_nonneg : (0 : ℚ) ≤ grid := Nat.cast_nonneg grid
  rcases lt_or_ge |v| (2 ^ 52) with hnear | hfar
  · left
    rw [Quantity.nearestQuotient_value hgrid hsmall hv hnear hq]
    exact abs_nearestInt_mul_sub_le hgrid v
  right
  have hquotient := Quantity.quotientWith_value hgrid (Binary64.holds_of_natCast_lt hsmall) hv hq
  rcases le_abs'.1 hfar with hneg | hpos
  · right
    have hlow : v ≤ (low : ℚ) := by
      have hnonneg : (0 : ℚ) ≤ low := by exact_mod_cast h.low_nonneg
      linarith
    obtain ⟨-, hceil⟩ := (Quantity.quotientWith_whole_iff hgrid).1 (h.exact hgrid).ceil
    have hq_le : q ≤ ((low : ℚ) / grid).ceil := by
      rw [← hquotient, ← hceil]
      exact nearestInt_le ((Binary64.nearestValue_mono
        (div_le_div_of_nonneg_right hlow hgrid_nonneg)).trans Rat.le_ceil)
    exact ⟨hlow, fun s hs =>
      (mul_grid_le hq_le).trans ((isLeast_ceil hgrid low).2 ⟨hs.dvd, hs.low_le⟩)⟩
  · left
    have hhigh : (high : ℚ) ≤ v := by
      have hlt : (high : ℚ) < 2 ^ 52 := by exact_mod_cast (abs_lt.1 h.abs_high_lt).2
      exact hlt.le.trans hpos
    obtain ⟨-, hfloor⟩ := (Quantity.quotientWith_whole_iff hgrid).1 (h.exact hgrid).floor
    have hle_q : ((high : ℚ) / grid).floor ≤ q := by
      rw [← hquotient, ← hfloor]
      exact le_nearestInt ((Rat.floor_le _).trans (Binary64.nearestValue_mono
        (div_le_div_of_nonneg_right hhigh hgrid_nonneg)))
    exact ⟨hhigh, fun s hs =>
      ((isGreatest_floor hgrid high).2 ⟨hs.dvd, hs.le_high⟩).trans (mul_grid_le hle_q)⟩

/-- **A computed coordinate** is clamped to its best place between short limits. -/
theorem clampBetween_computed (hgrid : 0 < grid) (hshort : ShortLimits grid low high)
    {x : Quantity} (h : clampBetween grid low high x = .ok r) :
    ∃ v, x.value? = some v ∧ NearestOnGrid grid low high v r := by
  obtain ⟨q, above, below, hq, habove, hbelow, hr⟩ := clampBetween_eq_ok.1 h
  obtain ⟨v, hv⟩ := Quantity.exists_value_of_quotientWith hq
  exact ⟨v, hv, nearestOnGrid_of_steps hgrid (hshort.exact hgrid) (hshort.goodStep hgrid hv hq)
    habove hbelow hr⟩

/-! ## Positions -/

namespace Config

/-- Each coordinate of a position is the best place for that of another one. -/
structure Nearest (c : Config) (fieldCount : ℕ) (v : Point ℚ) (r : Point ℤ) : Prop where
  x : NearestOnGrid c.layout.gridSize c.bounds.anchor.x (c.farLimit fieldCount).x v.x r.x
  y : NearestOnGrid c.layout.gridSize c.bounds.anchor.y (c.farLimit fieldCount).y v.y r.y

/-- The limits in both directions are short enough for quotients to be as if exact. -/
structure Short (c : Config) (fieldCount : ℕ) : Prop where
  x : ShortLimits c.layout.gridSize c.bounds.anchor.x (c.farLimit fieldCount).x
  y : ShortLimits c.layout.gridSize c.bounds.anchor.y (c.farLimit fieldCount).y

variable {c : Config} {fieldCount : ℕ} {r : Point ℤ}

theorem anchor_nonneg (b : Bounds) : 0 ≤ b.anchor.x ∧ 0 ≤ b.anchor.y := by
  simp only [Bounds.anchor]
  omega

/-- A computed position that is clamped stays where it is when it is clamped again. -/
theorem clamp_again {p : Point Quantity} (h : c.clamp fieldCount p = .ok r) :
    c.clamp fieldCount (.ofInts r : Point Quantity) = .ok r := by
  obtain ⟨hx, hy⟩ := clamp_eq_ok.1 h
  obtain ⟨hlowx, hlowy⟩ := anchor_nonneg c.bounds
  exact clamp_eq_ok.2 ⟨clampBetween_again c.layout.gridSize_pos hlowx hx,
    clampBetween_again c.layout.gridSize_pos hlowy hy⟩

/-- A computed position is clamped to the nearest one between short limits. -/
theorem nearest_of_clamp (hshort : c.Short fieldCount) {p : Point Quantity}
    (h : c.clamp fieldCount p = .ok r) :
    ∃ v : Point ℚ, p.x.value? = some v.x ∧ p.y.value? = some v.y ∧ c.Nearest fieldCount v r := by
  obtain ⟨hx, hy⟩ := clamp_eq_ok.1 h
  obtain ⟨vx, hvx, hnearx⟩ := clampBetween_computed c.layout.gridSize_pos hshort.x hx
  obtain ⟨vy, hvy, hneary⟩ := clampBetween_computed c.layout.gridSize_pos hshort.y hy
  exact ⟨⟨vx, vy⟩, hvx, hvy, hnearx, hneary⟩

/-- An exact position is clamped to the nearest one. -/
theorem exists_nearest (c : Config) (fieldCount : ℕ) (p : Point ℚ) :
    ∃ r, c.clamp fieldCount p = .ok r ∧ c.Nearest fieldCount p r := by
  obtain ⟨x, hx, hnearx⟩ := clampBetween_exact c.layout.gridSize_pos c.bounds.anchor.x
    (c.farLimit fieldCount).x p.x
  obtain ⟨y, hy, hneary⟩ := clampBetween_exact c.layout.gridSize_pos c.bounds.anchor.y
    (c.farLimit fieldCount).y p.y
  exact ⟨⟨x, y⟩, clamp_eq_ok.2 ⟨hx, hy⟩, hnearx, hneary⟩

/-- **Clamping a position** gives the nearest grid point inside the canvas, on exact coordinates as
on those that a program computes with, and it gives this point again for itself. -/
theorem clamp_nearest (c : Config) (fieldCount : ℕ) :
    (∀ p : Point ℚ, ∃ r, c.clamp fieldCount p = .ok r ∧ c.Within fieldCount r ∧
      c.Nearest fieldCount p r ∧ c.clamp fieldCount (.ofInts r : Point ℚ) = .ok r) ∧
    ∀ (p : Point Quantity) (r : Point ℤ), c.clamp fieldCount p = .ok r →
      c.Within fieldCount r ∧ c.clamp fieldCount (.ofInts r : Point Quantity) = .ok r ∧
      (c.Short fieldCount → ∃ v : Point ℚ, p.x.value? = some v.x ∧ p.y.value? = some v.y ∧
        c.Nearest fieldCount v r) := by
  constructor
  · intro p
    obtain ⟨r, hr, hnearest⟩ := exists_nearest c fieldCount p
    obtain ⟨r', hr', hnearest'⟩ := exists_nearest c fieldCount (.ofInts r)
    obtain rfl : r' = r := by
      obtain ⟨x', y'⟩ := r'
      obtain ⟨x, y⟩ := r
      exact congrArg₂ Point.mk (hnearest.x.again hnearest'.x) (hnearest.y.again hnearest'.y)
    exact ⟨r', hr, clamp_within hr, hnearest, hr'⟩
  · intro p r hr
    exact ⟨clamp_within hr, clamp_again hr, fun hshort => nearest_of_clamp hshort hr⟩

/-- A position between two grid points, and too far down for a table of 69 fields, whose limits are
not both on the grid. -/
theorem clamp_nearest_tall :
    default.clamp 69 (⟨.real (.ofRat (1233 / 2)), .whole 1000⟩ : Point Quantity) = .ok ⟨620, 80⟩ ∧
      default.Short 69 ∧ default.Within 69 ⟨620, 80⟩ ∧
      default.clamp 69 (.ofInts ⟨620, 80⟩ : Point Quantity) = .ok ⟨620, 80⟩ ∧
      ∃ v : Point ℚ, (Quantity.real (.ofRat (1233 / 2))).value? = some v.x ∧
        (Quantity.whole 1000).value? = some v.y ∧ default.Nearest 69 v ⟨620, 80⟩ := by
  have hclamp : default.clamp 69 (⟨.real (.ofRat (1233 / 2)), .whole 1000⟩ : Point Quantity) =
      .ok ⟨620, 80⟩ := by decide +kernel
  have hshort : default.Short 69 :=
    ⟨⟨by decide, by decide, by decide, by decide⟩, ⟨by decide, by decide, by decide, by decide⟩⟩
  obtain ⟨hwithin, hagain, hnearest⟩ := (clamp_nearest default 69).2 _ _ hclamp
  exact ⟨hclamp, hshort, hwithin, hagain, hnearest hshort⟩

end Config

end SchemaDiagram
