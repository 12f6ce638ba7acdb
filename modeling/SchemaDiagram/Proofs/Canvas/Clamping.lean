/-
# Clamping again

To clamp a clamped coordinate changes nothing.  Nothing is assumed about the size of the limits, so
a multiple that a rounded quotient gives may pass the limit it comes from; but then it passes it
again.

* `hasQuotient_low`, `hasQuotient_high` : the quotients that clamping again needs;
* `clampBetween_multiple`, `clampBetween_low`, `lt_below_again` : what becomes of a multiple, of the
  lower limit and of the higher one;
* `clampBetween_again` : clamping again.
-/
import SchemaDiagram.Proofs.Canvas.Limits
import SchemaDiagram.Proofs.Number.Quotient

namespace SchemaDiagram

open Binary64 Quantity

variable {grid : ℕ} {low high r q above below : ℤ}

/-! ## Quotients that there are -/

theorem Lowered.exists_holds (hq : Holds q) (h : Lowered Quantity grid high q above) :
    ∃ k, Holds k ∧ k * grid = above := by
  rcases lt_or_ge high (q * grid) with hhigh | hhigh
  · obtain ⟨k, hk, habove⟩ := h.of_lt hhigh
    exact ⟨k, holds_of_quotientWith isRounding_floor hk, habove⟩
  · exact ⟨q, hq, (h.of_le hhigh).symm⟩

theorem Raised.exists_holds (habove : ∃ k, Holds k ∧ k * grid = above)
    (h : Raised Quantity grid low above below) : ∃ k, Holds k ∧ k * grid = below := by
  rcases lt_or_ge above low with hlow | hlow
  · obtain ⟨k, hk, hbelow⟩ := h.of_lt hlow
    exact ⟨k, holds_of_quotientWith isRounding_ceil hk, hbelow⟩
  · rw [h.of_le hlow]
    exact habove

/-- What is no greater than a multiple by an integer that a double holds has a quotient. -/
theorem hasQuotient_of_multiple (hgrid : 0 < grid) {a n : ℤ} (h : ∃ k, Holds k ∧ k * grid = n)
    (hle : |a| ≤ |n|) : HasQuotient a grid := by
  obtain ⟨k, hk, rfl⟩ := h
  exact (hasQuotient_multiple hgrid hk).of_abs_le hgrid hle

/-- After the steps, the lower limit has a quotient. -/
theorem hasQuotient_low (hgrid : 0 < grid) (hlow : 0 ≤ low) (hq : Holds q)
    (habove : Lowered Quantity grid high q above) (hbelow : Raised Quantity grid low above below) :
    HasQuotient low grid := by
  rcases lt_or_ge above low with hless | hle
  · obtain ⟨m, hm, -⟩ := hbelow.of_lt hless
    exact ((quotientWith_whole_iff hgrid).1 hm).1
  · refine hasQuotient_of_multiple hgrid (habove.exists_holds hq) ?_
    rwa [abs_of_nonneg hlow, abs_of_nonneg (hlow.trans hle)]

/-- After steps that pass the higher limit, this one has a quotient. -/
theorem hasQuotient_high (hgrid : 0 < grid) (hlow : 0 ≤ low) (hq : Holds q)
    (habove : Lowered Quantity grid high q above) (hbelow : Raised Quantity grid low above below)
    (hpassed : high < low ∨ high < below) : HasQuotient high grid := by
  rcases lt_or_ge high (q * grid) with hhigh | hhigh
  · obtain ⟨k, hk, -⟩ := habove.of_lt hhigh
    exact ((quotientWith_whole_iff hgrid).1 hk).1
  rcases lt_or_ge high 0 with hneg | hpos
  · -- the nearest multiple is still farther from zero
    refine hasQuotient_of_multiple hgrid ⟨q, hq, rfl⟩ ?_
    rw [abs_of_neg hneg, abs_of_neg (hhigh.trans_lt hneg)]
    exact neg_le_neg hhigh
  · rcases hpassed with hless | hless
    · refine (hasQuotient_low hgrid hlow hq habove hbelow).of_abs_le hgrid ?_
      rw [abs_of_nonneg hpos, abs_of_nonneg hlow]
      exact hless.le
    · refine hasQuotient_of_multiple hgrid (hbelow.exists_holds (habove.exists_holds hq)) ?_
      rw [abs_of_nonneg hpos, abs_of_nonneg (hpos.trans hless.le)]
      exact hless.le

/-- The steps can be made between limits that have quotients. -/
theorem exists_steps_of_hasQuotient (hgrid : 0 < grid) (q : ℤ) (hlow : HasQuotient low grid)
    (hhigh : HasQuotient high grid) :
    ∃ above below, Lowered Quantity grid high q above ∧ Raised Quantity grid low above below :=
  exists_steps q ⟨_, (quotientWith_whole_iff hgrid).2 ⟨hhigh, rfl⟩⟩
    ⟨_, (quotientWith_whole_iff hgrid).2 ⟨hlow, rfl⟩⟩

/-! ## What stays where it is -/

/-- The nearest quotient, of what has one. -/
theorem nearestQuotient_of_hasQuotient (hgrid : 0 < grid) {a : ℤ} (h : HasQuotient a grid) :
    Arithmetic.nearestQuotient (.whole a : Quantity) grid =
      .ok (nearestInt (nearestValue (a / grid))) :=
  (quotientWith_whole_iff hgrid).2 ⟨h, rfl⟩

theorem mul_grid_le {j k : ℤ} (h : j ≤ k) : j * grid ≤ k * grid :=
  mul_le_mul_of_nonneg_right h (Int.natCast_nonneg grid)

/-- A multiple between the limits stays where it is. -/
theorem clampBetween_multiple (hgrid : 0 < grid) {k : ℤ} (hk : Holds k) (hlow : low ≤ k * grid)
    (hhigh : k * grid ≤ high) :
    clampBetween grid low high (.whole (k * grid) : Quantity) = .ok (k * grid) :=
  clampBetween_of_between (quotientWith_multiple isRounding_nearestInt hgrid hk) hlow hhigh

/-- A lower limit that its own multiple falls short of stays where it is. -/
theorem clampBetween_low (hgrid : 0 < grid) (hle : low ≤ high) {m : ℤ}
    (hm : Arithmetic.ceilQuotient Quantity low grid = .ok m) (hless : m * grid < low) :
    clampBetween grid low high (.whole low : Quantity) = .ok low := by
  obtain ⟨hquotient, hceil⟩ := (quotientWith_whole_iff hgrid).1 hm
  have hnearest : nearestInt (nearestValue (low / grid)) ≤ m := hceil ▸ nearestInt_le Rat.le_ceil
  have hle_m : nearestInt (nearestValue (low / grid)) * (grid : ℤ) ≤ m * grid :=
    mul_grid_le hnearest
  have hshort := hle_m.trans_lt hless
  exact clampBetween_eq_ok.2 ⟨_, _, _, nearestQuotient_of_hasQuotient hgrid hquotient,
    lowered_of_le (hshort.le.trans hle), raised_of_lt hshort hm, by omega⟩

/-- Steps that pass a higher limit do so again from this limit. -/
theorem lt_below_again (hgrid : 0 < grid) (hle : low ≤ high)
    (habove : Lowered Quantity grid high q above) (hbelow : Raised Quantity grid low above below)
    (hpassed : high < below) {q' above' below' : ℤ}
    (hq' : Arithmetic.nearestQuotient (.whole high : Quantity) grid = .ok q')
    (habove' : Lowered Quantity grid high q' above')
    (hbelow' : Raised Quantity grid low above' below') : high < below' := by
  rcases lt_or_ge above low with hless | hge
  · -- the lower limit was raised past the higher one
    obtain ⟨m, hm, rfl⟩ := hbelow.of_lt hless
    rcases lt_or_ge above' low with hless' | hge'
    · obtain ⟨m', hm', rfl⟩ := hbelow'.of_lt hless'
      rwa [Except.ok.inj (hm'.symm.trans hm)]
    · rw [hbelow'.of_le hge']
      obtain ⟨-, hceil⟩ := (quotientWith_whole_iff hgrid).1 hm
      obtain ⟨j, hj, rfl⟩ := habove'.exists_holds (holds_of_quotientWith isRounding_nearestInt hq')
      have hmj : m ≤ j := hceil ▸ round_quotient_le isRounding_ceil hgrid hj hge'
      exact hpassed.trans_le (mul_grid_le hmj)
  · -- the higher limit has a multiple above it for its quotient
    rw [hbelow.of_le hge] at hpassed
    have hhigh : high < q * grid := by
      by_contra hnot
      rw [habove.of_le (not_lt.1 hnot)] at hpassed
      exact hnot hpassed
    obtain ⟨k, hk, rfl⟩ := habove.of_lt hhigh
    obtain ⟨-, hfloor⟩ := (quotientWith_whole_iff hgrid).1 hk
    obtain ⟨-, hnearest⟩ := (quotientWith_whole_iff hgrid).1 hq'
    have hkq : k ≤ q' := by
      rw [← hfloor, ← hnearest]
      exact le_nearestInt (Rat.floor_le _)
    obtain ⟨k', hk', rfl⟩ := habove'.of_lt (hpassed.trans_le (mul_grid_le hkq))
    obtain rfl : k' = k := Except.ok.inj (hk'.symm.trans hk)
    rwa [hbelow'.of_le (hle.trans hpassed.le)]

/-- **Clamping again** changes nothing. -/
theorem clampBetween_again (hgrid : 0 < grid) (hlow : 0 ≤ low) {x : Quantity}
    (h : clampBetween grid low high x = .ok r) :
    clampBetween grid low high (.whole r : Quantity) = .ok r := by
  obtain ⟨q, above, below, hquotient, habove, hbelow, hr⟩ := clampBetween_eq_ok.1 h
  have hq : Holds q := holds_of_quotientWith isRounding_nearestInt hquotient
  have hlowq := hasQuotient_low hgrid hlow hq habove hbelow
  rcases lt_or_ge high low with hinverted | hle
  · -- whatever the steps give ends at the lower limit
    have hhighq := hasQuotient_high hgrid hlow hq habove hbelow (Or.inl hinverted)
    obtain rfl : r = low := by omega
    obtain ⟨above', below', habove', hbelow'⟩ :=
      exists_steps_of_hasQuotient hgrid (nearestInt (nearestValue (r / grid))) hlowq hhighq
    exact clampBetween_eq_ok.2 ⟨_, above', below', nearestQuotient_of_hasQuotient hgrid hlowq,
      habove', hbelow', by omega⟩
  rcases lt_or_ge high below with hpassed | hbelow_le
  · obtain rfl : r = high := by omega
    have hhighq := hasQuotient_high hgrid hlow hq habove hbelow (Or.inr hpassed)
    obtain ⟨above', below', habove', hbelow'⟩ :=
      exists_steps_of_hasQuotient hgrid (nearestInt (nearestValue (r / grid))) hlowq hhighq
    have hquotient' := nearestQuotient_of_hasQuotient hgrid hhighq
    have hpassed' :=
      lt_below_again hgrid hle habove hbelow hpassed hquotient' habove' hbelow'
    exact clampBetween_eq_ok.2 ⟨_, above', below', hquotient', habove', hbelow', by omega⟩
  rcases lt_or_ge below low with hshort | hlow_le
  · obtain rfl : r = low := by omega
    have hless : above < r := by
      by_contra hnot
      rw [hbelow.of_le (not_lt.1 hnot)] at hshort
      exact hnot hshort
    obtain ⟨m, hm, rfl⟩ := hbelow.of_lt hless
    exact clampBetween_low hgrid hle hm hshort
  · obtain rfl : r = below := by omega
    obtain ⟨k, hk, rfl⟩ := hbelow.exists_holds (habove.exists_holds hq)
    exact clampBetween_multiple hgrid hk hlow_le hbelow_le

end SchemaDiagram
