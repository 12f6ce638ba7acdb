/-
# Positions inside the canvas

A coordinate is clamped in three steps: it is brought to the nearest multiple of the grid size, this
is lowered when it passes the higher limit, and then raised when it falls short of the lower one.
What is still beyond a limit ends there, so whatever coordinate is clamped, the result lies between
the limits, the lower one first.

* `Lowered`, `Raised` : the second and the third step;
* `clampBetween_eq_ok`, `Config.clamp_eq_ok` : a clamped coordinate as the result of the steps, and
  a clamped position;
* `Config.Within` : a position between the limits for a number of fields;
* `Config.clamp_within` : a clamped position is one.
-/
import Mathlib.Data.Int.Order.Basic
import SchemaDiagram.Canvas.Grid
import SchemaDiagram.Proofs.Outcome

namespace SchemaDiagram

variable {α : Type} [Arithmetic α] {grid : ℕ} {low high r q above below : ℤ}

/-! ## The steps of clamping -/

/-- The multiple that is used when the nearest one, of factor `q`, may be too high. -/
def Lowered (α : Type) [Arithmetic α] (grid : ℕ) (high q above : ℤ) : Prop :=
  if high < q * grid then ∃ k, Arithmetic.floorQuotient α high grid = .ok k ∧ k * grid = above
  else q * grid = above

/-- The multiple that is used when the one before may be too low. -/
def Raised (α : Type) [Arithmetic α] (grid : ℕ) (low above below : ℤ) : Prop :=
  if above < low then ∃ k, Arithmetic.ceilQuotient α low grid = .ok k ∧ k * grid = below
  else above = below

theorem lowered_of_le (h : q * grid ≤ high) : Lowered α grid high q (q * grid) := by
  rw [Lowered, if_neg (not_lt.2 h)]

theorem lowered_of_lt (h : high < q * grid) {k : ℤ}
    (hk : Arithmetic.floorQuotient α high grid = .ok k) : Lowered α grid high q (k * grid) := by
  rw [Lowered, if_pos h]
  exact ⟨k, hk, rfl⟩

theorem Lowered.of_le (hlowered : Lowered α grid high q above) (h : q * grid ≤ high) :
    above = q * grid := by
  rw [Lowered, if_neg (not_lt.2 h)] at hlowered
  exact hlowered.symm

theorem Lowered.of_lt (hlowered : Lowered α grid high q above) (h : high < q * grid) :
    ∃ k, Arithmetic.floorQuotient α high grid = .ok k ∧ k * grid = above := by
  rwa [Lowered, if_pos h] at hlowered

theorem raised_of_le (h : low ≤ above) : Raised α grid low above above := by
  rw [Raised, if_neg (not_lt.2 h)]

theorem raised_of_lt (h : above < low) {k : ℤ}
    (hk : Arithmetic.ceilQuotient α low grid = .ok k) : Raised α grid low above (k * grid) := by
  rw [Raised, if_pos h]
  exact ⟨k, hk, rfl⟩

theorem Raised.of_le (hraised : Raised α grid low above below) (h : low ≤ above) :
    below = above := by
  rw [Raised, if_neg (not_lt.2 h)] at hraised
  exact hraised.symm

theorem Raised.of_lt (hraised : Raised α grid low above below) (h : above < low) :
    ∃ k, Arithmetic.ceilQuotient α low grid = .ok k ∧ k * grid = below := by
  rwa [Raised, if_pos h] at hraised

/-- A multiple that an arithmetic step computes. -/
theorem multiple_eq_ok {x : Except ArithmeticFault ℤ} {n : ℤ} :
    (· * (grid : ℤ)) <$> x = .ok n ↔ ∃ k, x = .ok k ∧ k * grid = n :=
  map_eq_ok

theorem toGrid_eq_ok {value : α} {n : ℤ} :
    toGrid grid value = .ok n ↔
      ∃ k, Arithmetic.nearestQuotient value grid = .ok k ∧ k * grid = n := by
  rw [toGrid, bind_eq_ok]
  simp only [pure_eq_ok]

/-- The second step gives the multiple that is used. -/
theorem lowered_iff {q : ℤ} :
    (if high < q * grid then (· * (grid : ℤ)) <$> Arithmetic.floorQuotient α high grid
      else pure (q * (grid : ℤ))) = .ok above ↔ Lowered α grid high q above := by
  rw [Lowered]
  split
  · exact multiple_eq_ok
  · exact pure_eq_ok

/-- The third step gives the multiple that is used. -/
theorem raised_iff :
    (if above < low then (· * (grid : ℤ)) <$> Arithmetic.ceilQuotient α low grid
      else pure above) = .ok below ↔ Raised α grid low above below := by
  rw [Raised]
  split
  · exact multiple_eq_ok
  · exact pure_eq_ok

/-- Clamping is three steps in a row, whichever multiples they use. -/
theorem clampBetween_steps (value : α) :
    clampBetween grid low high value = (do
      let snapped ← toGrid grid value
      let above ← (if high < snapped then (· * (grid : ℤ)) <$> Arithmetic.floorQuotient α high grid
        else pure snapped : Except ArithmeticFault ℤ)
      let below ← (if above < low then (· * (grid : ℤ)) <$> Arithmetic.ceilQuotient α low grid
        else pure above : Except ArithmeticFault ℤ)
      pure (min (max below low) (max low high))) := by
  have hlast : ∀ above : ℤ, (if above < low then do
        let below ← (· * (grid : ℤ)) <$> Arithmetic.ceilQuotient α low grid
        pure (min (max below low) (max low high))
      else do
        let below ← pure above
        pure (min (max below low) (max low high)) : Except ArithmeticFault ℤ) = (do
      let below ← (if above < low then (· * (grid : ℤ)) <$> Arithmetic.ceilQuotient α low grid
        else pure above : Except ArithmeticFault ℤ)
      pure (min (max below low) (max low high))) := by
    intro above
    split <;> rfl
  rw [clampBetween]
  refine bind_congr fun snapped => ?_
  simp only [hlast]
  split <;> rfl

/-- **A clamped coordinate** is a multiple that is lowered and raised, or the limit it passes. -/
theorem clampBetween_eq_ok {value : α} :
    clampBetween grid low high value = .ok r ↔
      ∃ q above below, Arithmetic.nearestQuotient value grid = .ok q ∧
        Lowered α grid high q above ∧ Raised α grid low above below ∧
        min (max below low) (max low high) = r := by
  rw [clampBetween_steps]
  constructor
  · intro h
    obtain ⟨snapped, hsnapped, h⟩ := bind_eq_ok.1 h
    obtain ⟨q, hq, rfl⟩ := toGrid_eq_ok.1 hsnapped
    obtain ⟨above, habove, h⟩ := bind_eq_ok.1 h
    obtain ⟨below, hbelow, hr⟩ := bind_eq_ok.1 h
    exact ⟨q, above, below, hq, lowered_iff.1 habove, raised_iff.1 hbelow, pure_eq_ok.1 hr⟩
  · rintro ⟨q, above, below, hq, habove, hbelow, hr⟩
    refine bind_eq_ok.2 ⟨_, toGrid_eq_ok.2 ⟨q, hq, rfl⟩, ?_⟩
    refine bind_eq_ok.2 ⟨above, lowered_iff.2 habove, ?_⟩
    exact bind_eq_ok.2 ⟨below, raised_iff.2 hbelow, pure_eq_ok.2 hr⟩

/-- A multiple between the limits is where its coordinate is clamped to. -/
theorem clampBetween_of_between {value : α}
    (hq : Arithmetic.nearestQuotient value grid = .ok q) (hlow : low ≤ q * grid)
    (hhigh : q * grid ≤ high) : clampBetween grid low high value = .ok (q * grid) :=
  clampBetween_eq_ok.2 ⟨q, _, _, hq, lowered_of_le hhigh, raised_of_le hlow, by omega⟩

/-- Where both limits have quotients, the steps can be made. -/
theorem exists_steps (q : ℤ) (hfloor : ∃ k, Arithmetic.floorQuotient α high grid = .ok k)
    (hceil : ∃ k, Arithmetic.ceilQuotient α low grid = .ok k) :
    ∃ above below, Lowered α grid high q above ∧ Raised α grid low above below := by
  obtain ⟨above, habove⟩ : ∃ above, Lowered α grid high q above := by
    rcases lt_or_ge high (q * grid) with h | h
    · obtain ⟨k, hk⟩ := hfloor
      exact ⟨_, lowered_of_lt h hk⟩
    · exact ⟨_, lowered_of_le h⟩
  obtain ⟨below, hbelow⟩ : ∃ below, Raised α grid low above below := by
    rcases lt_or_ge above low with h | h
    · obtain ⟨k, hk⟩ := hceil
      exact ⟨_, raised_of_lt h hk⟩
    · exact ⟨_, raised_of_le h⟩
  exact ⟨above, below, habove, hbelow⟩

/-- A position is clamped in each direction. -/
theorem Config.clamp_eq_ok {c : Config} {fieldCount : ℕ} {p : Point α} {r : Point ℤ} :
    c.clamp fieldCount p = .ok r ↔
      clampBetween c.layout.gridSize c.bounds.anchor.x (c.farLimit fieldCount).x p.x = .ok r.x ∧
        clampBetween c.layout.gridSize c.bounds.anchor.y (c.farLimit fieldCount).y p.y =
          .ok r.y := by
  rw [Config.clamp]
  constructor
  · intro h
    obtain ⟨x, hx, h⟩ := bind_eq_ok.1 h
    obtain ⟨y, hy, h⟩ := bind_eq_ok.1 h
    rw [← pure_eq_ok.1 h]
    exact ⟨hx, hy⟩
  · rintro ⟨hx, hy⟩
    exact bind_eq_ok.2 ⟨_, hx, bind_eq_ok.2 ⟨_, hy, rfl⟩⟩

/-! ## Between the limits -/

/-- A whole coordinate between two limits, of which the lower one counts first. -/
def Within (low high r : Int) : Prop := low ≤ r ∧ r ≤ max low high

/-- A position of a table with the given number of fields is between the limits of the canvas. -/
structure Config.Within (c : Config) (fieldCount : Nat) (p : Point Int) : Prop where
  x : SchemaDiagram.Within c.bounds.anchor.x (c.farLimit fieldCount).x p.x
  y : SchemaDiagram.Within c.bounds.anchor.y (c.farLimit fieldCount).y p.y

/-- A clamped coordinate lies between the limits. -/
theorem clampBetween_within {value : α} (h : clampBetween grid low high value = .ok r) :
    Within low high r := by
  obtain ⟨q, above, below, -, -, -, hr⟩ := clampBetween_eq_ok.1 h
  unfold Within
  omega

/-- A clamped position lies between the limits. -/
theorem Config.clamp_within {c : Config} {fieldCount : Nat} {p : Point α} {r : Point Int}
    (h : c.clamp fieldCount p = .ok r) : c.Within fieldCount r := by
  obtain ⟨hx, hy⟩ := clamp_eq_ok.1 h
  exact ⟨clampBetween_within hx, clampBetween_within hy⟩

end SchemaDiagram
