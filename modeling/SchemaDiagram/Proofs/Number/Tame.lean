/-
# Bounded quantities

Where all quantities that meet are bounded, every operation has a result, and the result is
bounded again.  NaN does no harm either, as long as it is not made an integer: it stays NaN.

* `Quantity.AtMost`, `Quantity.Tame` : a bounded quantity, and one that may also be NaN;
* `Quantity.combine_atMost`, `Quantity.combine_tame` : an operation with a bound;
* `Quantity.AtMost.add`, `Quantity.Tame.add` and their kin : arithmetic that succeeds;
* `Quantity.AtMost.nearestQuotient` : a bounded quantity can be put on a grid.
-/
import SchemaDiagram.Number.Arithmetic
import SchemaDiagram.Proofs.Number.Bounds

namespace SchemaDiagram

/-! ## Bounded quantities -/

namespace Quantity

/-- A quantity of magnitude at most `2 ^ k`: a whole number, or a finite double. -/
def AtMost (k : ℕ) : Quantity → Prop
  | .whole n => |n| ≤ 2 ^ k
  | .real x => x.AtMost k

/-- A quantity of magnitude at most `2 ^ k`, or NaN. -/
def Tame (k : ℕ) (q : Quantity) : Prop := q = .real .nan ∨ q.AtMost k

variable {x y : Quantity} {j k m : ℕ}

theorem AtMost.mono (h : x.AtMost j) (hjk : j ≤ k) : x.AtMost k := by
  cases x with
  | whole n => exact abs_le_pow_mono h hjk
  | real x => exact Binary64.AtMost.mono h hjk

theorem atMost_whole {n : ℤ} (h : |n| ≤ 2 ^ j) (hjk : j ≤ k) : (whole n).AtMost k :=
  abs_le_pow_mono h hjk

theorem AtMost.tame (h : x.AtMost k) : x.Tame k := Or.inr h

theorem Tame.mono (h : x.Tame j) (hjk : j ≤ k) : x.Tame k := h.imp id fun h => h.mono hjk

theorem AtMost.toBinary64 (h : x.AtMost k) (hk : k ≤ 1023) :
    Succeeds x.toBinary64 (Binary64.AtMost k) := by
  cases x with
  | whole n => exact Binary64.ofInt_atMost hk h
  | real x => exact .ok h

/-! ## Operations with a bound -/

variable {onWhole : ℤ → ℤ → ℤ} {onReal : Binary64 → Binary64 → Binary64}

/-- **An operation with a bound** on whole numbers and on doubles has one on quantities. -/
theorem combine_atMost (hj : j ≤ 1023) (hk : k ≤ 1023)
    (hwhole : ∀ a b : ℤ, |a| ≤ 2 ^ j → |b| ≤ 2 ^ k → |onWhole a b| ≤ 2 ^ m)
    (hreal : ∀ a b : Binary64, a.AtMost j → b.AtMost k → (onReal a b).AtMost m)
    (hx : x.AtMost j) (hy : y.AtMost k) :
    Succeeds (combine onWhole onReal x y) (AtMost m) := by
  cases x with
  | whole a =>
    cases y with
    | whole b => exact .ok (hwhole a b hx hy)
    | real b => exact (Binary64.ofInt_atMost hj hx).bind fun a' ha => .ok (hreal a' b ha hy)
  | real a =>
    cases y with
    | whole b => exact (Binary64.ofInt_atMost hk hy).bind fun b' hb => .ok (hreal a b' hx hb)
    | real b => exact .ok (hreal a b hx hy)

/-- An operation that keeps NaN has a result on tame quantities, too. -/
theorem combine_tame (hj : j ≤ 1023) (hk : k ≤ 1023)
    (hwhole : ∀ a b : ℤ, |a| ≤ 2 ^ j → |b| ≤ 2 ^ k → |onWhole a b| ≤ 2 ^ m)
    (hreal : ∀ a b : Binary64, a.AtMost j → b.AtMost k → (onReal a b).AtMost m)
    (hnan : ∀ a : Binary64, onReal .nan a = .nan ∧ onReal a .nan = .nan)
    (hx : x.Tame j) (hy : y.Tame k) : Succeeds (combine onWhole onReal x y) (Tame m) := by
  rcases hx with rfl | hx
  · cases y with
    | real b => exact .ok (Or.inl (congrArg real (hnan b).1))
    | whole b =>
      have hb := hy.resolve_left (fun h => nomatch h)
      exact (Binary64.ofInt_atMost hk hb).bind fun b' _ => .ok (Or.inl (congrArg real (hnan b').1))
  · rcases hy with rfl | hy
    · cases x with
      | real a => exact .ok (Or.inl (congrArg real (hnan a).2))
      | whole a =>
        exact (Binary64.ofInt_atMost hj hx).bind fun a' _ =>
          .ok (Or.inl (congrArg real (hnan a').2))
    · exact (combine_atMost hj hk hwhole hreal hx hy).mono fun z hz => hz.tame

/-! ## Arithmetic that succeeds -/

theorem AtMost.add (hx : x.AtMost j) (hy : y.AtMost k) (hj : j < m) (hk : k < m)
    (hm : m ≤ 1023) : Succeeds (x.add y) (AtMost m) :=
  combine_atMost (by omega) (by omega) (fun _ _ ha hb => abs_add_le_pow ha hb hj hk)
    (fun _ _ ha hb => ha.add hb hj hk hm) hx hy

theorem Tame.add (hx : x.Tame j) (hy : y.Tame k) (hj : j < m) (hk : k < m) (hm : m ≤ 1023) :
    Succeeds (x.add y) (Tame m) :=
  combine_tame (by omega) (by omega) (fun _ _ ha hb => abs_add_le_pow ha hb hj hk)
    (fun _ _ ha hb => ha.add hb hj hk hm) (fun a => ⟨rfl, by cases a <;> rfl⟩) hx hy

theorem Tame.sub (hx : x.Tame j) (hy : y.Tame k) (hj : j < m) (hk : k < m) (hm : m ≤ 1023) :
    Succeeds (x.sub y) (Tame m) :=
  combine_tame (by omega) (by omega) (fun _ _ ha hb => abs_sub_le_pow ha hb hj hk)
    (fun _ _ ha hb => ha.sub hb hj hk hm) (fun a => ⟨rfl, by cases a <;> rfl⟩) hx hy

theorem AtMost.mul (hx : x.AtMost j) (hy : y.AtMost k) (h : j + k ≤ m) (hm : m ≤ 1023) :
    Succeeds (x.mul y) (AtMost m) :=
  combine_atMost (by omega) (by omega) (fun _ _ ha hb => abs_mul_le_pow ha hb h)
    (fun _ _ ha hb => ha.mul hb h hm) hx hy

theorem Tame.neg (hx : x.Tame k) : x.neg.Tame k := by
  rcases hx with rfl | hx
  · exact Or.inl rfl
  · refine Or.inr ?_
    cases x with
    | whole n =>
      show |-n| ≤ 2 ^ k
      rw [abs_neg]
      exact hx
    | real x => exact Binary64.AtMost.neg hx

theorem Tame.abs (hx : x.Tame k) : x.abs.Tame k := by
  rcases hx with rfl | hx
  · exact Or.inl rfl
  · refine Or.inr ?_
    cases x with
    | whole n =>
      show |(n.natAbs : ℤ)| ≤ 2 ^ k
      rw [Int.natCast_natAbs, abs_abs]
      exact hx
    | real x => exact Binary64.AtMost.abs hx

/-- The distance of two tame coordinates. -/
theorem Tame.distance (hx : x.Tame j) (hy : y.Tame k) (hj : j < m) (hk : k < m)
    (hm : m ≤ 1023) : Succeeds (Arithmetic.distance x y) (Tame m) :=
  (hx.sub hy hj hk hm).bind fun _ hz => .ok hz.abs

/-- The greater of two tame coordinates is tame. -/
theorem Tame.larger (hx : x.Tame k) (hy : y.Tame k) : (Arithmetic.larger x y).Tame k := by
  rw [Arithmetic.larger]
  split
  · exact hy
  · exact hx

/-- A bounded coordinate is never replaced by NaN. -/
theorem AtMost.larger (hx : x.AtMost k) (hy : y.Tame k) : (Arithmetic.larger x y).AtMost k := by
  rw [Arithmetic.larger]
  rcases hy with rfl | hy
  · have hlt : Arithmetic.lt x (.real .nan) = false := by
      cases x with
      | whole n => rfl
      | real x => cases x <;> rfl
    rw [hlt, if_neg Bool.false_ne_true]
    exact hx
  · split
    · exact hy
    · exact hx

/-! ## Quotients -/

variable {n : ℕ}

theorem AtMost.dividedBy (hx : x.AtMost k) (hk : k ≤ 1023) (hn : 0 < n) (hlarge : n ≤ 2 ^ j)
    (hj : j ≤ 1023) : Succeeds (x.dividedBy n) (Binary64.AtMost k) := by
  cases x with
  | real x => exact (Binary64.AtMost.div hk hj hx hn hlarge).bind fun y hy => .ok hy
  | whole a =>
    have hquotient : (a.natAbs : ℚ) / (n : ℚ) ≤ 2 ^ k := by
      have habs : (a.natAbs : ℚ) ≤ 2 ^ k := by
        have ha : |a| ≤ 2 ^ k := hx
        rw [← Int.natCast_natAbs] at ha
        exact_mod_cast ha
      have hone : (1 : ℚ) ≤ n := by
        exact_mod_cast hn
      exact (div_le_self (Nat.cast_nonneg a.natAbs) hone).trans habs
    obtain ⟨place, hround, hplace⟩ := Binary64.exists_roundMagnitude hk
      (div_nonneg (Nat.cast_nonneg a.natAbs) (Nat.cast_nonneg n)) hquotient (a < 0)
    refine ⟨.finite (a < 0) place, ?_, hplace⟩
    rw [Quantity.dividedBy, hround]

/-- Half of a tame coordinate. -/
theorem Tame.half (hx : x.Tame k) (hk : k ≤ 1023) : Succeeds (Arithmetic.half x) (Tame k) := by
  rcases hx with rfl | hx
  · have hdivisor : |((2 : ℕ) : ℤ)| ≤ 2 ^ 1 := le_refl _
    have hquotient : Succeeds ((real .nan).dividedBy 2) (· = .nan) :=
      (Binary64.ofInt_atMost (by omega) hdivisor).bind fun y _ => .ok rfl
    exact hquotient.bind fun y hy => .ok (Or.inl (congrArg real hy))
  · exact (hx.dividedBy hk two_pos (j := 1) (le_refl 2) (by omega)).bind fun y hy => .ok (Or.inr hy)

/-- **A bounded quantity** can be put on a grid. -/
theorem AtMost.nearestQuotient (hx : x.AtMost k) (hk : k ≤ 1023) (hn : 0 < n)
    (hlarge : n ≤ 2 ^ j) (hj : j ≤ 1023) :
    Succeeds (Arithmetic.nearestQuotient x n) fun q => |q| ≤ 2 ^ k := by
  refine (hx.dividedBy hk hn hlarge hj).bind fun y hy => hy.toIntWith fun r hr => ?_
  rw [abs_le] at hr ⊢
  constructor
  · refine le_nearestInt ?_
    push_cast
    exact hr.1
  · refine nearestInt_le ?_
    push_cast
    exact hr.2

/-- Any rounding of the quotient of a bounded whole number succeeds. -/
theorem quotientWith_whole {a : ℤ} (ha : |a| ≤ 2 ^ k) (hk : k ≤ 1023) (hn : 0 < n)
    (hlarge : n ≤ 2 ^ j) (hj : j ≤ 1023) (round : ℚ → ℤ) :
    Succeeds (quotientWith round (.whole a) n) fun _ => True := by
  have hx : (Quantity.whole a).AtMost k := ha
  exact (hx.dividedBy hk hn hlarge hj).bind fun y hy => hy.toIntWith fun _ _ => trivial

/-- A tame quantity has a text. -/
theorem Tame.briefText (hx : x.Tame k) (hk : k ≤ 1023) :
    Succeeds x.briefText fun _ => True := by
  rcases hx with rfl | hx
  · exact .ok trivial
  · exact (hx.toBinary64 hk).bind fun y _ => .ok trivial

end Quantity

end SchemaDiagram
