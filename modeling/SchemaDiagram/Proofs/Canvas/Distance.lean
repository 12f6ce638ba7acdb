/-
# The overlap test is a distance

Over exact numbers, two boxes overlap at a positive spacing exactly when some points of them, their
borders included, differ by less than the spacing in both directions.  What is plain for points then
holds of the test: the order of the boxes does not matter, nor where on the canvas they stand, and
more spacing or more fields never bring an overlap to an end.

* `Box.Covers`, `Box.Near` : the points of a box, and boxes with points that are near;
* `exists_stretch_points` : two stretches in one direction;
* `Box.near_iff` : boxes are near exactly when no side separates them;
* `Box.overlaps_iff_near` : the overlap test decides whether boxes are near.
-/
import SchemaDiagram.Proofs.Connector.Clearance

namespace SchemaDiagram

/-! ## Stretches -/

/-- Points of two stretches in one direction differ by less than a positive spacing exactly when
each stretch begins before the other one ends, padded by the spacing. -/
theorem exists_stretch_points {u l v k s : ℝ} (hl : 0 ≤ l) (hk : 0 ≤ k) (hs : 0 < s) :
    (∃ p q, (u ≤ p ∧ p ≤ u + l) ∧ (v ≤ q ∧ q ≤ v + k) ∧ |p - q| < s) ↔
      u < v + k + s ∧ v < u + l + s := by
  constructor
  · rintro ⟨p, q, ⟨hup, hpu⟩, ⟨hvq, hqv⟩, hpq⟩
    obtain ⟨hlow, hhigh⟩ := abs_lt.1 hpq
    constructor
    · linarith
    · linarith
  · rintro ⟨huv, hvu⟩
    rcases le_total u v with hle | hle
    · -- the second stretch begins later: its start, and what of the first one is nearest to that
      refine ⟨min v (u + l), v, ⟨le_min hle (by linarith), min_le_right _ _⟩,
        ⟨le_rfl, by linarith⟩, ?_⟩
      rcases min_cases v (u + l) with ⟨hmin, -⟩ | ⟨hmin, hless⟩
      · rw [hmin, sub_self, abs_zero]
        exact hs
      · rw [hmin, abs_sub_lt_iff]
        constructor
        · linarith
        · linarith
    · refine ⟨u, min u (v + k), ⟨le_rfl, by linarith⟩,
        ⟨le_min hle (by linarith), min_le_right _ _⟩, ?_⟩
      rcases min_cases u (v + k) with ⟨hmin, -⟩ | ⟨hmin, hless⟩
      · rw [hmin, sub_self, abs_zero]
        exact hs
      · rw [hmin, abs_sub_lt_iff]
        constructor
        · linarith
        · linarith

namespace Box

/-! ## Boxes that are near -/

/-- The points of the plane that a box covers, its border included. -/
def Covers (m : Metrics) (b : Box Rat) (r : Point ℝ) : Prop :=
  (b.corner.x ≤ r.x ∧ r.x ≤ b.corner.x + m.width) ∧
    b.corner.y ≤ r.y ∧ r.y ≤ b.corner.y + m.tableHeight b.fieldCount

/-- Some points of two boxes differ by less than a spacing in both directions. -/
def Near (m : Metrics) (spacing : Rat) (a b : Box Rat) : Prop :=
  ∃ p q : Point ℝ, a.Covers m p ∧ b.Covers m q ∧ |p.x - q.x| < spacing ∧ |p.y - q.y| < spacing

/-- A box that is moved. -/
def translate (d : Point Rat) (b : Box Rat) : Box Rat :=
  ⟨⟨b.corner.x + d.x, b.corner.y + d.y⟩, b.fieldCount⟩

/-- A box with the same corner and no fewer fields. -/
def Grows (b b' : Box Rat) : Prop := b'.corner = b.corner ∧ b.fieldCount ≤ b'.fieldCount

variable {m : Metrics} {spacing : Rat} {a b : Box Rat}

/-- **Boxes are near** exactly when no side separates them. -/
theorem near_iff (hspacing : 0 < spacing) : Near m spacing a b ↔ ¬ Separated m spacing a b := by
  have hs : (0 : ℝ) < spacing := by exact_mod_cast hspacing
  have hwidth : (0 : ℝ) ≤ m.width := Nat.cast_nonneg _
  have hheight : ∀ n, (0 : ℝ) ≤ m.tableHeight n := fun n => Nat.cast_nonneg _
  have hacross := exists_stretch_points (u := a.corner.x) (v := b.corner.x) hwidth hwidth hs
  have hdown := exists_stretch_points (u := a.corner.y) (v := b.corner.y)
    (hheight a.fieldCount) (hheight b.fieldCount) hs
  have hsplit : Near m spacing a b ↔
      (∃ p q : ℝ, (a.corner.x ≤ p ∧ p ≤ a.corner.x + m.width) ∧
        (b.corner.x ≤ q ∧ q ≤ b.corner.x + m.width) ∧ |p - q| < spacing) ∧
      ∃ p q : ℝ, (a.corner.y ≤ p ∧ p ≤ a.corner.y + m.tableHeight a.fieldCount) ∧
        (b.corner.y ≤ q ∧ q ≤ b.corner.y + m.tableHeight b.fieldCount) ∧ |p - q| < spacing := by
    constructor
    · rintro ⟨p, q, ⟨hpx, hpy⟩, ⟨hqx, hqy⟩, hx, hy⟩
      exact ⟨⟨p.x, q.x, hpx, hqx, hx⟩, ⟨p.y, q.y, hpy, hqy, hy⟩⟩
    · rintro ⟨⟨px, qx, hpx, hqx, hx⟩, ⟨py, qy, hpy, hqy, hy⟩⟩
      exact ⟨⟨px, py⟩, ⟨qx, qy⟩, ⟨hpx, hpy⟩, ⟨hqx, hqy⟩, hx, hy⟩
  rw [hsplit, hacross, hdown]
  unfold Separated
  push Not
  norm_cast

/-- Nearness does not depend on the order of the boxes. -/
theorem Near.symm (h : Near m spacing a b) : Near m spacing b a := by
  obtain ⟨p, q, hp, hq, hx, hy⟩ := h
  refine ⟨q, p, hq, hp, ?_, ?_⟩
  · rwa [abs_sub_comm]
  · rwa [abs_sub_comm]

/-- Boxes that are near stay so when both are moved. -/
theorem Near.translate (h : Near m spacing a b) (d : Point Rat) :
    Near m spacing (a.translate d) (b.translate d) := by
  have hcovers : ∀ {c : Box Rat} {r : Point ℝ}, c.Covers m r →
      (c.translate d).Covers m ⟨r.x + d.x, r.y + d.y⟩ := by
    intro c r hr
    obtain ⟨⟨hleft, hright⟩, htop, hbottom⟩ := hr
    simp only [Covers, Box.translate]
    push_cast
    refine ⟨⟨?_, ?_⟩, ?_, ?_⟩ <;> linarith
  obtain ⟨p, q, hp, hq, hx, hy⟩ := h
  refine ⟨_, _, hcovers hp, hcovers hq, ?_, ?_⟩
  · simpa using hx
  · simpa using hy

/-- Moving two boxes together makes no difference to whether they are near. -/
theorem near_translate_iff (d : Point Rat) :
    Near m spacing (a.translate d) (b.translate d) ↔ Near m spacing a b := by
  constructor
  · intro h
    have hback := h.translate ⟨-d.x, -d.y⟩
    simpa [Box.translate] using hback
  · intro h
    exact h.translate d

/-- A box that grows covers what it covered. -/
theorem Covers.grows {a' : Box Rat} {r : Point ℝ} (h : a.Covers m r) (hgrows : Grows a a') :
    a'.Covers m r := by
  obtain ⟨hcorner, hcount⟩ := hgrows
  have hheight : (m.tableHeight a.fieldCount : ℝ) ≤ m.tableHeight a'.fieldCount := by
    unfold Metrics.tableHeight
    exact_mod_cast Nat.add_le_add_left (Nat.mul_le_mul_right _ hcount) _
  obtain ⟨hacross, htop, hbottom⟩ := h
  unfold Covers
  rw [hcorner]
  exact ⟨hacross, htop, by linarith⟩

/-- Boxes that are near stay so at a greater spacing, and when they grow. -/
theorem Near.mono {more : Rat} {a' b' : Box Rat} (h : Near m spacing a b) (hmore : spacing ≤ more)
    (ha : Grows a a') (hb : Grows b b') : Near m more a' b' := by
  have hmore : (spacing : ℝ) ≤ more := by exact_mod_cast hmore
  obtain ⟨p, q, hp, hq, hx, hy⟩ := h
  exact ⟨p, q, hp.grows ha, hq.grows hb, hx.trans_le hmore, hy.trans_le hmore⟩

/-! ## The overlap test -/

/-- The overlap test at a positive spacing holds exactly when the boxes are near. -/
theorem overlaps_eq_true_iff (hspacing : 0 < spacing) :
    overlaps m spacing a b = .ok true ↔ Near m spacing a b := by
  rw [overlaps_exact, Except.ok.injEq, decide_eq_true_iff, near_iff hspacing]

/-- Boxes that are near exactly when two others are get the answer of these. -/
theorem overlaps_congr {a' b' : Box Rat} (hspacing : 0 < spacing)
    (h : Near m spacing a b ↔ Near m spacing a' b') :
    overlaps m spacing a b = overlaps m spacing a' b' := by
  rw [near_iff hspacing, near_iff hspacing] at h
  rw [overlaps_exact, overlaps_exact, decide_eq_decide.2 h]

/-- **The overlap test means distance**: it holds exactly when some points of the boxes differ by
less than the spacing in both directions.  So it does not depend on the order of the boxes or on
where they stand together, and it goes on to hold at every greater spacing and for boxes that
grow. -/
theorem overlaps_iff_near (m : Metrics) {spacing : Rat} (hspacing : 0 < spacing) (a b : Box Rat) :
    (∃ answer, overlaps m spacing a b = .ok answer ∧ (answer = true ↔ Near m spacing a b)) ∧
    overlaps m spacing b a = overlaps m spacing a b ∧
    (∀ d, overlaps m spacing (a.translate d) (b.translate d) = overlaps m spacing a b) ∧
    (overlaps m spacing a b = .ok true → ∀ more a' b', spacing ≤ more → Grows a a' → Grows b b' →
      overlaps m more a' b' = .ok true) := by
  refine ⟨?_, ?_, ?_, ?_⟩
  · refine ⟨_, overlaps_exact m spacing a b, ?_⟩
    rw [decide_eq_true_iff, near_iff hspacing]
  · exact overlaps_congr hspacing ⟨Near.symm, Near.symm⟩
  · intro d
    exact overlaps_congr hspacing (near_translate_iff d)
  · intro h more a' b' hmore ha hb
    have hnear := (overlaps_eq_true_iff hspacing).1 h
    exact (overlaps_eq_true_iff (hspacing.trans_le hmore)).2 (hnear.mono hmore ha hb)

/-- Two boxes of different heights, corner to corner: the lower one of them stands to the right of
the higher one, and they overlap at a spacing that is half a unit more than the gaps. -/
theorem overlaps_iff_near_corners :
    (0 : Rat) < 81 / 2 ∧
      overlaps Config.default.metrics (81 / 2 : Rat) ⟨⟨0, 0⟩, 3⟩ ⟨⟨240, 153⟩, 1⟩ = .ok true ∧
      Near Config.default.metrics (81 / 2) ⟨⟨0, 0⟩, 3⟩ ⟨⟨240, 153⟩, 1⟩ ∧
      overlaps Config.default.metrics (81 / 2 : Rat) ⟨⟨240, 153⟩, 1⟩ ⟨⟨0, 0⟩, 3⟩ = .ok true := by
  have hspacing : (0 : Rat) < 81 / 2 := by norm_num
  have hoverlaps : overlaps Config.default.metrics (81 / 2 : Rat) ⟨⟨0, 0⟩, 3⟩ ⟨⟨240, 153⟩, 1⟩ =
      .ok true := by decide +kernel
  obtain ⟨⟨answer, hanswer, hnear⟩, hsymm, -, -⟩ :=
    overlaps_iff_near Config.default.metrics hspacing ⟨⟨0, 0⟩, 3⟩ ⟨⟨240, 153⟩, 1⟩
  rw [hoverlaps, Except.ok.injEq] at hanswer
  exact ⟨hspacing, hoverlaps, hnear.1 hanswer.symm, hsymm.trans hoverlaps⟩

end Box

end SchemaDiagram
