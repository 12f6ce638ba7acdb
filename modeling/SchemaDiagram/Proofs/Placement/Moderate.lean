/-
# Settings that are far from overflow

With moderate settings, the dimensions that are derived from them are bounded: the limits of the
canvas, the distances between tables, and the points that are tried first and last.

* `Config.Moderate`, `Config.moderate_default` : settings that are far from overflow, as the defaults
  are;
* `Config.anchor_le`, `Config.farLimit_le`, `Config.randomSpan_le` : the region that is used;
* `Config.tableHeight_le`, `Config.pitch_le` : the room that a table takes;
* `Config.slot_le`, `Config.lastResort_le` : slots and the place of last resort.
-/
import SchemaDiagram.Config.Settings
import SchemaDiagram.Placement.Allocate
import SchemaDiagram.Proofs.Number.Bounds

namespace SchemaDiagram

/-! ## Moderate settings -/

/-- Settings that are far from overflow: no setting is greater than `2 ^ 200`, and there are no
more spiral probes than can be counted. -/
structure Config.Moderate (c : Config) : Prop where
  settings : ∀ s ∈ c.sections, ∀ e ∈ s.2, e.2 ≤ 2 ^ 200
  probes : c.layout.maxSpiralAttempts ≤ maxProbes

instance (c : Config) : Decidable c.Moderate :=
  decidable_of_iff ((∀ s ∈ c.sections, ∀ e ∈ s.2, e.2 ≤ 2 ^ 200) ∧
    c.layout.maxSpiralAttempts ≤ Config.maxProbes) ⟨fun h => ⟨h.1, h.2⟩, fun h => ⟨h.1, h.2⟩⟩

theorem Config.moderate_default : Config.default.Moderate := by
  decide

namespace Config.Moderate

variable {c : Config}

/-- The settings of the bounds. -/
theorem bounds (hc : c.Moderate) :
    c.bounds.minX ≤ 2 ^ 200 ∧ c.bounds.minY ≤ 2 ^ 200 ∧ c.bounds.width ≤ 2 ^ 200 ∧
      c.bounds.height ≤ 2 ^ 200 ∧ c.bounds.padding ≤ 2 ^ 200 := by
  have h := hc.settings ("bounds", Setting.values Bounds.settings c.bounds) (by simp [sections])
  simpa [Setting.values, Bounds.settings] using h

/-- The settings of the metrics. -/
theorem metrics (hc : c.Moderate) :
    c.metrics.width ≤ 2 ^ 200 ∧ c.metrics.headerHeight ≤ 2 ^ 200 ∧
      c.metrics.fieldHeight ≤ 2 ^ 200 ∧ c.metrics.fieldCenterOffset ≤ 2 ^ 200 := by
  have h := hc.settings ("metrics", Setting.values Metrics.settings c.metrics)
    (by simp [sections])
  simpa [Setting.values, Metrics.settings] using h

/-- The settings of the layout that are used in sums. -/
theorem layout (hc : c.Moderate) :
    c.layout.gridSize ≤ 2 ^ 200 ∧ c.layout.tableSpacing ≤ 2 ^ 200 ∧
      c.layout.fallbackStep ≤ 2 ^ 200 := by
  have h := hc.settings ("layout", Setting.values LayoutSettings.settings c.layout)
    (by simp [sections])
  simp only [Setting.values, LayoutSettings.settings, List.map_cons, List.forall_mem_cons] at h
  exact ⟨h.1, h.2.1, h.2.2.2.2.2.2.2.2.1⟩

/-- The settings of the routing that are used in sums. -/
theorem routing (hc : c.Moderate) :
    c.routing.detourPadding ≤ 2 ^ 200 ∧ c.routing.curveRadius ≤ 2 ^ 200 ∧
      c.routing.endpointOffset ≤ 2 ^ 200 := by
  have h := hc.settings ("routing", Setting.values RoutingSettings.settings c.routing)
    (by simp [sections])
  simp only [Setting.values, RoutingSettings.settings, List.map_cons, List.forall_mem_cons] at h
  exact ⟨h.1, h.2.1, h.2.2.1⟩

end Config.Moderate

/-! ## Derived dimensions -/

namespace Config

variable {c : Config} {fieldCount index : ℕ}

theorem width_le (hc : c.Moderate) : |(c.metrics.width : ℤ)| ≤ 2 ^ 401 :=
  abs_le_pow_mono (abs_natCast_le_pow hc.metrics.1) (by omega)

theorem tableHeight_le (hc : c.Moderate) (hfields : fieldCount ≤ 2 ^ 200) :
    |((c.metrics.tableHeight fieldCount : ℕ) : ℤ)| ≤ 2 ^ 401 := by
  obtain ⟨-, hheader, hfield, -⟩ := hc.metrics
  have hrows : |(fieldCount : ℤ) * c.metrics.fieldHeight| ≤ 2 ^ 400 :=
    abs_mul_le_pow (abs_natCast_le_pow hfields) (abs_natCast_le_pow hfield) (by omega)
  rw [Metrics.tableHeight, Nat.cast_add, Nat.cast_mul]
  exact abs_add_le_pow (abs_natCast_le_pow hheader) hrows (by omega) (by omega)

theorem anchor_le (hc : c.Moderate) :
    |c.bounds.anchor.x| ≤ 2 ^ 201 ∧ |c.bounds.anchor.y| ≤ 2 ^ 201 := by
  obtain ⟨hx, hy, -, -, hpadding⟩ := hc.bounds
  have hcast : ∀ {a b : ℕ}, a ≤ 2 ^ 200 → b ≤ 2 ^ 200 → |(a : ℤ) + b| ≤ 2 ^ 201 :=
    fun ha hb => abs_add_le_pow (abs_natCast_le_pow ha) (abs_natCast_le_pow hb) (by omega)
      (by omega)
  exact ⟨hcast hx hpadding, hcast hy hpadding⟩

theorem farLimit_le (hc : c.Moderate) (hfields : fieldCount ≤ 2 ^ 200) :
    |(c.farLimit fieldCount).x| ≤ 2 ^ 404 ∧ |(c.farLimit fieldCount).y| ≤ 2 ^ 404 := by
  obtain ⟨hx, hy, hwidth, hheight, hpadding⟩ := hc.bounds
  have hcast : ∀ {a b e : ℕ} {d : ℤ}, a ≤ 2 ^ 200 → b ≤ 2 ^ 200 → |d| ≤ 2 ^ 401 → e ≤ 2 ^ 200 →
      |(a : ℤ) + b - d - e| ≤ 2 ^ 404 := by
    intro a b e d ha hb hd he
    have hab : |(a : ℤ) + b| ≤ 2 ^ 201 :=
      abs_add_le_pow (abs_natCast_le_pow ha) (abs_natCast_le_pow hb) (by omega) (by omega)
    have habd : |(a : ℤ) + b - d| ≤ 2 ^ 402 := abs_sub_le_pow hab hd (by omega) (by omega)
    exact abs_sub_le_pow habd (abs_natCast_le_pow he) (by omega) (by omega)
  exact ⟨hcast hx hwidth (width_le hc) hpadding,
    hcast hy hheight (tableHeight_le hc hfields) hpadding⟩

/-- The distances between slots. -/
theorem pitch_le (hc : c.Moderate) (hfields : fieldCount ≤ 2 ^ 200) :
    |(c.columnPitch : ℤ)| ≤ 2 ^ 402 ∧ |(c.rowPitch fieldCount : ℤ)| ≤ 2 ^ 402 := by
  obtain ⟨-, hspacing, -⟩ := hc.layout
  have hcast : ∀ {d : ℤ}, |d| ≤ 2 ^ 401 → |d + 2 * c.layout.tableSpacing| ≤ 2 ^ 402 := by
    intro d hd
    have hgap : |(2 : ℤ) * c.layout.tableSpacing| ≤ 2 ^ 201 :=
      abs_mul_le_pow (j := 1) (le_refl _) (abs_natCast_le_pow hspacing) (by omega)
    exact abs_add_le_pow hd hgap (by omega) (by omega)
  rw [columnPitch, rowPitch, Nat.cast_add, Nat.cast_add, Nat.cast_mul, Nat.cast_ofNat]
  exact ⟨hcast (width_le hc), hcast (tableHeight_le hc hfields)⟩

/-- The slot of a table among not too many. -/
theorem slot_le (hc : c.Moderate) (hfields : fieldCount ≤ 2 ^ 200) (hindex : index ≤ 2 ^ 200) :
    |(c.slot fieldCount index).x| ≤ 2 ^ 604 ∧ |(c.slot fieldCount index).y| ≤ 2 ^ 604 := by
  obtain ⟨hanchorX, hanchorY⟩ := anchor_le hc
  obtain ⟨hcolumn, hrow⟩ := pitch_le hc hfields
  have hcast : ∀ {a pitch : ℤ} {k : ℕ}, |a| ≤ 2 ^ 201 → k ≤ index → |pitch| ≤ 2 ^ 402 →
      |a + k * pitch| ≤ 2 ^ 604 := by
    intro a pitch k ha hk hpitch
    have hshift : |(k : ℤ) * pitch| ≤ 2 ^ 602 :=
      abs_mul_le_pow (abs_natCast_le_pow (hk.trans hindex)) hpitch (by omega)
    exact abs_add_le_pow ha hshift (by omega) (by omega)
  exact ⟨hcast hanchorX (Nat.mod_le index _) hcolumn, hcast hanchorY (Nat.div_le_self index _) hrow⟩

theorem lastResort_le (hc : c.Moderate) (hindex : index ≤ 2 ^ 200) :
    |(c.lastResortPoint index).x| ≤ 2 ^ 402 ∧ |(c.lastResortPoint index).y| ≤ 2 ^ 402 := by
  obtain ⟨-, -, hstep⟩ := hc.layout
  obtain ⟨hanchorX, hanchorY⟩ := anchor_le hc
  have hoffset : |(index : ℤ) * c.layout.fallbackStep| ≤ 2 ^ 400 :=
    abs_mul_le_pow (abs_natCast_le_pow hindex) (abs_natCast_le_pow hstep) (by omega)
  exact ⟨abs_add_le_pow hanchorX hoffset (by omega) (by omega),
    abs_add_le_pow hanchorY hoffset (by omega) (by omega)⟩

theorem randomSpan_le (hc : c.Moderate) (hfields : fieldCount ≤ 2 ^ 200) :
    |(c.randomSpan fieldCount).x| ≤ 2 ^ 404 ∧ |(c.randomSpan fieldCount).y| ≤ 2 ^ 404 := by
  obtain ⟨-, -, hwidth, hheight, hpadding⟩ := hc.bounds
  have hcast : ∀ {a b : ℕ} {d : ℤ}, a ≤ 2 ^ 200 → b ≤ 2 ^ 200 → |d| ≤ 2 ^ 401 →
      |(a : ℤ) - 2 * b - d| ≤ 2 ^ 404 := by
    intro a b d ha hb hd
    have hgap : |(2 : ℤ) * b| ≤ 2 ^ 201 :=
      abs_mul_le_pow (j := 1) (le_refl _) (abs_natCast_le_pow hb) (by omega)
    have hab : |(a : ℤ) - 2 * b| ≤ 2 ^ 202 :=
      abs_sub_le_pow (abs_natCast_le_pow ha) hgap (by omega) (by omega)
    exact abs_sub_le_pow hab hd (by omega) (by omega)
  exact ⟨hcast hwidth hpadding (width_le hc), hcast hheight hpadding (tableHeight_le hc hfields)⟩

end Config

end SchemaDiagram
