/-
# Placements are always found

With moderate settings and with tame coordinates of the tables that have their place, no stage of
the search for room can fail, so every table gets a position.  A stage that looks at no coordinate
of a placed table cannot fail at all; the others meet NaN in comparisons only.

* `Box.Tame` : a box whose coordinates are bounded or NaN;
* `Config.clamp_succeeds`, `Config.search_succeeds` : the stages of the search;
* `Config.allocate_succeeds` : every table gets a position;
* `layOut_succeeds` : so does every table of a layout.
-/
import SchemaDiagram.Proofs.Number.Angle
import SchemaDiagram.Proofs.Number.Tame
import SchemaDiagram.Proofs.Placement.Moderate
import SchemaDiagram.Proofs.Placement.Run
import SchemaDiagram.Proofs.Placement.Search

namespace SchemaDiagram

/-! ## Points and boxes -/

/-- A point with bounded coordinates. -/
def Point.AtMost (k : ℕ) (p : Point Quantity) : Prop := p.x.AtMost k ∧ p.y.AtMost k

/-- A point with coordinates that are bounded or NaN. -/
def Point.Tame (k : ℕ) (p : Point Quantity) : Prop := p.x.Tame k ∧ p.y.Tame k

/-- A box at a tame point, with not too many fields. -/
structure Box.Tame (b : Box Quantity) : Prop where
  corner : b.corner.Tame 1000
  fields : b.fieldCount ≤ 2 ^ 200

/-- A whole point is at its own coordinates. -/
theorem Point.atMost_ofInts {p : Point Int} {k : ℕ} (hx : |p.x| ≤ 2 ^ k) (hy : |p.y| ≤ 2 ^ k) :
    (Point.ofInts p : Point Quantity).AtMost k :=
  ⟨hx, hy⟩

/-- Bounded whole coordinates are tame. -/
theorem Point.tame_ofInts {p : Point Int} {j k : ℕ} (hx : |p.x| ≤ 2 ^ j) (hy : |p.y| ≤ 2 ^ j)
    (hjk : j ≤ k) : (Point.ofInts p : Point Quantity).Tame k :=
  ⟨(Quantity.atMost_whole hx hjk).tame, (Quantity.atMost_whole hy hjk).tame⟩

theorem Point.AtMost.mono {p : Point Quantity} {j k : ℕ} (h : p.AtMost j) (hjk : j ≤ k) :
    p.AtMost k :=
  ⟨h.1.mono hjk, h.2.mono hjk⟩

theorem Point.Tame.mono {p : Point Quantity} {j k : ℕ} (h : p.Tame j) (hjk : j ≤ k) : p.Tame k :=
  ⟨h.1.mono hjk, h.2.mono hjk⟩

section

variable {c : Config} {fieldCount : ℕ} {placed : List (Box Quantity)}

/-! ## Clamping -/

/-- A bounded coordinate can be put on the grid. -/
theorem toGrid_succeeds (hc : c.Moderate) {x : Quantity} {k : ℕ} (hx : x.AtMost k)
    (hk : k ≤ 1023) : Succeeds (toGrid c.layout.gridSize x) fun n => |n| ≤ 2 ^ (k + 200) := by
  obtain ⟨hgrid, -, -⟩ := hc.layout
  refine (hx.nearestQuotient hk c.layout.gridSize_pos hgrid (by omega)).bind fun q hq => ?_
  exact .ok (abs_mul_le_pow hq (abs_natCast_le_pow hgrid) (le_refl _))

/-- A bounded coordinate can be clamped between two limits. -/
theorem clampBetween_succeeds (hc : c.Moderate) {x : Quantity} (hx : x.AtMost 1023)
    {low high : ℤ} (hlow : |low| ≤ 2 ^ 1023) (hhigh : |high| ≤ 2 ^ 1023) :
    Succeeds (clampBetween c.layout.gridSize low high x) fun _ => True := by
  obtain ⟨hgrid, -, -⟩ := hc.layout
  have hround : ∀ {a : ℤ} (round : ℚ → ℤ), |a| ≤ 2 ^ 1023 →
      ∃ q, Quantity.quotientWith round (.whole a) c.layout.gridSize = .ok q := by
    intro a round ha
    obtain ⟨q, hq, -⟩ := Quantity.quotientWith_whole ha (le_refl _) c.layout.gridSize_pos hgrid
      (by omega) round
    exact ⟨q, hq⟩
  obtain ⟨q, hq, -⟩ := hx.nearestQuotient (le_refl _) c.layout.gridSize_pos hgrid (by omega)
  have hfloor : ∃ k, Arithmetic.floorQuotient Quantity high c.layout.gridSize = .ok k :=
    hround Rat.floor hhigh
  have hceil : ∃ k, Arithmetic.ceilQuotient Quantity low c.layout.gridSize = .ok k :=
    hround Rat.ceil hlow
  obtain ⟨above, below, habove, hbelow⟩ := exists_steps q hfloor hceil
  exact ⟨_, clampBetween_eq_ok.2 ⟨q, above, below, hq, habove, hbelow, rfl⟩, trivial⟩

/-- A position within the limits of the canvas is bounded. -/
theorem Config.Within.bounded (hc : c.Moderate) (hfields : fieldCount ≤ 2 ^ 200) {p : Point Int}
    (h : c.Within fieldCount p) : |p.x| ≤ 2 ^ 404 ∧ |p.y| ≤ 2 ^ 404 := by
  obtain ⟨hlowX, hlowY⟩ := anchor_le hc
  obtain ⟨hhighX, hhighY⟩ := farLimit_le hc hfields
  have hbounded : ∀ {low high r : ℤ}, SchemaDiagram.Within low high r → |low| ≤ 2 ^ 201 →
      |high| ≤ 2 ^ 404 → |r| ≤ 2 ^ 404 := by
    intro low high r hr hlow hhigh
    have hwide : |low| ≤ 2 ^ 404 := abs_le_pow_mono hlow (by omega)
    rw [abs_le] at hwide hhigh ⊢
    exact ⟨hwide.1.trans hr.1, hr.2.trans (max_le hwide.2 hhigh.2)⟩
  exact ⟨hbounded h.x hlowX hhighX, hbounded h.y hlowY hhighY⟩

/-- **A bounded point** can be clamped to the canvas. -/
theorem Config.clamp_succeeds (hc : c.Moderate) (hfields : fieldCount ≤ 2 ^ 200)
    {p : Point Quantity} (hp : p.AtMost 1023) :
    Succeeds (c.clamp fieldCount p) fun r => |r.x| ≤ 2 ^ 404 ∧ |r.y| ≤ 2 ^ 404 := by
  obtain ⟨hlowX, hlowY⟩ := anchor_le hc
  obtain ⟨hhighX, hhighY⟩ := farLimit_le hc hfields
  have hclamp : Succeeds (c.clamp fieldCount p) fun _ => True := by
    refine (clampBetween_succeeds hc hp.1 (abs_le_pow_mono hlowX (by omega))
      (abs_le_pow_mono hhighX (by omega))).bind fun x _ => ?_
    refine (clampBetween_succeeds hc hp.2 (abs_le_pow_mono hlowY (by omega))
      (abs_le_pow_mono hhighY (by omega))).bind fun y _ => ?_
    exact .ok trivial
  -- the bound comes from the limits: the point itself may be further away
  obtain ⟨r, hr, -⟩ := hclamp
  exact ⟨r, hr, (clamp_within hr).bounded hc hfields⟩

/-! ## Overlaps -/

theorem reaches_succeeds {a b length spacing : Quantity} {k : ℕ} (hb : b.Tame k)
    (hlength : length.AtMost k) (hspacing : spacing.AtMost k) (hk : k + 2 ≤ 1023) :
    Succeeds (reaches a b length spacing) fun _ => True := by
  refine (hb.add hlength.tame (m := k + 1) (by omega) (by omega) (by omega)).bind fun far hfar => ?_
  refine (hfar.add hspacing.tame (m := k + 2) (by omega) (by omega) hk).bind fun reach _ => ?_
  exact .ok trivial

theorem bothHold_succeeds {first second : Except ArithmeticFault Bool}
    (hfirst : Succeeds first fun _ => True) (hsecond : Succeeds second fun _ => True) :
    Succeeds (bothHold first second) fun _ => True := by
  refine hfirst.bind fun holds _ => ?_
  split
  · exact hsecond
  · exact .ok trivial

/-- Whether two tame boxes overlap can be found out. -/
theorem Box.overlaps_succeeds (hc : c.Moderate) {a b : Box Quantity} (ha : a.Tame)
    (hb : b.Tame) :
    Succeeds (Box.overlaps c.metrics c.tableSpacing a b) fun _ => True := by
  have hwidth : (c.metrics.boxWidth : Quantity).AtMost 1000 :=
    Quantity.atMost_whole (Config.width_le hc) (by omega)
  have hspacing : (c.tableSpacing : Quantity).AtMost 1000 :=
    Quantity.atMost_whole (abs_natCast_le_pow hc.layout.2.1) (by omega)
  have hheight : ∀ b : Box Quantity, b.Tame → (c.metrics.boxHeight b).AtMost 1000 := fun b hb =>
    Quantity.atMost_whole (Config.tableHeight_le hc hb.fields) (by omega)
  have hreach : ∀ {x y length : Quantity}, y.Tame 1000 → length.AtMost 1000 →
      Succeeds (reaches x y length c.tableSpacing) fun _ => True := fun hy hlength =>
    reaches_succeeds hy hlength hspacing (by omega)
  exact bothHold_succeeds (hreach hb.corner.1 hwidth) <|
    bothHold_succeeds (hreach ha.corner.1 hwidth) <|
    bothHold_succeeds (hreach hb.corner.2 (hheight b hb)) (hreach ha.corner.2 (hheight a ha))

theorem Box.collides_succeeds (hc : c.Moderate) {a : Box Quantity} (ha : a.Tame)
    (hplaced : ∀ b ∈ placed, b.Tame) :
    Succeeds (Box.collides c.metrics c.tableSpacing a placed) fun _ => True := by
  induction placed with
  | nil => exact .ok trivial
  | cons b rest ih =>
    have hrest := ih fun b' hb' => hplaced b' (List.mem_cons_of_mem b hb')
    refine (Box.overlaps_succeeds hc ha (hplaced b List.mem_cons_self)).bind fun taken _ => ?_
    split
    · exact .ok trivial
    · exact hrest

/-! ## Candidates -/

namespace Config

/-- **A bounded candidate** can be tried. -/
theorem tryAt_succeeds (hc : c.Moderate) (hfields : fieldCount ≤ 2 ^ 200)
    (hplaced : ∀ b ∈ placed, b.Tame) (stage : Stage) {p : Point Quantity} (hp : p.AtMost 1023) :
    Succeeds (c.tryAt fieldCount placed stage p) fun _ => True := by
  refine (clamp_succeeds hc hfields hp).lift.bind fun r hr => ?_
  have hbox : Box.Tame ⟨.ofInts r, fieldCount⟩ :=
    ⟨Point.tame_ofInts hr.1 hr.2 (by omega), hfields⟩
  exact (Box.collides_succeeds hc hbox hplaced).lift.bind fun taken _ => .ok trivial

theorem orElse_succeeds {first : Except DrawingFault (Option Placement)}
    {second : Unit → Except DrawingFault (Option Placement)}
    (hfirst : Succeeds first fun _ => True) (hsecond : Succeeds (second ()) fun _ => True) :
    Succeeds (orElseSearch first second) fun _ => True := by
  refine hfirst.bind fun found _ => ?_
  cases found with
  | none => exact hsecond
  | some p => exact .ok trivial

theorem offsetBy_succeeds {center : ℤ} {radius : ℕ} {direction : Binary64} {k : ℕ}
    (hcenter : |center| ≤ 2 ^ 604) (hradius : |(radius : ℤ)| ≤ 2 ^ k) (hk : k ≤ 500)
    (hdirection : direction.AtMost 407) :
    Succeeds (offsetBy center radius direction : Except _ Quantity) (Quantity.AtMost 1000) := by
  have hshift : Succeeds ((Quantity.whole radius).mul (.real direction)) (Quantity.AtMost 907) :=
    Quantity.AtMost.mul (x := .whole _) (y := .real _) hradius hdirection (by omega) (by omega)
  refine hshift.bind fun shift hbound => ?_
  exact Quantity.AtMost.add (x := .whole _) hcenter hbound (by omega) (by omega) (by omega)

/-- The directions of the spiral are angles below a full turn. -/
theorem spiralAngle_lt (c : Config) (k : ℕ) :
    k % c.spiralDirections * c.layout.spiralStepDegrees < 360 := by
  have hlt : k % c.spiralDirections < c.spiralDirections := Nat.mod_lt _ (Nat.succ_pos _)
  have hle : k % c.spiralDirections ≤ 359 / c.layout.spiralStepDegrees := Nat.lt_succ_iff.1 hlt
  have := (Nat.le_div_iff_mul_le c.layout.spiralStepDegrees_pos).1 hle
  omega

/-- **The points of the spiral** around a slot are bounded. -/
theorem spiralProbe_succeeds (hc : c.Moderate) (hfields : fieldCount ≤ 2 ^ 200)
    {center : Point Int} (hx : |center.x| ≤ 2 ^ 604) (hy : |center.y| ≤ 2 ^ 604) {k : ℕ}
    (hk : k < c.spiralLength) :
    Succeeds (c.spiralProbe fieldCount center k : Except _ (Point Quantity))
      (Point.AtMost 1000) := by
  obtain ⟨hcolumn, hrow⟩ := pitch_le hc hfields
  have hradius : |((k / c.spiralDirections + 1 : ℕ) : ℤ)| ≤ 2 ^ 63 := by
    -- there may be more radii than this, but not more probes
    refine abs_natCast_le_pow ?_
    have hcount : k < maxProbes := (lt_min_iff.1 hk).1.trans_le hc.probes
    have hdiv := Nat.div_le_self k c.spiralDirections
    rw [maxProbes] at hcount
    omega
  have hangle := c.spiralAngle_lt k
  refine (offsetBy_succeeds (k := 465) hx ?_ (by omega) (Angle.atMost_cosine hangle)).bind
    fun x hx => ?_
  · rw [Nat.cast_mul]
    exact abs_mul_le_pow hradius hcolumn (by omega)
  refine (offsetBy_succeeds (k := 465) hy ?_ (by omega) (Angle.atMost_sine hangle)).bind
    fun y hy => ?_
  · rw [Nat.cast_mul]
    exact abs_mul_le_pow hradius hrow (by omega)
  exact .ok ⟨hx, hy⟩

/-- **The corner of the placed tables** is bounded: NaN never counts as further. -/
theorem usedCorner_succeeds (hc : c.Moderate) (hplaced : ∀ b ∈ placed, b.Tame) :
    Succeeds (c.usedCorner placed) (Point.AtMost 1001) := by
  obtain ⟨hanchorX, hanchorY⟩ := anchor_le hc
  have hwidth : (c.metrics.boxWidth : Quantity).AtMost 1000 :=
    Quantity.atMost_whole (width_le hc) (by omega)
  refine Succeeds.foldlM (fun corner hcorner b hb => ?_)
    ((Point.atMost_ofInts hanchorX hanchorY).mono (by omega))
  have htame := hplaced b hb
  have hheight : (c.metrics.boxHeight b).AtMost 1000 :=
    Quantity.atMost_whole (tableHeight_le hc htame.fields) (by omega)
  have hfar : Succeeds (b.far c.metrics) (Point.Tame 1001) := by
    refine (htame.corner.1.add hwidth.tame (m := 1001) (by omega) (by omega) (by omega)).bind
      fun x hx => ?_
    refine (htame.corner.2.add hheight.tame (m := 1001) (by omega) (by omega) (by omega)).bind
      fun y hy => ?_
    exact .ok ⟨hx, hy⟩
  exact hfar.bind fun far hfar => .ok ⟨hcorner.1.larger hfar.1, hcorner.2.larger hfar.2⟩

theorem besidePoint_succeeds (hc : c.Moderate) (hplaced : ∀ b ∈ placed, b.Tame) :
    Succeeds (c.besidePoint placed) (Point.AtMost 1002) := by
  have hspacing : (c.tableSpacing : Quantity).AtMost 200 := abs_natCast_le_pow hc.layout.2.1
  have hanchor : (Quantity.whole c.bounds.anchor.y).AtMost 201 := (anchor_le hc).2
  refine (usedCorner_succeeds hc hplaced).bind fun corner hcorner => ?_
  refine (hcorner.1.add hspacing (m := 1002) (by omega) (by omega) (by omega)).bind fun x hx => ?_
  exact .ok ⟨hx, hanchor.mono (by omega)⟩

theorem belowPoint_succeeds (hc : c.Moderate) (hplaced : ∀ b ∈ placed, b.Tame) :
    Succeeds (c.belowPoint placed) (Point.AtMost 1002) := by
  have hspacing : (c.tableSpacing : Quantity).AtMost 200 := abs_natCast_le_pow hc.layout.2.1
  have hanchor : (Quantity.whole c.bounds.anchor.x).AtMost 201 := (anchor_le hc).1
  refine (usedCorner_succeeds hc hplaced).bind fun corner hcorner => ?_
  refine (hcorner.2.add hspacing (m := 1002) (by omega) (by omega) (by omega)).bind fun y hy => ?_
  exact .ok ⟨hanchor.mono (by omega), hy⟩

theorem fractionOf_succeeds {start span : ℤ} {fraction : Binary64} (hstart : |start| ≤ 2 ^ 201)
    (hspan : |span| ≤ 2 ^ 404) (hfraction : fraction.AtMost 6) :
    Succeeds (fractionOf start span fraction : Except _ Quantity) (Quantity.AtMost 411) := by
  have hshift : Succeeds ((Quantity.real fraction).mul (.whole span)) (Quantity.AtMost 410) :=
    Quantity.AtMost.mul (x := .real _) (y := .whole _) hfraction hspan (by omega) (by omega)
  refine hshift.bind fun shift hbound => ?_
  exact Quantity.AtMost.add (x := .whole _) hstart hbound (by omega) (by omega) (by omega)

/-- **A random point** is bounded. -/
theorem randomProbe_succeeds (hc : c.Moderate) (hfields : fieldCount ≤ 2 ^ 200) {u v : Binary64}
    (hu : u.AtMost 6) (hv : v.AtMost 6) :
    Succeeds (randomProbe Quantity c fieldCount u v) fun p =>
      (Point.ofInts p : Point Quantity).AtMost 611 := by
  obtain ⟨hspanX, hspanY⟩ := randomSpan_le hc hfields
  obtain ⟨hanchorX, hanchorY⟩ := anchor_le hc
  refine (fractionOf_succeeds hanchorX hspanX hu).bind fun x hx => ?_
  refine (fractionOf_succeeds hanchorY hspanY hv).bind fun y hy => ?_
  refine (toGrid_succeeds hc hx (by omega)).bind fun gridX hgridX => ?_
  refine (toGrid_succeeds hc hy (by omega)).bind fun gridY hgridY => ?_
  exact .ok (Point.atMost_ofInts hgridX hgridY)

/-! ## The search -/

/-- Every point of the spiral can be tried. -/
theorem trySpiral_succeeds (hc : c.Moderate) (hfields : fieldCount ≤ 2 ^ 200)
    (hplaced : ∀ b ∈ placed, b.Tame) {center : Point Int} (hx : |center.x| ≤ 2 ^ 604)
    (hy : |center.y| ≤ 2 ^ 604) (count k : ℕ) (hk : k + count ≤ c.spiralLength) :
    Succeeds (c.trySpiral fieldCount placed center count k) fun _ => True := by
  induction count generalizing k with
  | zero => exact .ok trivial
  | succ count ih =>
    refine orElse_succeeds ?_ (ih (k + 1) (by omega))
    refine (spiralProbe_succeeds hc hfields hx hy (by omega)).lift.bind fun p hp => ?_
    exact tryAt_succeeds hc hfields hplaced .spiral (hp.mono (by omega))

/-- Every random point can be tried. -/
theorem tryRandom_succeeds (hc : c.Moderate) (hfields : fieldCount ≤ 2 ^ 200)
    (hplaced : ∀ b ∈ placed, b.Tame) (count : ℕ) (rng : Twister) :
    Succeeds (c.tryRandom fieldCount placed count rng) fun _ => True := by
  induction count generalizing rng with
  | zero => exact .ok trivial
  | succ count ih =>
    rw [tryRandom]
    refine orElse_succeeds ?_ (ih _)
    refine (randomProbe_succeeds hc hfields rng.atMost_fraction
      rng.fraction.2.atMost_fraction).lift.bind fun p hp => ?_
    exact tryAt_succeeds hc hfields hplaced .random (hp.mono (by omega))

/-- **No stage** of the search fails. -/
theorem search_succeeds (hc : c.Moderate) (hfields : fieldCount ≤ 2 ^ 200)
    (hplaced : ∀ b ∈ placed, b.Tame) (hsize : placed.length ≤ 2 ^ 200) :
    Succeeds (c.search fieldCount placed) fun _ => True := by
  obtain ⟨hx, hy⟩ := slot_le hc hfields hsize
  have hspiral : Succeeds (c.searchSpiral fieldCount placed) fun _ => True := by
    rw [searchSpiral, if_neg (not_lt.2 hc.probes)]
    exact trySpiral_succeeds hc hfields hplaced hx hy _ 0 (by omega)
  refine orElse_succeeds (tryAt_succeeds hc hfields hplaced .grid
    ((Point.atMost_ofInts hx hy).mono (by omega))) ?_
  refine orElse_succeeds hspiral ?_
  refine orElse_succeeds ((besidePoint_succeeds hc hplaced).lift.bind fun p hp =>
    tryAt_succeeds hc hfields hplaced .right (hp.mono (by omega))) ?_
  refine orElse_succeeds ((belowPoint_succeeds hc hplaced).lift.bind fun p hp =>
    tryAt_succeeds hc hfields hplaced .below (hp.mono (by omega))) ?_
  exact tryRandom_succeeds hc hfields hplaced _ _

/-- **Every table gets a position**, and the position is bounded. -/
theorem allocate_succeeds (hc : c.Moderate) (hfields : fieldCount ≤ 2 ^ 200)
    (hplaced : ∀ b ∈ placed, b.Tame) (hsize : placed.length ≤ 2 ^ 200) :
    Succeeds (c.allocate fieldCount placed) fun p =>
      |p.position.x| ≤ 2 ^ 404 ∧ |p.position.y| ≤ 2 ^ 404 := by
  have hclamp : ∀ {p : Point Int}, |p.x| ≤ 2 ^ 402 → |p.y| ≤ 2 ^ 402 →
      Succeeds (c.clamp fieldCount (Point.ofInts p : Point Quantity)) fun _ => True := fun hx hy =>
    (clamp_succeeds hc hfields ((Point.atMost_ofInts hx hy).mono (by omega))).mono
      fun _ _ => trivial
  have hplacement : Succeeds (c.allocate fieldCount placed) fun _ => True := by
    rw [allocate]
    split
    · obtain ⟨hx, hy⟩ := anchor_le hc
      exact (hclamp (abs_le_pow_mono hx (by omega)) (abs_le_pow_mono hy (by omega))).lift.bind
        fun r _ => .ok trivial
    · refine (search_succeeds hc hfields hplaced hsize).bind fun found _ => ?_
      cases found with
      | some p => exact .ok trivial
      | none =>
        obtain ⟨hx, hy⟩ := lastResort_le hc hsize
        exact (hclamp hx hy).lift.bind fun r _ => .ok trivial
  obtain ⟨p, hp, -⟩ := hplacement
  exact ⟨p, hp, (allocate_spec hp).1.bounded hc hfields⟩

end Config

end

/-! ## Layouts -/

/-- A table that has at most so many fields and, if it has a position, a tame one. -/
structure Table.Tame (t : Table Quantity) : Prop where
  position : ∀ p, t.position = some p → p.Tame 1000
  fields : t.fields.length ≤ 2 ^ 200

/-- The boxes of tame tables are tame. -/
theorem tame_boxesOf {tables : List (Table Quantity)} (h : ∀ t ∈ tables, t.Tame) :
    ∀ b ∈ boxesOf tables, b.Tame := by
  intro b hb
  obtain ⟨t, ht, hbox⟩ := List.mem_filterMap.1 hb
  obtain ⟨p, hp, rfl⟩ := Option.map_eq_some_iff.1 hbox
  exact ⟨(h t ht).position p hp, (h t ht).fields⟩

/-- A layout that has only reached tables of a registry, all of them tame. -/
structure Layout.Tame (tables : Registry (Table Quantity)) (l : Layout Quantity) : Prop where
  tame : ∀ name t, l.tables.get? name = some t → t.Tame
  keys : l.tables.keys ⊆ tables.keys

variable {c : Config} {tables : Registry (Table Quantity)} {done : Layout Quantity}

/-- **A table can be placed** beside tame tables, and is tame where it is placed. -/
theorem placeNext_succeeds (hc : c.Moderate) (hsize : tables.keys.length ≤ 2 ^ 200)
    (hdone : done.Tame tables) {e : String × Table Quantity} (he : e ∈ tables.entries)
    (hfields : e.2.fields.length ≤ 2 ^ 200) : Succeeds (placeNext c done e) (·.Tame tables) := by
  obtain ⟨name, t⟩ := e
  rw [placeNext]
  split
  · exact .ok hdone
  · have hboxes : ∀ b ∈ boxesOf done.tables.values, b.Tame := by
      refine tame_boxesOf fun u hu => ?_
      obtain ⟨other, hother⟩ := (Registry.mem_values_iff done.tables u).1 hu
      exact hdone.tame other u hother
    have hcount : (boxesOf done.tables.values).length ≤ 2 ^ 200 := by
      calc (boxesOf done.tables.values).length ≤ done.tables.values.length :=
            List.length_filterMap_le _ _
        _ = done.tables.keys.length := by
          rw [Registry.values, Registry.keys, List.length_map, List.length_map]
        _ ≤ tables.keys.length := (done.tables.nodup_keys.subperm hdone.keys).length_le
        _ ≤ 2 ^ 200 := hsize
    refine (Config.allocate_succeeds hc hfields hboxes hcount).bind fun p hp => .ok ?_
    have hposition : (Point.ofInts p.position : Point Quantity).Tame 1000 :=
      Point.tame_ofInts hp.1 hp.2 (by omega)
    constructor
    · intro other u hu
      rw [Registry.get?_insert] at hu
      split at hu
      · rw [← Option.some.inj hu]
        exact ⟨fun q hq => Option.some.inj hq ▸ hposition, hfields⟩
      · exact hdone.tame other u hu
    · rw [Registry.keys_insert]
      split
      · exact hdone.keys
      · have hname : name ∈ tables.keys := List.mem_map_of_mem he
        exact List.append_subset.2 ⟨hdone.keys, List.cons_subset.2 ⟨hname, List.nil_subset _⟩⟩

/-- **Every layout** of tame tables with tame positions is found, and its tables are tame. -/
theorem layOut_succeeds (hc : c.Moderate) (hsize : tables.keys.length ≤ 2 ^ 200)
    (htables : ∀ name t, tables.get? name = some t → t.Tame)
    {positions : Registry (Point Quantity)}
    (hpositions : ∀ name p, positions.get? name = some p → p.Tame 1000) :
    Succeeds (layOut c tables positions) fun l =>
      ∀ name t, l.tables.get? name = some t → t.Tame := by
  have hstart : Layout.Tame tables ⟨knownTables tables positions, []⟩ := by
    constructor
    · intro name u hu
      obtain ⟨t, ht, ⟨p, hp, rfl⟩ | ⟨-, -, rfl⟩⟩ := get?_knownTables hu
      · exact ⟨fun q hq => Option.some.inj hq ▸ hpositions name p hp, (htables name t ht).fields⟩
      · exact htables name u ht
    · intro name hname
      obtain ⟨u, hu⟩ := (Registry.mem_keys_iff _ name).1 hname
      obtain ⟨t, ht, -⟩ := get?_knownTables hu
      exact (Registry.mem_keys_iff tables name).2 ⟨t, ht⟩
  have hfold : Succeeds (tables.entries.foldlM (placeNext c) ⟨knownTables tables positions, []⟩)
      (·.Tame tables) := by
    refine Succeeds.foldlM (fun done hdone e he => ?_) hstart
    have ht := htables e.1 e.2 ((Registry.mem_entries_iff tables e.1 e.2).1 he)
    exact placeNext_succeeds hc hsize hdone he ht.fields
  refine hfold.bind fun done hdone => .ok fun name t ht => ?_
  have hget : (tables.filterMap fun name _ => done.tables.get? name).get? name = some t := ht
  rw [Registry.get?_filterMap, Option.bind_eq_some_iff] at hget
  obtain ⟨-, -, hget⟩ := hget
  exact hdone.tame name t hget

end SchemaDiagram
