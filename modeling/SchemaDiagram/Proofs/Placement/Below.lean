/-
# Room below all tables

The last candidate but the random ones lies below all placed tables.  It is rounded to the grid like
every other candidate, and so it keeps the table spacing unless the rounding takes it up.  Where it
does not, and the canvas reaches down to the candidate, a search that has found nothing before finds
room there.

* `isGreatest_lowerEdges` : where the placed tables end;
* `Config.search_eq_none` : a search without a result has refused the candidate below;
* `Config.clear_below` : a candidate that is rounded down the canvas is clear;
* `Config.allocate_below` : so a table finds room;
* `allocate_below_rounded_up` : what happens where rounding takes the candidate up.
-/
import Mathlib.Order.Bounds.Basic
import SchemaDiagram.Proofs.Canvas.Clamping
import SchemaDiagram.Proofs.Placement.Order
import SchemaDiagram.Proofs.Placement.Search
import SchemaDiagram.Proofs.Placement.Totality

namespace SchemaDiagram

/-! ## Where the tables end -/

/-- The lower edges of boxes, and the level at which the room for them begins. -/
def lowerEdges (m : Metrics) (start : Point ℤ) (boxes : List (Box ℤ)) : Set ℤ :=
  {e | e = start.y ∨ ∃ b ∈ boxes, e = b.corner.y + b.height m}

/-- The corner of the region in use lies on the lowest edge. -/
theorem isGreatest_lowerEdges (m : Metrics) (start : Point ℤ) (boxes : List (Box ℤ)) :
    IsGreatest (lowerEdges m start boxes) (boxes.foldl (farther m) start).y := by
  induction boxes generalizing start with
  | nil =>
    refine ⟨Or.inl rfl, ?_⟩
    rintro e (rfl | ⟨b, hb, -⟩)
    · exact le_rfl
    · exact nomatch hb
  | cons b rest ih =>
    obtain ⟨hmem, hbound⟩ := ih (farther m start b)
    have hstart : (farther m start b).y = max start.y (b.corner.y + b.height m) := rfl
    have hle : (farther m start b).y ≤ (rest.foldl (farther m) (farther m start b)).y :=
      hbound (Or.inl rfl)
    constructor
    · rcases hmem with heq | ⟨b', hb', heq⟩
      · rw [hstart] at heq
        rcases max_choice start.y (b.corner.y + b.height m) with hmax | hmax
        · exact Or.inl (heq.trans hmax)
        · exact Or.inr ⟨b, List.mem_cons_self, heq.trans hmax⟩
      · exact Or.inr ⟨b', List.mem_cons_of_mem b hb', heq⟩
    · rintro e (rfl | ⟨b', hb', rfl⟩)
      · exact (le_max_left _ _).trans hle
      · rcases List.mem_cons.1 hb' with rfl | hb'
        · exact (le_max_right _ _).trans hle
        · exact hbound (Or.inr ⟨b', hb', rfl⟩)

namespace Config

variable {c : Config} {fieldCount : ℕ}

/-! ## A search without a result -/

theorem orElseSearch_eq_none {first : Except DrawingFault (Option Placement)}
    {second : Unit → Except DrawingFault (Option Placement)}
    (h : orElseSearch first second = .ok none) : first = .ok none ∧ second () = .ok none := by
  obtain ⟨found, hfound, h⟩ := bind_eq_ok.1 h
  cases found with
  | none => exact ⟨hfound, h⟩
  | some p => exact nomatch h

/-- A candidate that is refused overlaps a table. -/
theorem taken_of_tryAt {α : Type} [Arithmetic α] {placed : List (Box α)} {stage : Stage}
    {p : Point α} (h : c.tryAt fieldCount placed stage p = .ok none) :
    ∃ position, c.clamp fieldCount p = .ok position ∧ ¬c.Clear fieldCount placed position := by
  obtain ⟨position, hposition, h⟩ := bind_eq_ok.1 h
  obtain ⟨taken, htaken, h⟩ := bind_eq_ok.1 h
  refine ⟨position, lift_eq_ok.1 hposition, fun hclear => ?_⟩
  have hfree := Box.collides_eq_false_iff.2 hclear
  rw [lift_eq_ok.1 htaken, Except.ok.injEq] at hfree
  rw [hfree] at h
  exact nomatch h

/-- **A search without a result** has refused the candidate below all tables. -/
theorem search_eq_none {α : Type} [Arithmetic α] {placed : List (Box α)}
    (h : c.search fieldCount placed = .ok none) :
    ∃ p position, c.belowPoint placed = .ok p ∧ c.clamp fieldCount p = .ok position ∧
      ¬c.Clear fieldCount placed position := by
  obtain ⟨-, hspiral⟩ := orElseSearch_eq_none h
  obtain ⟨-, hright⟩ := orElseSearch_eq_none hspiral
  obtain ⟨-, hbelow⟩ := orElseSearch_eq_none hright
  obtain ⟨hrefused, -⟩ := orElseSearch_eq_none hbelow
  obtain ⟨p, hp, htried⟩ := bind_eq_ok.1 hrefused
  obtain ⟨position, hposition, hclear⟩ := taken_of_tryAt htried
  exact ⟨p, position, lift_eq_ok.1 hp, hposition, hclear⟩

/-- Without a result the last resort is left. -/
theorem fits_or_none {placed : List (Box Quantity)} {p : Placement}
    (hplaced : placed ≠ []) (h : c.allocate fieldCount placed = .ok p) :
    c.search fieldCount placed = .ok none ∨ c.Fits fieldCount placed p := by
  rw [allocate, if_neg (by simpa using hplaced)] at h
  obtain ⟨found, hfound, h⟩ := bind_eq_ok.1 h
  cases found with
  | none => exact Or.inl hfound
  | some q =>
    rw [← pure_eq_ok.1 h]
    exact Or.inr (search_finds q hfound)

/-! ## The candidate below -/

variable {boxes : List (Box ℤ)} {bottom y : ℤ}

/-- The level below which there is nothing placed, nor before the anchor. -/
def IsBottom (c : Config) (boxes : List (Box ℤ)) (bottom : ℤ) : Prop :=
  IsGreatest (lowerEdges c.metrics c.bounds.anchor boxes) bottom

/-- The candidate lies the table spacing below the lowest edge. -/
theorem belowPoint_whole (hbottom : c.IsBottom boxes bottom) :
    c.belowPoint (boxes.map Box.whole) =
      .ok (.ofInts ⟨c.bounds.anchor.x, bottom + c.layout.tableSpacing⟩ : Point Quantity) := by
  have hunique := (isGreatest_lowerEdges c.metrics c.bounds.anchor boxes).unique hbottom
  rw [belowPoint, usedCorner, farCorner_whole, ← hunique]
  rfl

/-- A candidate that rounding does not take up is clear where it ends. -/
theorem clear_below (hbottom : c.IsBottom boxes bottom)
    (hy : bottom + c.layout.tableSpacing ≤ y) (hhigh : y ≤ (c.farLimit fieldCount).y)
    (hround : toGrid c.layout.gridSize (.whole (bottom + c.layout.tableSpacing) : Quantity) = .ok y)
    {position : Point ℤ}
    (hclamp : c.clamp fieldCount
      (.ofInts ⟨c.bounds.anchor.x, bottom + c.layout.tableSpacing⟩ : Point Quantity) =
        .ok position) :
    c.Clear fieldCount (boxes.map Box.whole) position := by
  have hlow : c.bounds.anchor.y ≤ bottom := hbottom.2 (Or.inl rfl)
  have hposition : position.y = y := by
    obtain ⟨-, hclampy⟩ := clamp_eq_ok.1 hclamp
    obtain ⟨q, above, below, hq, habove, hbelow, hr⟩ := clampBetween_eq_ok.1 hclampy
    obtain ⟨q', hq', rfl⟩ := toGrid_eq_ok.1 hround
    obtain rfl : q = q' := Except.ok.inj (hq.symm.trans hq')
    obtain rfl := habove.of_le hhigh
    obtain rfl := hbelow.of_le (by omega)
    omega
  intro b hb
  obtain ⟨a, ha, rfl⟩ := List.mem_map.1 hb
  have hedge : a.corner.y + a.height c.metrics ≤ bottom := hbottom.2 (Or.inr ⟨a, ha, rfl⟩)
  refine Box.overlaps_whole_eq_false_iff (a := ⟨position, fieldCount⟩).2 ?_
  refine Or.inr (Or.inr (Or.inl ?_))
  show a.corner.y + a.height c.metrics + c.layout.tableSpacing ≤ position.y
  omega

/-- **Room below** all placed tables is found: where the canvas reaches down to the first grid line
that keeps the spacing, and the candidate below is rounded to this line, a table is never placed at
the last resort, and it is clear of all others.  That it is placed at all is sure for settings and
positions that are far from overflow. -/
theorem allocate_below (hboxes : boxes ≠ []) (hbottom : c.IsBottom boxes bottom)
    (hy : IsLeast {s : ℤ | (c.layout.gridSize : ℤ) ∣ s ∧ bottom + c.layout.tableSpacing ≤ s} y)
    (hhigh : y ≤ (c.farLimit fieldCount).y)
    (hround : toGrid c.layout.gridSize (.whole (bottom + c.layout.tableSpacing) : Quantity) =
      .ok y) :
    (∀ p, c.allocate fieldCount (boxes.map Box.whole) = .ok p →
      p.stage ≠ .lastResort ∧ c.Clear fieldCount (boxes.map Box.whole) p.position) ∧
    (c.Moderate → fieldCount ≤ 2 ^ 200 → boxes.length ≤ 2 ^ 200 →
      (∀ b ∈ boxes, |b.corner.x| ≤ 2 ^ 1000 ∧ |b.corner.y| ≤ 2 ^ 1000 ∧ b.fieldCount ≤ 2 ^ 200) →
      ∃ p, c.allocate fieldCount (boxes.map Box.whole) = .ok p) := by
  constructor
  · intro p hp
    rcases fits_or_none (by simpa using hboxes) hp with hnone | hfits
    · obtain ⟨candidate, position, hcandidate, hclamp, hrefused⟩ := search_eq_none hnone
      rw [belowPoint_whole hbottom, Except.ok.injEq] at hcandidate
      rw [← hcandidate] at hclamp
      exact absurd (clear_below hbottom hy.1.2 hhigh hround hclamp) hrefused
    · exact ⟨hfits.tried, hfits.clear⟩
  · intro hc hfields hsize hbounded
    have htame : ∀ b ∈ boxes.map Box.whole, b.Tame := by
      intro b hb
      obtain ⟨a, ha, rfl⟩ := List.mem_map.1 hb
      obtain ⟨hx, hy, hcount⟩ := hbounded a ha
      exact ⟨Point.tame_ofInts hx hy le_rfl, hcount⟩
    obtain ⟨p, hp, -⟩ := allocate_succeeds hc hfields htame (by rwa [List.length_map])
    exact ⟨p, hp⟩

/-- Two tables that leave no room in their row when there is no spiral. -/
def rowBoxes : List (Box ℤ) := [⟨⟨700, 60⟩, 1⟩, ⟨⟨2780, 60⟩, 1⟩]

/-- The defaults without a spiral. -/
def rowConfig : Config :=
  { default with layout := { default.layout with spiralRadii := 0 } }

theorem allocate_below_row :
    rowBoxes ≠ [] ∧ rowConfig.IsBottom rowBoxes 119 ∧
      IsLeast {s : ℤ | (rowConfig.layout.gridSize : ℤ) ∣ s ∧
        119 + rowConfig.layout.tableSpacing ≤ s} 180 ∧
      180 ≤ (rowConfig.farLimit 3).y ∧
      toGrid rowConfig.layout.gridSize
        (.whole (119 + rowConfig.layout.tableSpacing) : Quantity) = .ok 180 ∧
      ∃ p, rowConfig.allocate 3 (rowBoxes.map Box.whole) = .ok p ∧ p.stage ≠ .lastResort ∧
        rowConfig.Clear 3 (rowBoxes.map Box.whole) p.position := by
  have hbottom : rowConfig.IsBottom rowBoxes 119 :=
    isGreatest_lowerEdges rowConfig.metrics rowConfig.bounds.anchor rowBoxes
  have hleast : IsLeast {s : ℤ | (rowConfig.layout.gridSize : ℤ) ∣ s ∧
      119 + rowConfig.layout.tableSpacing ≤ s} 180 := by
    refine ⟨⟨by decide, by decide⟩, ?_⟩
    rintro s ⟨⟨t, rfl⟩, hs⟩
    simp only [rowConfig, default] at hs ⊢
    omega
  have hround : toGrid rowConfig.layout.gridSize
      (.whole (119 + rowConfig.layout.tableSpacing) : Quantity) = .ok 180 := by decide +kernel
  have hhigh : 180 ≤ (rowConfig.farLimit 3).y := by decide
  obtain ⟨hplaced, hfound⟩ := allocate_below (by decide) hbottom hleast hhigh hround
  have hsmall : ∀ b ∈ rowBoxes, |b.corner.x| ≤ 2 ^ 12 ∧ |b.corner.y| ≤ 2 ^ 12 ∧
      b.fieldCount ≤ 2 ^ 200 := by decide
  obtain ⟨p, hp⟩ := hfound (by decide) (by decide) (by decide) fun b hb =>
    ⟨abs_le_pow_mono (hsmall b hb).1 (by omega), abs_le_pow_mono (hsmall b hb).2.1 (by omega),
      (hsmall b hb).2.2⟩
  exact ⟨by decide, hbottom, hleast, hhigh, hround, p, hp, hplaced p hp⟩

/-- A canvas of one column, with room for two tables. -/
def columnConfig : Config :=
  { default with
    bounds := { default.bounds with width := 280, height := 272 }
    layout := { default.layout with spiralRadii := 0, randomAttempts := 0 } }

/-- The candidate below may be rounded up the canvas, into the spacing, so that the room there is
not found. -/
theorem allocate_below_rounded_up :
    ¬ ∀ (c : Config) (fieldCount : ℕ) (boxes : List (Box ℤ)) (bottom y : ℤ), boxes ≠ [] →
      c.IsBottom boxes bottom →
      IsLeast {s : ℤ | (c.layout.gridSize : ℤ) ∣ s ∧ bottom + c.layout.tableSpacing ≤ s} y →
      y ≤ (c.farLimit fieldCount).y → c.bounds.anchor.x ≤ (c.farLimit fieldCount).x →
      ∃ p, c.allocate fieldCount (boxes.map Box.whole) = .ok p ∧ p.stage ≠ .lastResort ∧
        c.Clear fieldCount (boxes.map Box.whole) p.position := by
  intro h
  have hleast : IsLeast {s : ℤ | (columnConfig.layout.gridSize : ℤ) ∣ s ∧
      146 + columnConfig.layout.tableSpacing ≤ s} 220 := by
    refine ⟨⟨by decide, by decide⟩, ?_⟩
    rintro s ⟨⟨t, rfl⟩, hs⟩
    simp only [columnConfig, default] at hs ⊢
    omega
  obtain ⟨p, hp, hstage, -⟩ := h columnConfig 0 [⟨⟨60, 60⟩, 2⟩] 146 220 (by decide)
    (isGreatest_lowerEdges columnConfig.metrics columnConfig.bounds.anchor [⟨⟨60, 60⟩, 2⟩])
    hleast (by decide) (by decide)
  have hlast : columnConfig.allocate 0 ([⟨⟨60, 60⟩, 2⟩].map Box.whole) =
      .ok ⟨⟨60, 80⟩, .lastResort, 1⟩ := by decide +kernel
  rw [hlast, Except.ok.injEq] at hp
  rw [← hp] at hstage
  exact hstage rfl

end Config

end SchemaDiagram
