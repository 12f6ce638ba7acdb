/-
# Connectors keep out of their own tables

Over exact numbers, the line of a connector consists of horizontal and vertical segments, and no
point of it lies inside a box of one of its two tables, whichever way it runs.

A segment keeps out of a box when both of its ends lie on one outer side of it.  Between the boxes
of two tables the course of a connector decides this across, unless its ends cross over because
the gap is narrow; then the boxes are separated downwards, and the height of a row decides it.

* `Point.Between`, `OnLine` : the points of a segment and of a line, with real coordinates;
* `Box.Inside` : the points inside a box;
* `Box.overlaps_exact` : the overlap test over exact numbers;
* `courseBetween_outside`, `courseBetween_outside_of_apart` : how a course passes the two boxes;
* `routeBetween_avoids` : a connector keeps out of both boxes.
-/
import Mathlib.Data.Real.Basic
import Mathlib.Tactic.Linarith
import SchemaDiagram.Proofs.Canvas.Clearance
import SchemaDiagram.Proofs.Connector.Route

namespace SchemaDiagram

/-! ## Lines and boxes -/

/-- The points of the plane on the segment between two points. -/
def Point.Between (p q : Point Rat) (r : Point ℝ) : Prop :=
  ∃ t : ℝ, 0 ≤ t ∧ t ≤ 1 ∧ r.x = p.x + t * (q.x - p.x) ∧ r.y = p.y + t * (q.y - p.y)

/-- The segments of a line through a list of points. -/
def segmentsOf (points : List (Point Rat)) : List (Point Rat × Point Rat) :=
  points.zip points.tail

/-- A point of the plane lies on the line through a list of points. -/
def OnLine (points : List (Point Rat)) (r : Point ℝ) : Prop :=
  ∃ segment ∈ segmentsOf points, segment.1.Between segment.2 r

/-- A line consists of horizontal and vertical segments. -/
def IsOrthogonal (points : List (Point Rat)) : Prop :=
  ∀ segment ∈ segmentsOf points, segment.1.x = segment.2.x ∨ segment.1.y = segment.2.y

namespace Box

/-- The points of the plane inside a box, its border left out. -/
def Inside (m : Metrics) (b : Box Rat) (r : Point ℝ) : Prop :=
  b.corner.x < r.x ∧ r.x < b.corner.x + m.width ∧
    b.corner.y < r.y ∧ r.y < b.corner.y + m.tableHeight b.fieldCount

/-- Two coordinates lie on one outer side of the stretch that begins at `start`. -/
def Outside (start length u v : Rat) : Prop :=
  (u ≤ start ∧ v ≤ start) ∨ (start + length ≤ u ∧ start + length ≤ v)

theorem Outside.symm {start length u v : Rat} (h : Outside start length u v) :
    Outside start length v u := by
  rcases h with h | h
  · exact Or.inl h.symm
  · exact Or.inr h.symm

/-- The second one of two coordinates on one outer side is outside by itself. -/
theorem Outside.bend {start length u v : Rat} (h : Outside start length u v) :
    Outside start length v v := by
  rcases h with h | h
  · exact Or.inl ⟨h.2, h.2⟩
  · exact Or.inr ⟨h.2, h.2⟩

/-- A part of a segment of which both ends are at most a bound is so, too. -/
theorem between_le {a b bound : Rat} {t : ℝ} (ht : 0 ≤ t) (ht' : t ≤ 1) (ha : a ≤ bound)
    (hb : b ≤ bound) : (a : ℝ) + t * (b - a) ≤ bound := by
  have ha' : (a : ℝ) ≤ bound := by exact_mod_cast ha
  have hb' : (b : ℝ) ≤ bound := by exact_mod_cast hb
  have hfirst : (1 - t) * (bound - a) ≥ 0 := mul_nonneg (by linarith) (by linarith)
  have hsecond : t * (bound - b) ≥ 0 := mul_nonneg ht (by linarith)
  linarith

/-- A part of a segment of which both ends are at least a bound is so, too. -/
theorem le_between {a b bound : Rat} {t : ℝ} (ht : 0 ≤ t) (ht' : t ≤ 1) (ha : bound ≤ a)
    (hb : bound ≤ b) : (bound : ℝ) ≤ a + t * (b - a) := by
  have h := between_le ht ht' (neg_le_neg ha) (neg_le_neg hb)
  push_cast at h
  linarith

/-- Between two coordinates on one outer side of a stretch nothing lies inside the stretch. -/
theorem Outside.not_inside {start length u v : Rat} (h : Outside start length u v) {t : ℝ}
    (ht : 0 ≤ t) (ht' : t ≤ 1) :
    ¬ ((start : ℝ) < u + t * (v - u) ∧ (u : ℝ) + t * (v - u) < start + length) := by
  rintro ⟨hlow, hhigh⟩
  rcases h with ⟨hu, hv⟩ | ⟨hu, hv⟩
  · exact absurd (between_le ht ht' hu hv) (not_le.2 hlow)
  · have hbound := le_between ht ht' hu hv
    push_cast at hbound
    exact absurd hbound (not_le.2 hhigh)

/-- A segment of which both ends lie on one outer side of a box keeps out of the box. -/
theorem not_inside_of_outside {m : Metrics} {b : Box Rat} {p q : Point Rat} {r : Point ℝ}
    (h : Outside b.corner.x m.width p.x q.x ∨
      Outside b.corner.y (m.tableHeight b.fieldCount) p.y q.y)
    (hr : p.Between q r) : ¬ b.Inside m r := by
  obtain ⟨t, ht, ht', hx, hy⟩ := hr
  rintro ⟨hleft, hright, htop, hbottom⟩
  rw [hx] at hleft hright
  rw [hy] at htop hbottom
  rcases h with h | h
  · exact h.not_inside ht ht' ⟨hleft, by exact_mod_cast hright⟩
  · exact h.not_inside ht ht' ⟨htop, by exact_mod_cast hbottom⟩

/-! ## The overlap test -/

/-- One of the four sides separates two boxes by at least the spacing. -/
def Separated (m : Metrics) (spacing : Rat) (a b : Box Rat) : Prop :=
  (b.corner.x + m.width + spacing ≤ a.corner.x ∨ a.corner.x + m.width + spacing ≤ b.corner.x) ∨
    b.corner.y + m.tableHeight b.fieldCount + spacing ≤ a.corner.y ∨
    a.corner.y + m.tableHeight a.fieldCount + spacing ≤ b.corner.y

instance (m : Metrics) (spacing : Rat) (a b : Box Rat) : Decidable (Separated m spacing a b) := by
  unfold Separated
  infer_instance

/-- Over exact numbers the overlap test has an answer: whether no side separates the boxes. -/
theorem overlaps_exact (m : Metrics) (spacing : Rat) (a b : Box Rat) :
    overlaps m spacing a b = .ok (decide ¬ Separated m spacing a b) := by
  show bothHold (.ok (decide (a.corner.x < b.corner.x + ((m.width : Int) : Rat) + spacing)))
    (bothHold (.ok (decide (b.corner.x < a.corner.x + ((m.width : Int) : Rat) + spacing)))
      (bothHold
        (.ok (decide
          (a.corner.y < b.corner.y + ((m.tableHeight b.fieldCount : Int) : Rat) + spacing)))
        (.ok (decide
          (b.corner.y < a.corner.y + ((m.tableHeight a.fieldCount : Int) : Rat) + spacing))))) = _
  rw [bothHold_ok, bothHold_ok, bothHold_ok]
  congr 1
  apply decide_eq_decide.2
  unfold Separated
  push_cast
  simp only [not_or, not_le]
  tauto

end Box

/-! ## Courses -/

section

variable {m : Metrics} {s : RoutingSettings} {fromX toX : Rat} {course : Course Rat}

/-- The later one of two exact numbers. -/
theorem larger_exact (x y : Rat) : Arithmetic.larger x y = max x y := by
  show (if decide (x < y) = true then y else x) = max x y
  rw [max_def]
  by_cases h : x < y
  · rw [if_pos (decide_eq_true h), if_pos h.le]
  · rw [if_neg (by simpa using h)]
    split
    · next hle => exact le_antisymm hle (not_lt.1 h)
    · rfl

/-- Over exact numbers there is a course between any two boxes: between the facing sides where
there is a gap, else around the right of both. -/
theorem courseBetween_exact (m : Metrics) (s : RoutingSettings) (fromX toX : Rat) :
    courseBetween m s fromX toX = .ok (
      if fromX + m.width < toX then
        ⟨.leftToRight, fromX + m.width + s.endpointOffset,
          (fromX + m.width + s.endpointOffset + (toX - s.endpointOffset)) / 2,
          toX - s.endpointOffset, (0, 180)⟩
      else if toX + m.width < fromX then
        ⟨.rightToLeft, fromX - s.endpointOffset,
          (fromX - s.endpointOffset + (toX + m.width + s.endpointOffset)) / 2,
          toX + m.width + s.endpointOffset, (180, 0)⟩
      else
        ⟨.detour, fromX + m.width + s.endpointOffset,
          max (fromX + m.width) (toX + m.width) + s.detourPadding,
          toX + m.width + s.endpointOffset, (0, 0)⟩) := by
  have hwidth : (m.boxWidth : Rat) = m.width := Int.cast_natCast m.width
  have hsetting : ∀ n : Nat, (ofSetting n : Rat) = n := Int.cast_natCast
  have hadd : ∀ x y : Rat, Arithmetic.add x y = .ok (x + y) := fun _ _ => rfl
  have hsub : ∀ x y : Rat, Arithmetic.sub x y = .ok (x - y) := fun _ _ => rfl
  have hmidway : ∀ x y : Rat, midway x y = .ok ((x + y) / 2) := fun _ _ => rfl
  have hlt : ∀ x y : Rat, Arithmetic.lt x y = decide (x < y) := fun _ _ => rfl
  simp only [courseBetween, hwidth, hsetting, hadd, hsub, hmidway, hlt, larger_exact, bind,
    Except.bind, pure, Except.pure, decide_eq_true_eq]
  split
  · rfl
  · split <;> rfl

/-- A course leaves and bends on one outer side of the box that it leaves, and it bends and
arrives on one outer side of the other box. -/
theorem courseBetween_outside (h : courseBetween m s fromX toX = .ok course) :
    Box.Outside fromX m.width course.leaves course.bend ∧
      Box.Outside toX m.width course.arrives course.bend := by
  have hoffset : (0 : Rat) ≤ s.endpointOffset := Nat.cast_nonneg _
  have hpadding : (0 : Rat) ≤ s.detourPadding := Nat.cast_nonneg _
  rw [courseBetween_exact, Except.ok.injEq] at h
  rw [← h]
  split
  · -- the bend lies in the middle of the gap
    exact ⟨Or.inr ⟨by dsimp only; linarith, by dsimp only; linarith⟩,
      Or.inl ⟨by dsimp only; linarith, by dsimp only; linarith⟩⟩
  · split
    · exact ⟨Or.inl ⟨by dsimp only; linarith, by dsimp only; linarith⟩,
        Or.inr ⟨by dsimp only; linarith, by dsimp only; linarith⟩⟩
    · have hfrom := le_max_left (fromX + m.width : Rat) (toX + m.width)
      have hto := le_max_right (fromX + m.width : Rat) (toX + m.width)
      exact ⟨Or.inr ⟨by dsimp only; linarith, by dsimp only; linarith⟩,
        Or.inr ⟨by dsimp only; linarith, by dsimp only; linarith⟩⟩

/-- When the boxes are separated across by room for both ends, the ends of a course do not cross
over: each end lies on the same outer side of the other box as the bend. -/
theorem courseBetween_outside_of_apart {spacing : Rat} (hone : 1 ≤ spacing)
    (hroom : 2 * s.endpointOffset ≤ spacing)
    (hapart : toX + m.width + spacing ≤ fromX ∨ fromX + m.width + spacing ≤ toX)
    (h : courseBetween m s fromX toX = .ok course) :
    Box.Outside fromX m.width course.arrives course.bend ∧
      Box.Outside toX m.width course.leaves course.bend := by
  have hwidth : (0 : Rat) ≤ m.width := Nat.cast_nonneg _
  have hoffset : (0 : Rat) ≤ s.endpointOffset := Nat.cast_nonneg _
  rw [courseBetween_exact, Except.ok.injEq] at h
  rw [← h]
  rcases hapart with hapart | hapart
  · rw [if_neg (by linarith), if_pos (by linarith)]
    exact ⟨Or.inl ⟨by dsimp only; linarith, by dsimp only; linarith⟩,
      Or.inr ⟨by dsimp only; linarith, by dsimp only; linarith⟩⟩
  · rw [if_pos (by linarith)]
    exact ⟨Or.inr ⟨by dsimp only; linarith, by dsimp only; linarith⟩,
      Or.inl ⟨by dsimp only; linarith, by dsimp only; linarith⟩⟩

end

/-! ## Rows -/

section

variable {m : Metrics}

/-- The middle of a row lies between the upper and the lower side of its box. -/
theorem rowCenter_within (hcenter : m.fieldCenterOffset ≤ m.fieldHeight) {y rowY : Rat}
    {i n : Nat} (hi : i < n) (h : rowCenter m y (ofSetting i) = .ok rowY) :
    y ≤ rowY ∧ rowY ≤ y + m.tableHeight n := by
  have hrow : y + ((m.headerHeight : Int) : Rat) + ((i : Int) : Rat) * ((m.fieldHeight : Int) : Rat) +
      ((m.fieldCenterOffset : Int) : Rat) = rowY := Except.ok.inj h
  push_cast at hrow
  have hheight : m.headerHeight + i * m.fieldHeight + m.fieldCenterOffset ≤ m.tableHeight n := by
    have hrows : (i + 1) * m.fieldHeight ≤ n * m.fieldHeight := Nat.mul_le_mul_right _ hi
    rw [Nat.add_mul, Nat.one_mul] at hrows
    rw [Metrics.tableHeight]
    omega
  have hheight' : (m.headerHeight + i * m.fieldHeight + m.fieldCenterOffset : Rat) ≤
      m.tableHeight n := by exact_mod_cast hheight
  have hnonneg : (0 : Rat) ≤ m.headerHeight + i * m.fieldHeight + m.fieldCenterOffset := by
    exact_mod_cast Nat.zero_le _
  constructor
  · linarith
  · linarith

/-- A height between the sides of one of two boxes that are separated downwards lies outside the
other box. -/
theorem Box.outside_of_within {a b : Box Rat} {spacing rowY : Rat} (hspacing : 0 ≤ spacing)
    (hapart : b.corner.y + m.tableHeight b.fieldCount + spacing ≤ a.corner.y ∨
      a.corner.y + m.tableHeight a.fieldCount + spacing ≤ b.corner.y)
    (hlow : a.corner.y ≤ rowY) (hhigh : rowY ≤ a.corner.y + m.tableHeight a.fieldCount) :
    Box.Outside b.corner.y (m.tableHeight b.fieldCount) rowY rowY := by
  rcases hapart with h | h
  · exact Or.inr ⟨by linarith, by linarith⟩
  · exact Or.inl ⟨by linarith, by linarith⟩

end

/-! ## Connectors -/

section

variable {m : Metrics} {course : Course Rat} {fromY toY : Rat}

/-- The line along a course goes across, down and across. -/
theorem Course.line_isOrthogonal (course : Course Rat) (fromY toY : Rat) :
    IsOrthogonal (course.line fromY toY) := by
  simp [IsOrthogonal, segmentsOf, line]

/-- The line along a course keeps out of a box when it bends beside it and each of its ends lies
on the same side as the bend, or at a height outside the box. -/
theorem Course.line_avoids {b : Box Rat}
    (hbend : Box.Outside b.corner.x m.width course.bend course.bend)
    (hleaves : Box.Outside b.corner.x m.width course.leaves course.bend ∨
      Box.Outside b.corner.y (m.tableHeight b.fieldCount) fromY fromY)
    (harrives : Box.Outside b.corner.x m.width course.arrives course.bend ∨
      Box.Outside b.corner.y (m.tableHeight b.fieldCount) toY toY)
    {point : Point ℝ} (hpoint : OnLine (course.line fromY toY) point) : ¬ b.Inside m point := by
  obtain ⟨⟨p, q⟩, hsegment, hpoint⟩ := hpoint
  refine Box.not_inside_of_outside ?_ hpoint
  simp only [segmentsOf, line, List.tail_cons, List.zip_cons_cons, List.zip_nil_right,
    List.mem_cons, Prod.mk.injEq, List.not_mem_nil, or_false] at hsegment
  rcases hsegment with ⟨rfl, rfl⟩ | ⟨rfl, rfl⟩ | ⟨rfl, rfl⟩
  · exact hleaves
  · exact Or.inl hbend
  · exact harrives.imp Box.Outside.symm id

/-- **A connector keeps out of its own tables**: its line consists of horizontal and vertical
segments, and no point of it lies inside a box of one of the two tables, if these are one table or
keep a distance in which both ends of the connector have room. -/
theorem routeBetween_avoids {s : RoutingSettings} {r : Relationship} {source target : Table Rat}
    {a b : Box Rat} {c : Connector Rat} (hcenter : m.fieldCenterOffset ≤ m.fieldHeight)
    (ha : source.box? = some a) (hb : target.box? = some b)
    (hapart : source = target ∨ ∃ spacing : Rat, max 1 (2 * s.endpointOffset : Rat) ≤ spacing ∧
      Box.overlaps m spacing a b = .ok false)
    (h : routeBetween m s r source target = .ok (some c)) :
    c.points.length = 4 ∧ IsOrthogonal c.points ∧
      ∀ point, OnLine c.points point → ¬ a.Inside m point ∧ ¬ b.Inside m point := by
  obtain ⟨p, i, q, j, fromY, toY, course, hp, hq, hfrom, hto, hcourse, hc⟩ :=
    routeBetween_eq_some h
  obtain ⟨hsource, hi⟩ := Table.fieldPlace?_eq_some_iff.1 hp
  obtain ⟨htarget, hj⟩ := Table.fieldPlace?_eq_some_iff.1 hq
  rw [Table.box?, hsource, Option.map_some, Option.some.injEq] at ha
  rw [Table.box?, htarget, Option.map_some, Option.some.injEq] at hb
  subst ha hb
  rw [(Course.connector_points hc).2]
  refine ⟨rfl, course.line_isOrthogonal fromY toY, fun point hpoint => ?_⟩
  obtain ⟨hnear, hfar⟩ := courseBetween_outside hcourse
  obtain ⟨hfromLow, hfromHigh⟩ := rowCenter_within hcenter (fieldIndex?_lt hi) hfrom
  obtain ⟨htoLow, htoHigh⟩ := rowCenter_within hcenter (fieldIndex?_lt hj) hto
  -- what each end does beside the other table's box
  have hends : (Box.Outside p.x m.width course.arrives course.bend ∨
        Box.Outside p.y (m.tableHeight source.fields.length) toY toY) ∧
      (Box.Outside q.x m.width course.leaves course.bend ∨
        Box.Outside q.y (m.tableHeight target.fields.length) fromY fromY) := by
    rcases hapart with rfl | ⟨spacing, hspacing, hclear⟩
    · rw [hsource, Option.some.injEq] at htarget
      subst htarget
      exact ⟨Or.inl hfar, Or.inl hnear⟩
    · have hone : (1 : Rat) ≤ spacing := (le_max_left _ _).trans hspacing
      have hroom : (2 * s.endpointOffset : Rat) ≤ spacing := (le_max_right _ _).trans hspacing
      rw [Box.overlaps_exact, Except.ok.injEq, decide_eq_false_iff_not, not_not] at hclear
      rcases hclear with hacross | hdown
      · obtain ⟨harrives, hleaves⟩ :=
          courseBetween_outside_of_apart hone hroom hacross hcourse
        exact ⟨Or.inl harrives, Or.inl hleaves⟩
      · have hnonneg : (0 : Rat) ≤ spacing := by linarith
        constructor
        · exact Or.inr (Box.outside_of_within (a := ⟨q, target.fields.length⟩)
            (b := ⟨p, source.fields.length⟩) hnonneg hdown.symm htoLow htoHigh)
        · exact Or.inr (Box.outside_of_within (a := ⟨p, source.fields.length⟩)
            (b := ⟨q, target.fields.length⟩) hnonneg hdown hfromLow hfromHigh)
  constructor
  · exact Course.line_avoids (b := ⟨p, source.fields.length⟩) hnear.bend (Or.inl hnear) hends.1
      hpoint
  · exact Course.line_avoids (b := ⟨q, target.fields.length⟩) hfar.bend hends.2 (Or.inl hfar)
      hpoint

/-- Two tables of which one stands just to the right of the other, and below it: the gap between
them has no room for both ends of a connector, so the ends cross over. -/
def narrowGap : Table Rat × Table Rat :=
  let id : Field := ⟨"id", "int", true, true, none⟩
  (⟨⟨"a", [id]⟩, some ⟨0, 0⟩⟩, ⟨⟨"b", [id, { id with name := "a_id" }]⟩, some ⟨201, 65⟩⟩)

theorem routeBetween_avoids_narrowGap :
    ∃ c, routeBetween Config.default.metrics Config.default.routing
        ⟨"a", "id", "b", "a_id", .oneToMany⟩ narrowGap.1 narrowGap.2 = .ok (some c) ∧
      c.points.length = 4 ∧ IsOrthogonal c.points ∧
      ∀ point, OnLine c.points point →
        ¬ Box.Inside Config.default.metrics ⟨⟨0, 0⟩, 1⟩ point ∧
          ¬ Box.Inside Config.default.metrics ⟨⟨201, 65⟩, 2⟩ point := by
  have hclear : Box.overlaps Config.default.metrics (6 : Rat) ⟨⟨0, 0⟩, 1⟩ ⟨⟨201, 65⟩, 2⟩ =
      .ok false := by decide +kernel
  have hdrawn : ((routeBetween Config.default.metrics Config.default.routing
      ⟨"a", "id", "b", "a_id", .oneToMany⟩ narrowGap.1 narrowGap.2).toOption.join).isSome := by
    decide +kernel
  cases h : routeBetween Config.default.metrics Config.default.routing
      ⟨"a", "id", "b", "a_id", .oneToMany⟩ narrowGap.1 narrowGap.2 with
  | error fault => rw [h] at hdrawn; exact nomatch hdrawn
  | ok drawn =>
    cases drawn with
    | none => rw [h] at hdrawn; exact nomatch hdrawn
    | some c =>
      exact ⟨c, rfl, routeBetween_avoids (by decide) rfl rfl
        (Or.inr ⟨6, by norm_num [Config.default], hclear⟩) h⟩

end

end SchemaDiagram
