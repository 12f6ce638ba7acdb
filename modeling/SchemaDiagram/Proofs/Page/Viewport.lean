/-
# The picture holds the drawing

The picture of a page is as large as the boxes of its tables need, with a margin to the right and
below.  Tables without a known position are placed behind the anchor of the canvas, so their boxes
lie in the picture, and connectors stay level with the boxes.  Across, connectors reach beyond the
boxes by the endpoint offset and by the padding of detours, and the margin has no regard to these:
the picture holds the connectors where the margin is as wide.

* `Point.Inside` : a point in a picture;
* `extent_exact` : the size of a picture;
* `courseBetween_reach`, `Point.Reached` : how far a connector reaches;
* `Config.MarginSuffices` : the settings for which the margin is wide enough;
* `Diagram.build_inside` : what lies inside the picture of a page;
* `Diagram.not_all_inside` : a detour that leaves its picture.
-/
import SchemaDiagram.Proofs.Diagram.Frame
import SchemaDiagram.Proofs.Page.Attachment
import SchemaDiagram.Proofs.Placement.Search

namespace SchemaDiagram

/-- A point lies inside a picture of a size. -/
structure Point.Inside (q size : Point Rat) : Prop where
  left : 0 ≤ q.x
  right : q.x ≤ size.x
  top : 0 ≤ q.y
  bottom : q.y ≤ size.y

/-- The corners of a box that is drawn. -/
def TableView.corners (v : TableView Rat) : List (Point Rat) :=
  [v.corner, ⟨v.corner.x + v.width, v.corner.y⟩, ⟨v.corner.x, v.corner.y + v.height⟩,
    ⟨v.corner.x + v.width, v.corner.y + v.height⟩]

/-! ## The size of a picture -/

section

variable {m : Metrics} {margin : Rat} {boxes : List (Box Rat)}

/-- The corner of a region lies behind the point where it starts and behind all boxes in it. -/
theorem farCorner_exact (m : Metrics) (start : Point Rat) (boxes : List (Box Rat)) :
    ∃ far, farCorner m start boxes = .ok far ∧ start.x ≤ far.x ∧ start.y ≤ far.y ∧
      ∀ b ∈ boxes, b.corner.x + m.width ≤ far.x ∧
        b.corner.y + m.tableHeight b.fieldCount ≤ far.y := by
  induction boxes generalizing start with
  | nil => exact ⟨start, rfl, le_rfl, le_rfl, fun _ hb => absurd hb List.not_mem_nil⟩
  | cons b rest ih =>
    obtain ⟨far, hfar, hx, hy, hrest⟩ := ih ⟨max start.x (b.corner.x + m.width),
      max start.y (b.corner.y + m.tableHeight b.fieldCount)⟩
    obtain ⟨hstartx, hboxx⟩ := max_le_iff.1 hx
    obtain ⟨hstarty, hboxy⟩ := max_le_iff.1 hy
    refine ⟨far, ?_, hstartx, hstarty, List.forall_mem_cons.2 ⟨⟨hboxx, hboxy⟩, hrest⟩⟩
    rw [← hfar, ← larger_exact, ← larger_exact]
    rfl

/-- **The size of a picture** is that of a region with all boxes in it and the margin. -/
theorem extent_exact {size : Point Rat} (h : extent m margin boxes = .ok size) :
    margin ≤ size.x ∧ margin ≤ size.y ∧
      ∀ b ∈ boxes, b.corner.x + m.width + margin ≤ size.x ∧
        b.corner.y + m.tableHeight b.fieldCount + margin ≤ size.y := by
  obtain ⟨far, hfar, hx, hy, hboxes⟩ := farCorner_exact m ⟨0, 0⟩ boxes
  obtain ⟨far', hfar', h⟩ := bind_eq_ok.1 h
  obtain rfl : far = far' := Except.ok.inj (hfar.symm.trans hfar')
  have hsize : (⟨far.x + margin, far.y + margin⟩ : Point Rat) = size := Except.ok.inj h
  rw [← hsize]
  refine ⟨le_add_of_nonneg_left hx, le_add_of_nonneg_left hy, fun b hb => ?_⟩
  obtain ⟨hbx, hby⟩ := hboxes b hb
  exact ⟨add_le_add_left hbx _, add_le_add_left hby _⟩

end

/-! ## How far connectors reach -/

section

variable {m : Metrics} {s : RoutingSettings} {fromX toX : Rat} {course : Course Rat}

/-- **Across**, a course between boxes behind `low` begins behind a box, but for the endpoint offset
in front of the other one.  It ends before the last of the boxes, but for the endpoint offset and the
padding of a detour. -/
theorem courseBetween_reach {low high : Rat} (hfrom : low ≤ fromX) (hto : low ≤ toX)
    (hfrom' : fromX + m.width ≤ high) (hto' : toX + m.width ≤ high)
    (h : courseBetween m s fromX toX = .ok course) :
    ∀ x ∈ [course.leaves, course.bend, course.arrives],
      low + m.width ≤ x + s.endpointOffset ∧
        x ≤ high + max (s.endpointOffset : Rat) s.detourPadding := by
  have hwidth : (0 : Rat) ≤ m.width := Nat.cast_nonneg _
  have hoffset : (0 : Rat) ≤ s.endpointOffset := Nat.cast_nonneg _
  have hpadding : (0 : Rat) ≤ s.detourPadding := Nat.cast_nonneg _
  have hleft := le_max_left (s.endpointOffset : Rat) s.detourPadding
  have hright := le_max_right (s.endpointOffset : Rat) s.detourPadding
  rw [courseBetween_exact, Except.ok.injEq] at h
  rw [← h]
  simp only [List.forall_mem_cons, List.not_mem_nil, false_implies, implies_true, and_true]
  split
  · -- between the boxes, the bend lies half way between the ends
    refine ⟨⟨?_, ?_⟩, ⟨?_, ?_⟩, ?_, ?_⟩ <;> dsimp only <;> linarith
  · split
    · refine ⟨⟨?_, ?_⟩, ⟨?_, ?_⟩, ?_, ?_⟩ <;> dsimp only <;> linarith
    · have hfar := le_max_left (fromX + m.width : Rat) (toX + m.width)
      have hwithin := max_le hfrom' hto'
      refine ⟨⟨?_, ?_⟩, ⟨?_, ?_⟩, ?_, ?_⟩ <;> dsimp only <;> linarith

/-- The settings for which the margin of a picture is wide enough for connectors. -/
structure Config.MarginSuffices (c : Config) : Prop where
  detourPadding : c.routing.detourPadding ≤ viewportMargin
  endpointOffset : c.routing.endpointOffset ≤ viewportMargin
  anchor : c.routing.endpointOffset ≤ c.bounds.minX + c.bounds.padding + c.metrics.width

end

/-! ## What a picture holds -/

section

variable {c : Config} {text : List Char} {title : String} {d : Diagram Rat} {page : Page Rat}

/-- A table of a diagram without known positions is placed behind the anchor of the canvas. -/
theorem Diagram.behind_anchor (h : Diagram.build c text .empty .empty = .ok d) {name : String}
    {t : Table Rat} (ht : d.tables.get? name = some t) :
    ∃ p, t.position = some p ∧ (c.bounds.minX + c.bounds.padding : Rat) ≤ p.x ∧
      (c.bounds.minY + c.bounds.padding : Rat) ≤ p.y := by
  obtain ⟨before, after, hkeys⟩ := List.append_of_mem ((Registry.mem_keys_iff _ _).2 ⟨t, ht⟩)
  obtain ⟨t', p, ht', hposition, hp⟩ := Diagram.allocate_of_build h hkeys rfl
  rw [ht, Option.some.injEq] at ht'
  subst ht'
  have hwithin := (Config.allocate_spec hp).1
  refine ⟨_, hposition, ?_, ?_⟩
  · have hx : ((c.bounds.minX + c.bounds.padding : ℤ) : Rat) ≤ (p.position.x : ℤ) :=
      Int.cast_le.2 hwithin.x.1
    push_cast at hx
    exact hx
  · have hy : ((c.bounds.minY + c.bounds.padding : ℤ) : Rat) ≤ (p.position.y : ℤ) :=
      Int.cast_le.2 hwithin.y.1
    push_cast at hy
    exact hy

/-- The picture of a page holds the far corner of the box of each placed table, and the margin. -/
theorem Page.size_of_table (h : Page.ofDiagram c title d = .ok page) {name : String} {t : Table Rat}
    {p : Point Rat} (ht : d.tables.get? name = some t) (hp : t.position = some p) :
    p.x + c.metrics.width + viewportMargin ≤ page.size.x ∧
      p.y + c.metrics.tableHeight t.fields.length + viewportMargin ≤ page.size.y := by
  obtain ⟨size, hsize, h⟩ := bind_eq_ok.1 h
  obtain ⟨tables, -, h⟩ := bind_eq_ok.1 h
  rw [← pure_eq_ok.1 h]
  have hbox : (⟨p, t.fields.length⟩ : Box Rat) ∈ boxesOf d.tables.values :=
    List.mem_filterMap.2 ⟨t, (Registry.mem_values_iff _ _).2 ⟨name, ht⟩, by rw [Table.box?, hp]; rfl⟩
  exact (extent_exact hsize).2.2 _ hbox

/-- A box on a page is that of a table of the diagram. -/
theorem Page.table_of_mem (h : Page.ofDiagram c title d = .ok page) {v : TableView Rat}
    (hv : v ∈ page.tables) :
    ∃ name t p, d.tables.get? name = some t ∧ t.position = some p ∧
      TableView.ofTable c.metrics t p = .ok v := by
  obtain ⟨size, -, h⟩ := bind_eq_ok.1 h
  obtain ⟨tables, htables, h⟩ := bind_eq_ok.1 h
  rw [← pure_eq_ok.1 h] at hv
  obtain ⟨⟨t, p⟩, hmem, hv⟩ := exists_of_mem_mapM htables hv
  obtain ⟨t', hvalue, hplaced⟩ := List.mem_filterMap.1 hmem
  obtain ⟨q, hq, heq⟩ := Option.map_eq_some_iff.1 hplaced
  cases heq
  obtain ⟨name, hget⟩ := (Registry.mem_values_iff _ _).1 hvalue
  exact ⟨name, t, p, hget, hq, hv⟩

/-- A page has the connectors of its diagram. -/
theorem Page.connectors_of_diagram (h : Page.ofDiagram c title d = .ok page) :
    page.connectors = d.connectors := by
  obtain ⟨size, -, h⟩ := bind_eq_ok.1 h
  obtain ⟨tables, -, h⟩ := bind_eq_ok.1 h
  rw [← pure_eq_ok.1 h]

/-- Every corner of a box on a page lies inside the picture. -/
theorem Diagram.corners_inside (h : Diagram.build c text .empty .empty = .ok d)
    (hp : Page.ofDiagram c title d = .ok page) {v : TableView Rat} (hv : v ∈ page.tables)
    {q : Point Rat} (hq : q ∈ v.corners) : q.Inside page.size := by
  obtain ⟨name, t, p, ht, hposition, hview⟩ := Page.table_of_mem hp hv
  obtain ⟨-, hcorner, hwidth, hheight⟩ := TableView.corner_of_table hview
  obtain ⟨p', hp', hleft, htop⟩ := Diagram.behind_anchor h ht
  rw [hposition, Option.some.injEq] at hp'
  subst hp'
  obtain ⟨hright, hbottom⟩ := Page.size_of_table hp ht hposition
  have hmargin : (0 : Rat) ≤ viewportMargin := Nat.cast_nonneg _
  have hanchorX : (0 : Rat) ≤ c.bounds.minX + c.bounds.padding := by positivity
  have hanchorY : (0 : Rat) ≤ c.bounds.minY + c.bounds.padding := by positivity
  have hacross : (0 : Rat) ≤ c.metrics.width := Nat.cast_nonneg _
  have hdown : (0 : Rat) ≤ c.metrics.tableHeight t.fields.length := Nat.cast_nonneg _
  rw [TableView.corners, hcorner, hwidth, hheight] at hq
  simp only [List.mem_cons, List.not_mem_nil, or_false] at hq
  rcases hq with rfl | rfl | rfl | rfl <;> constructor <;> linarith

/-- How far the points of a connector reach in a picture of a size. -/
structure Point.Reached (c : Config) (q size : Point Rat) : Prop where
  left : (c.bounds.minX + c.bounds.padding + c.metrics.width : Rat) ≤ q.x + c.routing.endpointOffset
  right : q.x + viewportMargin ≤
    size.x + max (c.routing.endpointOffset : Rat) c.routing.detourPadding
  top : (c.bounds.minY + c.bounds.padding : Rat) ≤ q.y
  bottom : q.y + viewportMargin ≤ size.y

/-- Every point of a connector is in reach of the boxes of its tables. -/
theorem Diagram.connectors_reach (hcenter : c.metrics.fieldCenterOffset ≤ c.metrics.fieldHeight)
    (h : Diagram.build c text .empty .empty = .ok d) (hp : Page.ofDiagram c title d = .ok page)
    {k : Connector Rat} (hk : k ∈ page.connectors) {q : Point Rat} (hq : q ∈ k.points) :
    q.Reached c page.size := by
  rw [Page.connectors_of_diagram hp] at hk
  obtain ⟨r, source, target, hsource, htarget, hroute⟩ := connector_of_build h hk
  obtain ⟨a, i, b, j, fromY, toY, course, ha, hb, hfrom, hto, hcourse, hpoints⟩ :=
    routeBetween_eq_some hroute
  obtain ⟨hsourceAt, hi⟩ := Table.fieldPlace?_eq_some_iff.1 ha
  obtain ⟨htargetAt, hj⟩ := Table.fieldPlace?_eq_some_iff.1 hb
  obtain ⟨a', ha', haLeft, haTop⟩ := Diagram.behind_anchor h hsource
  obtain ⟨b', hb', hbLeft, hbTop⟩ := Diagram.behind_anchor h htarget
  rw [hsourceAt, Option.some.injEq] at ha'
  rw [htargetAt, Option.some.injEq] at hb'
  subst ha' hb'
  obtain ⟨haRight, haBottom⟩ := Page.size_of_table hp hsource hsourceAt
  obtain ⟨hbRight, hbBottom⟩ := Page.size_of_table hp htarget htargetAt
  obtain ⟨hfromLow, hfromHigh⟩ := rowCenter_within hcenter (fieldIndex?_lt hi) hfrom
  obtain ⟨htoLow, htoHigh⟩ := rowCenter_within hcenter (fieldIndex?_lt hj) hto
  have hacross := courseBetween_reach haLeft hbLeft (le_sub_iff_add_le.2 haRight)
    (le_sub_iff_add_le.2 hbRight) hcourse
  have hdown : ∀ y ∈ [fromY, toY],
      (c.bounds.minY + c.bounds.padding : Rat) ≤ y ∧ y + viewportMargin ≤ page.size.y := by
    simp only [List.forall_mem_cons, List.not_mem_nil, false_implies, implies_true, and_true]
    exact ⟨⟨by linarith, by linarith⟩, by linarith, by linarith⟩
  rw [(Course.connector_points hpoints).2] at hq
  have hx : q.x ∈ [course.leaves, course.bend, course.arrives] := by
    simp only [Course.line, List.mem_cons, List.not_mem_nil, or_false] at hq
    rcases hq with rfl | rfl | rfl | rfl <;> simp
  have hy : q.y ∈ [fromY, toY] := by
    simp only [Course.line, List.mem_cons, List.not_mem_nil, or_false] at hq
    rcases hq with rfl | rfl | rfl | rfl <;> simp
  obtain ⟨hleft, hright⟩ := hacross _ hx
  obtain ⟨htop, hbottom⟩ := hdown _ hy
  exact ⟨hleft, by linarith, htop, hbottom⟩

/-- Where the margin is wide enough, points in reach lie inside the picture. -/
theorem Point.Reached.inside {size q : Point Rat} (hc : c.MarginSuffices) (h : q.Reached c size) :
    q.Inside size := by
  have hdetour : (c.routing.detourPadding : Rat) ≤ viewportMargin := Nat.cast_le.2 hc.detourPadding
  have hoffset : (c.routing.endpointOffset : Rat) ≤ viewportMargin :=
    Nat.cast_le.2 hc.endpointOffset
  have hanchor : (c.routing.endpointOffset : Rat) ≤
      c.bounds.minX + c.bounds.padding + c.metrics.width := by exact_mod_cast hc.anchor
  have htop : (0 : Rat) ≤ c.bounds.minY + c.bounds.padding := by positivity
  have hmargin : (0 : Rat) ≤ viewportMargin := Nat.cast_nonneg _
  exact {
    left := by linarith [h.left]
    right := by linarith [h.right, max_le hoffset hdetour]
    top := htop.trans h.top
    bottom := by linarith [h.bottom] }

/-- **What the picture of a page holds**, if no position was known: every corner of every box, and
every connector from top to bottom.  To the left and to the right connectors leave it by no more than
the endpoint offset and the padding of detours exceed the room there, and so not at all where the
margin suffices. -/
theorem Diagram.build_inside (hcenter : c.metrics.fieldCenterOffset ≤ c.metrics.fieldHeight)
    (h : Diagram.build c text .empty .empty = .ok d) (hp : Page.ofDiagram c title d = .ok page) :
    (∀ v ∈ page.tables, ∀ q ∈ v.corners, q.Inside page.size) ∧
      ∀ k ∈ page.connectors, ∀ q ∈ k.points,
        (0 ≤ q.y ∧ q.y ≤ page.size.y) ∧ q.Reached c page.size ∧
          (c.MarginSuffices → q.Inside page.size) := by
  constructor
  · intro v hv q hq
    exact Diagram.corners_inside h hp hv hq
  · intro k hk q hq
    have hreach := Diagram.connectors_reach hcenter h hp hk hq
    have htop : (0 : Rat) ≤ c.bounds.minY + c.bounds.padding := by positivity
    have hmargin : (0 : Rat) ≤ viewportMargin := Nat.cast_nonneg _
    exact ⟨⟨htop.trans hreach.top, by linarith [hreach.bottom]⟩, hreach, hreach.inside⟩

/-- A table that refers to itself. -/
def loopText : List Char :=
  "Table a \x7b\n  id int\n  up int [ref: > a.id]\n\x7d".toList

/-- The default settings, except that detours go further round than the margin is wide. -/
def wideDetours : Config :=
  { Config.default with routing := { Config.default.routing with detourPadding := 100 } }

/-- The default margin suffices for a detour. -/
theorem Diagram.build_inside_loop :
    ∃ (d : Diagram Rat) (page : Page Rat),
      Diagram.build .default loopText .empty .empty = .ok d ∧
        Page.ofDiagram .default "ER Diagram" d = .ok page ∧ page.tables.length = 1 ∧
        page.connectors.length = 1 ∧
        (∀ v ∈ page.tables, ∀ q ∈ v.corners, q.Inside page.size) ∧
        ∀ k ∈ page.connectors, ∀ q ∈ k.points,
          (0 ≤ q.y ∧ q.y ≤ page.size.y) ∧ q.Reached .default page.size ∧ q.Inside page.size := by
  have hcount : (do
      let d ← Diagram.build (α := Rat) .default loopText .empty .empty
      let page ← Page.ofDiagram .default "ER Diagram" d
      return (page.tables.length, page.connectors.length)) = .ok (1, 1) := by decide +kernel
  obtain ⟨d, h, hcount⟩ := bind_eq_ok.1 hcount
  obtain ⟨page, hp, hcount⟩ := bind_eq_ok.1 hcount
  rw [pure_eq_ok, Prod.mk.injEq] at hcount
  obtain ⟨hcorners, hpoints⟩ := Diagram.build_inside (by decide) h (lift_eq_ok.1 hp)
  refine ⟨d, page, h, lift_eq_ok.1 hp, hcount.1, hcount.2, hcorners, fun k hk q hq => ?_⟩
  obtain ⟨hdown, hreach, hinside⟩ := hpoints k hk q hq
  exact ⟨hdown, hreach, hinside ⟨by decide, by decide, by decide⟩⟩

/-- The margin has no regard to the padding of detours: some detours leave their picture. -/
theorem Diagram.not_all_inside :
    ¬ ∀ (c : Config) (text : List Char) (title : String) (d : Diagram Rat) (page : Page Rat),
      c.metrics.fieldCenterOffset ≤ c.metrics.fieldHeight →
      Diagram.build c text .empty .empty = .ok d → Page.ofDiagram c title d = .ok page →
      ∀ k ∈ page.connectors, ∀ q ∈ k.points, q.Inside page.size := by
  intro hall
  have hoverrun : (do
      let d ← Diagram.build (α := Rat) wideDetours loopText .empty .empty
      let page ← Page.ofDiagram wideDetours "ER Diagram" d
      return page.connectors.any fun k => k.points.any fun q => page.size.x < q.x) = .ok true := by
    decide +kernel
  obtain ⟨d, h, hoverrun⟩ := bind_eq_ok.1 hoverrun
  obtain ⟨page, hp, hoverrun⟩ := bind_eq_ok.1 hoverrun
  obtain ⟨k, hk, hany⟩ := List.any_eq_true.1 (pure_eq_ok.1 hoverrun)
  obtain ⟨q, hq, hfar⟩ := List.any_eq_true.1 hany
  have hinside := hall wideDetours loopText "ER Diagram" d page (by decide) h (lift_eq_ok.1 hp) k hk
    q hq
  exact absurd hinside.right (not_le.2 (of_decide_eq_true hfar))

end

end SchemaDiagram
