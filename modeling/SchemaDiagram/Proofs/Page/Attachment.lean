/-
# Connectors attach to the rows that are drawn

The heights of rows are worked out twice, for the ends of connectors and for the boxes of a page.
Both give the same, so every end of a connector is level with the row of its field, and it lies at
the endpoint offset beside the box of its table: on the left if its marker is turned round, and else
on the right.

* `RowView.baseline_ofField` : the two ways to work out the middle of a row;
* `TableView.row?_of_fieldIndex` : the row of the first field of a name;
* `Side` : the sides of a box at which a connector can end;
* `Marker.Attached`, `Connector.RunsBetweenMarkers` : a marker at a row of a box, and a path between
  two markers;
* `Diagram.build_attached` : every connector of a diagram ends at the rows of its fields.
-/
import SchemaDiagram.Page.View
import SchemaDiagram.Proofs.Connector.Clearance
import SchemaDiagram.Proofs.Diagram.Rendering

namespace SchemaDiagram

variable {α : Type}

/-- The row of the first field of a name in a box. -/
def TableView.row? (v : TableView α) (name : String) : Option (RowView α) :=
  v.rows.find? fun r => r.field.name = name

/-! ## Heights of rows -/

/-- Products of whole coordinates are those of the whole numbers. -/
class ExactProducts (α : Type) [Arithmetic α] : Prop where
  mul : ∀ a b : ℤ, Arithmetic.mul (Arithmetic.ofInt a : α) (Arithmetic.ofInt b) =
    .ok (Arithmetic.ofInt (a * b))

instance : ExactProducts Quantity := ⟨fun _ _ => rfl⟩

instance : ExactProducts Rat := ⟨fun a b => congrArg Except.ok (Int.cast_mul a b).symm⟩

section

variable [Arithmetic α] {m : Metrics} {t : Table α} {p : Point α} {v : TableView α}

/-- **The middle of a row** is worked out in the same way for a page and for the ends of
connectors. -/
theorem RowView.baseline_ofField [ExactProducts α] (m : Metrics) (y : α) (f : Field) (i : ℕ) :
    RowView.baseline <$> RowView.ofField m y f i = rowCenter m y (ofSetting i) := by
  have hshift : Arithmetic.mul (ofSetting i : α) (ofSetting m.fieldHeight) =
      .ok (ofSetting (i * m.fieldHeight)) := by
    rw [ofSetting, ofSetting, ofSetting, ExactProducts.mul, Nat.cast_mul]
  unfold RowView.ofField rowCenter
  rw [hshift]
  cases Arithmetic.add y (ofSetting m.headerHeight) with
  | error fault => rfl
  | ok header =>
    show RowView.baseline <$> (do
        let top ← Arithmetic.add header (ofSetting (i * m.fieldHeight))
        return RowView.mk f top (← Arithmetic.add top (ofSetting m.fieldCenterOffset))) =
      (do Arithmetic.add (← Arithmetic.add header (ofSetting (i * m.fieldHeight)))
            (ofSetting m.fieldCenterOffset))
    cases Arithmetic.add header (ofSetting (i * m.fieldHeight) : α) with
    | error fault => rfl
    | ok top =>
      show RowView.baseline <$> (do
          return RowView.mk f top (← Arithmetic.add top (ofSetting m.fieldCenterOffset))) =
        Arithmetic.add top (ofSetting m.fieldCenterOffset)
      cases Arithmetic.add top (ofSetting m.fieldCenterOffset : α) <;> rfl

/-- A row of which the middle can be worked out is drawn there. -/
theorem RowView.exists_ofField [ExactProducts α] {y rowY : α} {i : ℕ}
    (h : rowCenter m y (ofSetting i) = .ok rowY) (f : Field) :
    ∃ row, RowView.ofField m y f i = .ok row ∧ row.baseline = rowY := by
  rw [← RowView.baseline_ofField m y f i] at h
  exact map_eq_ok.1 h

/-- A row is that of its field. -/
theorem RowView.field_ofField {y : α} {f : Field} {i : ℕ} {row : RowView α}
    (h : RowView.ofField m y f i = .ok row) : row.field = f := by
  obtain ⟨header, -, h⟩ := bind_eq_ok.1 h
  obtain ⟨top, -, h⟩ := bind_eq_ok.1 h
  obtain ⟨baseline, -, h⟩ := bind_eq_ok.1 h
  rw [← pure_eq_ok.1 h]

/-- A box has its corner at the position of its table. -/
theorem TableView.corner_of_table (h : TableView.ofTable m t p = .ok v) :
    v.name = t.name ∧ v.corner = p ∧ v.width = m.width ∧ v.height = m.tableHeight t.fields.length := by
  obtain ⟨rows, -, h⟩ := bind_eq_ok.1 h
  rw [← pure_eq_ok.1 h]
  exact ⟨rfl, rfl, rfl, rfl⟩

/-- The box of a table has one row for each field. -/
theorem TableView.length_rows_of_table (h : TableView.ofTable m t p = .ok v) :
    v.rows.length = t.fields.length := by
  obtain ⟨rows, hrows, h⟩ := bind_eq_ok.1 h
  rw [← pure_eq_ok.1 h, ← (forall₂_of_mapM hrows).length_eq, List.length_zipIdx]

/-- The rows of a box are those of the fields of its table, in order. -/
theorem TableView.getElem?_rows (h : TableView.ofTable m t p = .ok v) (i : ℕ) {row : RowView α}
    (hrow : v.rows[i]? = some row) :
    ∃ f, t.fields[i]? = some f ∧ RowView.ofField m p.y f i = .ok row := by
  obtain ⟨rows, hrows, h⟩ := bind_eq_ok.1 h
  rw [← pure_eq_ok.1 h] at hrow
  obtain ⟨hlength, heach⟩ := List.forall₂_iff_get.1 (forall₂_of_mapM hrows)
  obtain ⟨hi, rfl⟩ := List.getElem?_eq_some_iff.1 hrow
  have hfield := heach i (hlength ▸ hi) hi
  rw [List.length_zipIdx] at hlength
  rw [List.get_eq_getElem, List.get_eq_getElem, List.getElem_zipIdx, Nat.zero_add] at hfield
  exact ⟨_, List.getElem?_eq_getElem (hlength ▸ hi), hfield⟩

/-- **The row of a name** in a box is that of the first field of the name. -/
theorem TableView.row?_of_fieldIndex (h : TableView.ofTable m t p = .ok v) {name : String} {i : ℕ}
    {f : Field} {row : RowView α} (hi : fieldIndex? t.fields name = some i)
    (hf : t.fields[i]? = some f) (hrow : RowView.ofField m p.y f i = .ok row) :
    v.row? name = some row := by
  have hlength := TableView.length_rows_of_table h
  have hfields : ∀ j (hj : j < v.rows.length) (hj' : j < t.fields.length),
      RowView.ofField m p.y t.fields[j] j = .ok v.rows[j] := by
    intro j hj hj'
    obtain ⟨g, hg, hrow⟩ := getElem?_rows h j (List.getElem?_eq_getElem hj)
    rw [List.getElem?_eq_getElem hj', Option.some.injEq] at hg
    rwa [hg]
  have hnames : ∀ j (hj : j < v.rows.length) (hj' : j < t.fields.length),
      v.rows[j].field.name = t.fields[j].name := fun j hj hj' => by
    rw [RowView.field_ofField (hfields j hj hj')]
  rw [fieldIndex?, List.findIdx?_eq_some_iff_getElem] at hi
  obtain ⟨hlt, hname, hfirst⟩ := hi
  have hrows : i < v.rows.length := hlength.symm ▸ hlt
  have hthere : v.rows[i] = row := by
    have hok := hfields i hrows hlt
    rw [List.getElem?_eq_getElem hlt, Option.some.injEq] at hf
    rw [hf, hrow, Except.ok.injEq] at hok
    exact hok.symm
  rw [row?, List.find?_eq_some_iff_getElem]
  refine ⟨?_, i, hrows, hthere, ?_⟩
  · rw [← hthere, hnames i hrows hlt]
    exact hname
  · intro j hj
    rw [hnames j (hj.trans hrows) (hj.trans hlt)]
    simpa using hfirst j hj

end

/-! ## Ends of paths -/

section

variable [Arithmetic α] {radius : α}

/-- The commands from a point through further ones go straight to the last one. -/
theorem getLast?_smoothFrom {start : Point α} {points : List (Point α)}
    {commands : List (PathCommand α)} (h : smoothFrom radius start points = .ok commands) :
    commands.getLast? = points.getLast?.map .lineTo := by
  induction points generalizing start commands with
  | nil =>
    cases h
    rfl
  | cons corner rest ih =>
    cases rest with
    | nil =>
      cases h
      rfl
    | cons after rest =>
      obtain ⟨turned, -, h⟩ := bind_eq_ok.1 h
      obtain ⟨others, hothers, h⟩ := bind_eq_ok.1 h
      rw [← pure_eq_ok.1 h, List.getLast?_append, ih hothers, List.getLast?_cons_cons,
        List.getLast?_cons]
      rfl

/-- A path starts at the first point of its line and goes straight to the last one. -/
theorem smooth_ends {start next : Point α} {rest : List (Point α)}
    {commands : List (PathCommand α)} (h : smooth radius (start :: next :: rest) = .ok commands) :
    commands.head? = some (.moveTo start) ∧
      commands.getLast? = (next :: rest).getLast?.map .lineTo := by
  obtain ⟨others, hothers, h⟩ := bind_eq_ok.1 h
  have hlast := getLast?_smoothFrom hothers
  rw [← pure_eq_ok.1 h]
  refine ⟨rfl, ?_⟩
  rw [List.getLast?_cons, hlast, List.getLast?_cons]
  rfl

end

/-- A connector whose line and whose path run from one marker to the other. -/
structure Connector.RunsBetweenMarkers (k : Connector α) : Prop where
  first_point : k.points.head? = some k.start.anchor
  last_point : k.points.getLast? = some k.finish.anchor
  first_command : k.commands.head? = some (.moveTo k.start.anchor)
  last_command : k.commands.getLast? = some (.lineTo k.finish.anchor)

/-! ## Sides of boxes -/

/-- A side of a box at which a connector can end. -/
inductive Side where
  | left
  | right

/-- The rotation of the markers at a side: those on the left are turned round. -/
def Side.rotation : Side → ℕ
  | .left => 180
  | .right => 0

section

variable [Arithmetic α] {m : Metrics} {s : RoutingSettings}

/-- The coordinate that lies at the endpoint offset beside the box that begins at `x`. -/
def Side.beside (m : Metrics) (s : RoutingSettings) (x : α) : Side → Except ArithmeticFault α
  | .left => Arithmetic.sub x (ofSetting s.endpointOffset)
  | .right => do Arithmetic.add (← Arithmetic.add x m.boxWidth) (ofSetting s.endpointOffset)

theorem Side.beside_right {x right r : α} (hright : Arithmetic.add x m.boxWidth = .ok right)
    (hr : Arithmetic.add right (ofSetting s.endpointOffset) = .ok r) :
    Side.right.beside m s x = .ok r :=
  bind_eq_ok.2 ⟨right, hright, hr⟩

/-- **A course** leaves and arrives at the endpoint offset beside the boxes, at the sides that the
rotations of its markers say. -/
theorem courseBetween_beside {fromX toX : α} {course : Course α}
    (h : courseBetween m s fromX toX = .ok course) :
    (∃ side : Side, course.rotations.1 = side.rotation ∧
        side.beside m s fromX = .ok course.leaves) ∧
      ∃ side : Side, course.rotations.2 = side.rotation ∧
        side.beside m s toX = .ok course.arrives := by
  rw [courseBetween] at h
  obtain ⟨fromRight, hfromRight, h⟩ := bind_eq_ok.1 h
  obtain ⟨toRight, htoRight, h⟩ := bind_eq_ok.1 h
  split at h
  · obtain ⟨leaves, hleaves, h⟩ := bind_eq_ok.1 h
    obtain ⟨arrives, harrives, h⟩ := bind_eq_ok.1 h
    obtain ⟨bend, -, h⟩ := bind_eq_ok.1 h
    rw [← pure_eq_ok.1 h]
    exact ⟨⟨.right, rfl, Side.beside_right hfromRight hleaves⟩, .left, rfl, harrives⟩
  · split at h
    · obtain ⟨leaves, hleaves, h⟩ := bind_eq_ok.1 h
      obtain ⟨arrives, harrives, h⟩ := bind_eq_ok.1 h
      obtain ⟨bend, -, h⟩ := bind_eq_ok.1 h
      rw [← pure_eq_ok.1 h]
      exact ⟨⟨.left, rfl, hleaves⟩, .right, rfl, Side.beside_right htoRight harrives⟩
    · obtain ⟨leaves, hleaves, h⟩ := bind_eq_ok.1 h
      obtain ⟨arrives, harrives, h⟩ := bind_eq_ok.1 h
      obtain ⟨bend, -, h⟩ := bind_eq_ok.1 h
      rw [← pure_eq_ok.1 h]
      exact ⟨⟨.right, rfl, Side.beside_right hfromRight hleaves⟩, .right, rfl,
        Side.beside_right htoRight harrives⟩

end

/-! ## Markers -/

section

variable [Arithmetic α] {c : Config}

/-- A marker level with the row of the first field of a name, beside the box of its table.  The
row is that of the box wherever the whole box can be drawn. -/
structure Marker.AttachedTo (c : Config) (t : Table α) (p : Point α) (field : String)
    (marker : Marker α) : Prop where
  level : ∃ i f row, fieldIndex? t.fields field = some i ∧ t.fields[i]? = some f ∧
    RowView.ofField c.metrics p.y f i = .ok row ∧ marker.anchor.y = row.baseline ∧
    ∀ v, TableView.ofTable c.metrics t p = .ok v → v.row? field = some row
  beside : ∃ side : Side, marker.rotation = side.rotation ∧
    side.beside c.metrics c.routing p.x = .ok marker.anchor.x

/-- A marker attached to a field of a table of a diagram. -/
def Marker.Attached (c : Config) (d : Diagram α) (table field : String) (marker : Marker α) :
    Prop :=
  ∃ t p, d.tables.get? table = some t ∧ t.position = some p ∧ marker.AttachedTo c t p field

/-- A connector that runs between the fields of its relationship. -/
structure Connector.Attached (c : Config) (d : Diagram α) (k : Connector α) : Prop
    extends k.RunsBetweenMarkers where
  start_attached : k.start.Attached c d k.relationship.fromTable k.relationship.fromField
  finish_attached : k.finish.Attached c d k.relationship.toTable k.relationship.toField

/-- A marker level with a row that is drawn, and beside the box. -/
theorem Marker.attachedTo_of_row [ExactProducts α] {t : Table α} {p : Point α} {field : String}
    {i : ℕ} {marker : Marker α} (hi : fieldIndex? t.fields field = some i)
    (hlevel : rowCenter c.metrics p.y (ofSetting i) = .ok marker.anchor.y)
    (hbeside : ∃ side : Side, marker.rotation = side.rotation ∧
      side.beside c.metrics c.routing p.x = .ok marker.anchor.x) :
    marker.AttachedTo c t p field := by
  have hlt := fieldIndex?_lt hi
  have hf := List.getElem?_eq_getElem hlt
  obtain ⟨row, hrow, hbaseline⟩ := RowView.exists_ofField hlevel t.fields[i]
  exact ⟨⟨i, _, row, hi, hf, hrow, hbaseline.symm,
    fun _ hv => TableView.row?_of_fieldIndex hv hi hf hrow⟩, hbeside⟩

/-- **A connector between two tables** runs from the row of the one field to that of the other. -/
theorem routeBetween_attached [ExactProducts α] {r : Relationship} {source target : Table α}
    {k : Connector α} (h : routeBetween c.metrics c.routing r source target = .ok (some k)) :
    k.relationship = r ∧ k.RunsBetweenMarkers ∧
      (∃ p, source.position = some p ∧ k.start.AttachedTo c source p r.fromField) ∧
      ∃ q, target.position = some q ∧ k.finish.AttachedTo c target q r.toField := by
  obtain ⟨p, i, q, j, fromY, toY, course, hp, hq, hfrom, hto, hcourse, hk⟩ :=
    routeBetween_eq_some h
  obtain ⟨hsource, hi⟩ := Table.fieldPlace?_eq_some_iff.1 hp
  obtain ⟨htarget, hj⟩ := Table.fieldPlace?_eq_some_iff.1 hq
  obtain ⟨hleaves, harrives⟩ := courseBetween_beside hcourse
  obtain ⟨commands, hcommands, hk⟩ := bind_eq_ok.1 hk
  obtain ⟨hfirst, hlast⟩ := smooth_ends hcommands
  rw [← pure_eq_ok.1 hk]
  exact ⟨rfl, ⟨rfl, rfl, hfirst, hlast⟩,
    ⟨p, hsource, Marker.attachedTo_of_row hi hfrom hleaves⟩,
    q, htarget, Marker.attachedTo_of_row hj hto harrives⟩

end

/-! ## Diagrams -/

/-- Over exact numbers a marker is attached to a field of a table when it is level with the row of
the field in the box that is drawn, and exactly at the endpoint offset beside this box: on its left
with a rotation of 180 degrees, or on its right with none. -/
def Marker.AttachedExactly (c : Config) (d : Diagram Rat) (table field : String)
    (marker : Marker Rat) : Prop :=
  ∃ t p v row, d.tables.get? table = some t ∧ t.position = some p ∧
    TableView.ofTable c.metrics t p = .ok v ∧ v.row? field = some row ∧
    marker.anchor.y = row.baseline ∧
    ((marker.rotation = 180 ∧ marker.anchor.x = v.corner.x - c.routing.endpointOffset) ∨
      (marker.rotation = 0 ∧ marker.anchor.x = v.corner.x + v.width + c.routing.endpointOffset))

section

variable {c : Config}

/-- Over exact numbers every row can be drawn, and so can every box. -/
theorem TableView.exists_exact (m : Metrics) (t : Table Rat) (p : Point Rat) :
    ∃ v, TableView.ofTable m t p = .ok v := by
  have hrows := mapM_eq_ok (l := t.fields.zipIdx)
    (f := fun e : Field × ℕ => RowView.ofField m p.y e.1 e.2) (fun _ _ => rfl)
  exact ⟨_, bind_eq_ok.2 ⟨_, hrows, rfl⟩⟩

/-- Over exact numbers a marker that is attached is so exactly. -/
theorem Marker.Attached.exact {d : Diagram Rat} {table field : String} {marker : Marker Rat}
    (h : marker.Attached c d table field) : marker.AttachedExactly c d table field := by
  obtain ⟨t, p, ht, hp, ⟨i, f, row, -, -, -, hlevel, hrow⟩, side, hrotation, hbeside⟩ := h
  obtain ⟨v, hv⟩ := TableView.exists_exact c.metrics t p
  obtain ⟨-, hcorner, hwidth, -⟩ := TableView.corner_of_table hv
  refine ⟨t, p, v, row, ht, hp, hv, hrow v hv, hlevel, ?_⟩
  rw [hcorner, hwidth]
  cases side with
  | left => exact Or.inl ⟨hrotation, (Except.ok.inj hbeside).symm⟩
  | right => exact Or.inr ⟨hrotation, (Except.ok.inj hbeside).symm⟩

/-- **Every connector of a diagram** runs between the rows of its fields. -/
theorem Diagram.attached_of_build [Arithmetic α] [ExactProducts α] {text : List Char}
    {recent : Registry (Point α)} {saved : Registry (Point α) LooseText} {d : Diagram α}
    (h : Diagram.build c text recent saved = .ok d) {k : Connector α} (hk : k ∈ d.connectors) :
    k.Attached c d := by
  obtain ⟨r, source, target, hsource, htarget, hroute⟩ := connector_of_build h hk
  obtain ⟨rfl, hruns, ⟨p, hp, hstart⟩, q, hq, hfinish⟩ := routeBetween_attached hroute
  exact ⟨hruns, ⟨source, p, hsource, hp, hstart⟩, target, q, htarget, hq, hfinish⟩

/-- **Connectors attach to the rows that are drawn.**  Each end of a connector of a diagram is where
the page draws the row of its field: at the same height, on the coordinates that a program computes
with, and over exact numbers exactly at the endpoint offset beside the box. -/
theorem Diagram.build_attached (c : Config) (text : List Char) :
    (∀ recent saved (d : Diagram Quantity), Diagram.build c text recent saved = .ok d →
      ∀ k ∈ d.connectors, k.Attached c d) ∧
    ∀ recent saved (d : Diagram Rat), Diagram.build c text recent saved = .ok d →
      ∀ k ∈ d.connectors, k.Attached c d ∧
        k.start.AttachedExactly c d k.relationship.fromTable k.relationship.fromField ∧
        k.finish.AttachedExactly c d k.relationship.toTable k.relationship.toField := by
  constructor
  · intro recent saved d h k hk
    exact attached_of_build h hk
  · intro recent saved d h k hk
    have hattached := attached_of_build h hk
    exact ⟨hattached, hattached.start_attached.exact, hattached.finish_attached.exact⟩

/-- A table that refers to itself, with two fields of one name, and a table that refers to it. -/
def doubledText : List Char :=
  "Table a \x7b\n  id int\n  up int [ref: > a.id]\n  id int\n\x7d\n".toList ++
    "Table b \x7b\n  a_id int [ref: > a.id]\n\x7d".toList

/-- The first of two rows of one name counts, for a loop as well as for a connector to it. -/
theorem Diagram.build_attached_doubled :
    (∃ d : Diagram Quantity, Diagram.build .default doubledText .empty .empty = .ok d ∧
      d.connectors.length = 2 ∧ ∀ k ∈ d.connectors, k.Attached .default d) ∧
    ∃ d : Diagram Rat, Diagram.build .default doubledText .empty .empty = .ok d ∧
      d.connectors.length = 2 ∧ ∀ k ∈ d.connectors, k.Attached .default d ∧
        k.start.AttachedExactly .default d k.relationship.fromTable k.relationship.fromField ∧
        k.finish.AttachedExactly .default d k.relationship.toTable k.relationship.toField := by
  constructor
  · have hcount : (fun d => d.connectors.length) <$>
        Diagram.build (α := Quantity) .default doubledText .empty .empty = .ok 2 := by decide +kernel
    obtain ⟨d, h, hlength⟩ := map_eq_ok.1 hcount
    exact ⟨d, h, hlength, (build_attached .default doubledText).1 _ _ d h⟩
  · have hcount : (fun d => d.connectors.length) <$>
        Diagram.build (α := Rat) .default doubledText .empty .empty = .ok 2 := by decide +kernel
    obtain ⟨d, h, hlength⟩ := map_eq_ok.1 hcount
    exact ⟨d, h, hlength, (build_attached .default doubledText).2 _ _ d h⟩

end

end SchemaDiagram
