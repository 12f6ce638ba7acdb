/-
# What a connector is made of

A relationship is drawn between two tables exactly when both of its fields have a row in a table
with a position.  The connector then runs along a course at the heights of the two rows.

* `Table.fieldPlace?_eq_some_iff` : where a field is drawn;
* `routeBetween_eq_some` : the rows and the course of a connector;
* `Course.line`, `Course.connector_points` : the points of a connector.
-/
import SchemaDiagram.Connector.Route
import SchemaDiagram.Proofs.Outcome

namespace SchemaDiagram

variable {α : Type}

/-! ## Rows -/

/-- A field is drawn where its table is, in the row of the first field of its name. -/
theorem Table.fieldPlace?_eq_some_iff {t : Table α} {field : String} {p : Point α} {i : Nat} :
    t.fieldPlace? field = some (p, i) ↔
      t.position = some p ∧ fieldIndex? t.fields field = some i := by
  rw [fieldPlace?]
  cases t.position with
  | none => simp
  | some q =>
    cases fieldIndex? t.fields field with
    | none => simp
    | some j => simp

/-- The row of a field is one of the rows of its table. -/
theorem fieldIndex?_lt {fields : List Field} {name : String} {i : Nat}
    (h : fieldIndex? fields name = some i) : i < fields.length := by
  rw [fieldIndex?, List.findIdx?_eq_some_iff_getElem] at h
  exact h.1

/-- A name has a row exactly when some field has the name. -/
theorem fieldIndex?_isSome_iff {fields : List Field} {name : String} :
    (fieldIndex? fields name).isSome ↔ ∃ f ∈ fields, f.name = name := by
  rw [fieldIndex?, List.findIdx?_isSome]
  simp

/-! ## Connectors -/

variable [Arithmetic α]

/-- The line along a course: at the height of one row to the bend, and then at the height of the
other row. -/
def Course.line (course : Course α) (fromY toY : α) : List (Point α) :=
  [⟨course.leaves, fromY⟩, ⟨course.bend, fromY⟩, ⟨course.bend, toY⟩, ⟨course.arrives, toY⟩]

/-- A connector is drawn for its relationship, along the line of its course. -/
theorem Course.connector_points {s : RoutingSettings} {r : Relationship} {course : Course α}
    {fromY toY : α} {c : Connector α} (h : course.connector s r fromY toY = .ok c) :
    c.relationship = r ∧ c.points = course.line fromY toY := by
  obtain ⟨commands, -, h⟩ := bind_eq_ok.1 h
  rw [← pure_eq_ok.1 h]
  exact ⟨rfl, rfl⟩

/-- A connector that is drawn runs along the course between its tables, from row to row. -/
theorem routeBetween_eq_some {m : Metrics} {s : RoutingSettings} {r : Relationship}
    {source target : Table α} {c : Connector α}
    (h : routeBetween m s r source target = .ok (some c)) :
    ∃ p i q j fromY toY course,
      source.fieldPlace? r.fromField = some (p, i) ∧ target.fieldPlace? r.toField = some (q, j) ∧
      rowCenter m p.y (ofSetting i) = .ok fromY ∧ rowCenter m q.y (ofSetting j) = .ok toY ∧
      courseBetween m s p.x q.x = .ok course ∧ course.connector s r fromY toY = .ok c := by
  rw [routeBetween] at h
  split at h
  · next p i q j hp hq =>
    obtain ⟨fromY, hfrom, h⟩ := bind_eq_ok.1 h
    obtain ⟨toY, hto, h⟩ := bind_eq_ok.1 h
    obtain ⟨course, hcourse, h⟩ := bind_eq_ok.1 h
    obtain ⟨c', hc', h⟩ := bind_eq_ok.1 h
    rw [Option.some.inj (pure_eq_ok.1 h)] at hc'
    exact ⟨p, i, q, j, fromY, toY, course, hp, hq, hfrom, hto, hcourse, hc'⟩
  · exact nomatch h

/-- A relationship between two tables has no connector exactly when one of its fields is not
drawn. -/
theorem routeBetween_eq_none {m : Metrics} {s : RoutingSettings} {r : Relationship}
    {source target : Table α} (h : routeBetween m s r source target = .ok none) :
    source.fieldPlace? r.fromField = none ∨ target.fieldPlace? r.toField = none := by
  rw [routeBetween] at h
  split at h
  · obtain ⟨fromY, -, h⟩ := bind_eq_ok.1 h
    obtain ⟨toY, -, h⟩ := bind_eq_ok.1 h
    obtain ⟨course, -, h⟩ := bind_eq_ok.1 h
    obtain ⟨c, -, h⟩ := bind_eq_ok.1 h
    exact nomatch pure_eq_ok.1 h
  · next hnot =>
    cases hsource : source.fieldPlace? r.fromField with
    | none => exact Or.inl rfl
    | some place =>
      cases htarget : target.fieldPlace? r.toField with
      | none => exact Or.inr rfl
      | some other => exact absurd htarget (hnot place.1 place.2 other.1 other.2 hsource)

end SchemaDiagram
