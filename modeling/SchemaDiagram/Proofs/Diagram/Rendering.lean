/-
# Which relationships are drawn

A relationship is drawn exactly when both of its ends name a field of a table.  The connectors of a
diagram are those of the relationships that can be drawn, in their order, and the others dangle.

* `Relationship.DrawnIn` : that both ends of a relationship are fields of tables;
* `routeIn_drawn_or` : what becomes of one relationship;
* `relationship_of_routesIn` : what becomes of a list of relationships;
* `Diagram.relationship_connectors`, `Diagram.dangling_of_build` : the two parts of a diagram;
* `Diagram.connector_of_build` : which tables a connector of a diagram joins.
-/
import SchemaDiagram.Proofs.Connector.Route
import SchemaDiagram.Proofs.Diagram.Build

namespace SchemaDiagram

variable {α : Type}

/-! ## Ends -/

/-- Whether a name is that of a table with a field of another name. -/
def HasField (tables : Registry (Table α)) (table field : String) : Prop :=
  ∃ t ∈ tables.get? table, ∃ f ∈ t.fields, f.name = field

instance (tables : Registry (Table α)) (table field : String) :
    Decidable (HasField tables table field) :=
  inferInstanceAs (Decidable (∃ t ∈ tables.get? table, ∃ f ∈ t.fields, f.name = field))

/-- Whether both ends of a relationship are fields of tables. -/
def Relationship.DrawnIn (tables : Registry (Table α)) (r : Relationship) : Prop :=
  HasField tables r.fromTable r.fromField ∧ HasField tables r.toTable r.toField

instance (tables : Registry (Table α)) (r : Relationship) : Decidable (r.DrawnIn tables) :=
  inferInstanceAs (Decidable (_ ∧ _))

/-- Whether every table has a position. -/
def AllPlaced (tables : Registry (Table α)) : Prop :=
  ∀ name t, tables.get? name = some t → ∃ p, t.position = some p

/-- Where all tables are placed, a name has a field exactly when the field has a place. -/
theorem HasField.iff_of_get? {tables : Registry (Table α)} {table field : String} {t : Table α}
    (hplaced : AllPlaced tables) (ht : tables.get? table = some t) :
    HasField tables table field ↔ (t.fieldPlace? field).isSome := by
  obtain ⟨p, hp⟩ := hplaced table t ht
  have hplace : t.fieldPlace? field = (fieldIndex? t.fields field).map fun i => (p, i) := by
    rw [Table.fieldPlace?, hp]
    cases fieldIndex? t.fields field with
    | none => rfl
    | some i => rfl
  rw [hplace, Option.isSome_map, fieldIndex?_isSome_iff, HasField, ht]
  simp

/-! ## Routes -/

variable [Arithmetic α] {m : Metrics} {s : RoutingSettings} {tables : Registry (Table α)}

/-- **A relationship** among placed tables is drawn when it can be, and has no connector
otherwise. -/
theorem routeIn_drawn_or (hplaced : AllPlaced tables) {r : Relationship} {route : Route α}
    (h : routeIn m s tables r = .ok route) :
    (∃ c, route.connector? = some c ∧ c.relationship = r ∧ r.DrawnIn tables) ∨
      (route.connector? = none ∧ ¬r.DrawnIn tables) := by
  rw [routeIn] at h
  split at h
  · next source target hsource htarget =>
    have hends : r.DrawnIn tables ↔ (source.fieldPlace? r.fromField).isSome ∧
        (target.fieldPlace? r.toField).isSome :=
      and_congr (HasField.iff_of_get? hplaced hsource) (HasField.iff_of_get? hplaced htarget)
    obtain ⟨drawn, hdrawn, h⟩ := bind_eq_ok.1 h
    cases drawn with
    | some c =>
      rw [← pure_eq_ok.1 h]
      obtain ⟨p, i, q, j, fromY, toY, course, hi, hj, -, -, -, hc⟩ := routeBetween_eq_some hdrawn
      refine Or.inl ⟨c, rfl, (Course.connector_points hc).1, hends.2 ⟨?_, ?_⟩⟩
      · rw [hi, Option.isSome_some]
      · rw [hj, Option.isSome_some]
    | none =>
      rw [← pure_eq_ok.1 h]
      refine Or.inr ⟨rfl, fun hdrawnIn => ?_⟩
      obtain ⟨hfrom, hto⟩ := hends.1 hdrawnIn
      rcases routeBetween_eq_none hdrawn with hnone | hnone
      · rw [hnone] at hfrom
        exact nomatch hfrom
      · rw [hnone] at hto
        exact nomatch hto
  · next hnot =>
    -- one of the two tables is missing
    cases h
    refine Or.inr ⟨rfl, fun hdrawnIn => ?_⟩
    obtain ⟨⟨source, hsource, -⟩, ⟨target, htarget, -⟩⟩ := hdrawnIn
    exact hnot source target hsource htarget

/-- A connector among tables is one between the two tables that its relationship names. -/
theorem routeIn_connector {r : Relationship} {route : Route α} {k : Connector α}
    (h : routeIn m s tables r = .ok route) (hk : route.connector? = some k) :
    ∃ source target, tables.get? r.fromTable = some source ∧ tables.get? r.toTable = some target ∧
      routeBetween m s r source target = .ok (some k) := by
  rw [routeIn] at h
  split at h
  · next source target hsource htarget =>
    obtain ⟨drawn, hdrawn, h⟩ := bind_eq_ok.1 h
    cases drawn with
    | none =>
      rw [← pure_eq_ok.1 h] at hk
      cases hk
    | some c =>
      rw [← pure_eq_ok.1 h] at hk
      rw [Option.some.inj hk] at hdrawn
      exact ⟨source, target, hsource, htarget, hdrawn⟩
  · cases h
    cases hk

/-- Relationships that are routed among placed tables have connectors exactly as far as they can be
drawn, in their order. -/
theorem relationship_of_routesIn {c : Config} (hplaced : AllPlaced tables)
    {relationships : List Relationship} {routes : List (Relationship × Route α)}
    (h : routesIn c tables relationships = .ok routes) :
    (routes.filterMap fun r => r.2.connector?).map Connector.relationship =
      relationships.filter fun r => r.DrawnIn tables := by
  rw [routesIn] at h
  induction relationships generalizing routes with
  | nil =>
    rw [List.mapM_nil, pure_eq_ok] at h
    rw [← h]
    rfl
  | cons r rest ih =>
    rw [List.mapM_cons] at h
    obtain ⟨entry, hentry, h⟩ := bind_eq_ok.1 h
    obtain ⟨route, hroute, hentry⟩ := bind_eq_ok.1 hentry
    obtain ⟨others, hothers, h⟩ := bind_eq_ok.1 h
    rw [← pure_eq_ok.1 h, ← pure_eq_ok.1 hentry]
    rcases routeIn_drawn_or hplaced (lift_eq_ok.1 hroute) with
      ⟨c, hc, rfl, hdrawn⟩ | ⟨hnone, hdrawn⟩
    · simp only [List.filterMap_cons, hc]
      rw [List.map_cons, ih hothers, List.filter_cons_of_pos (by simpa using hdrawn)]
    · simp only [List.filterMap_cons, hnone]
      rw [ih hothers, List.filter_cons_of_neg (by simpa using hdrawn)]

/-! ## Diagrams -/

namespace Diagram

variable {c : Config} {text : List Char} {recent : Registry (Point α)}
  {saved : Registry (Point α) LooseText} {d : Diagram α}

/-- The connectors of a diagram are those of the relationships that can be drawn. -/
theorem relationship_connectors (h : Diagram.build c text recent saved = .ok d) :
    d.connectors.map Connector.relationship =
      d.relationships.filter fun r => r.DrawnIn d.tables := by
  have hplaced : AllPlaced d.tables := fun name t ht => (entity_of_build h ht).2
  obtain ⟨layout, routes, -, hroutes, rfl⟩ := build_eq_ok_iff.1 h
  exact relationship_of_routesIn hplaced hroutes

/-- A connector of a diagram is one between the two tables of the diagram that its relationship
names. -/
theorem connector_of_build (h : Diagram.build c text recent saved = .ok d) {k : Connector α}
    (hk : k ∈ d.connectors) :
    ∃ r source target, d.tables.get? r.fromTable = some source ∧
      d.tables.get? r.toTable = some target ∧
      routeBetween c.metrics c.routing r source target = .ok (some k) := by
  obtain ⟨layout, routes, -, hroutes, rfl⟩ := build_eq_ok_iff.1 h
  obtain ⟨⟨r', route⟩, hmem, hroute⟩ := List.mem_filterMap.1 hk
  obtain ⟨r, -, hr⟩ := exists_of_mem_mapM hroutes hmem
  obtain ⟨route', hroute', hr⟩ := bind_eq_ok.1 hr
  obtain ⟨rfl, rfl⟩ := Prod.mk.inj (pure_eq_ok.1 hr)
  obtain ⟨source, target, hsource, htarget, hk⟩ := routeIn_connector (lift_eq_ok.1 hroute') hroute
  exact ⟨r, source, target, hsource, htarget, hk⟩

/-- The dangling relationships of a diagram are those that cannot be drawn. -/
theorem dangling_of_build (h : Diagram.build c text recent saved = .ok d) :
    d.dangling = d.relationships.filter fun r => ¬r.DrawnIn d.tables := by
  rw [dangling, relationship_connectors h]
  refine List.filter_congr fun r hr => ?_
  rw [decide_eq_decide, List.mem_filter, decide_eq_true_iff]
  exact not_congr (and_iff_right hr)

/-- Nothing dangles in a diagram exactly when all its relationships can be drawn. -/
theorem dangling_eq_nil_iff (h : Diagram.build c text recent saved = .ok d) :
    d.dangling = [] ↔ ∀ r ∈ d.relationships, r.DrawnIn d.tables := by
  rw [dangling_of_build h, List.filter_eq_nil_iff]
  simp

end Diagram

end SchemaDiagram
