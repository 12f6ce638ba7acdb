/-
# How a diagram is built

A diagram is built in three stages: the text is read, the tables of the document are laid out with
the positions that are known of them, and the relationships are routed among the tables as they
are laid out.

* `Document.unplaced`, `knownPosition` : what is laid out, and where tables are known to be;
* `routesIn` : the routes of relationships among tables;
* `Diagram.build_eq_ok_iff` : the stages of a diagram that is built;
* `Diagram.tables_of_build`, `Diagram.keys_of_build` : its tables.
-/
import SchemaDiagram.Diagram
import SchemaDiagram.Proofs.Placement.Frame

namespace SchemaDiagram

variable {α : Type}

/-! ## Stages -/

/-- The tables of a document before they are placed. -/
def Document.unplaced (d : Document) : Registry (Table α) := d.tables.map fun _ e => .unplaced e

/-- Where the table of a name is known to be: at its recent position, or else at its saved one. -/
def knownPosition (recent : Registry (Point α)) (saved : Registry (Point α) LooseText)
    (name : String) : Option (Point α) :=
  (recent.get? name).or (saved.get? name)

/-- A table of a document before it is placed is the entity of its name. -/
theorem Document.get?_unplaced (d : Document) (name : String) :
    (d.unplaced : Registry (Table α)).get? name = (d.tables.get? name).map Table.unplaced :=
  Registry.get?_map d.tables _ name

theorem Document.get?_unplaced_of_get? {d : Document} {name : String} {e : Entity}
    (he : d.tables.get? name = some e) :
    (d.unplaced : Registry (Table α)).get? name = some (.unplaced e) := by
  rw [get?_unplaced, he]
  rfl

theorem Document.keys_unplaced (d : Document) :
    (d.unplaced : Registry (Table α)).keys = d.tables.keys := by
  rw [Registry.keys, Registry.keys, unplaced, Registry.map, List.map_map]
  rfl

/-- The position that is carried over for a table is the one where it is known to be. -/
theorem get?_carryPositions_of_get? {β : Type} {tables : Registry β}
    {recent : Registry (Point α)} {saved : Registry (Point α) LooseText} {name : String} {t : β}
    (ht : tables.get? name = some t) :
    (carryPositions tables recent saved).get? name = knownPosition recent saved name := by
  rw [carryPositions, Registry.get?_filterMap, ht]
  rfl

/-- The tables of a document whose position is known are those for which one is carried over. -/
theorem isKnown_unplaced {d : Document} {recent : Registry (Point α)}
    {saved : Registry (Point α) LooseText} {name : String} (h : name ∈ d.tables.keys) :
    isKnown d.unplaced (carryPositions (d.unplaced : Registry (Table α)) recent saved) name =
      (knownPosition recent saved name).isSome := by
  obtain ⟨e, he⟩ := (Registry.mem_keys_iff d.tables name).1 h
  have ht := Document.get?_unplaced_of_get? (α := α) he
  rw [isKnown, Registry.contains, knownTables, Registry.get?_filterMap, ht, Option.bind_some,
    get?_carryPositions_of_get? ht]
  cases knownPosition recent saved name with
  | some p => rfl
  | none => rfl

/-- The position map of a diagram says where each table is. -/
theorem Diagram.get?_positions (d : Diagram α) (name : String) :
    d.positions.get? name = (d.tables.get? name).bind Table.position :=
  Registry.get?_filterMap d.tables _ name

variable [Arithmetic α]

/-- The routes of relationships among tables. -/
def routesIn (c : Config) (tables : Registry (Table α)) (relationships : List Relationship) :
    Except DrawingFault (List (Relationship × Route α)) :=
  relationships.mapM fun r => do return (r, ← routeIn c.metrics c.routing tables r)

/-- **A diagram** is built when the tables of the document can be laid out and the relationships
can be routed among them, and it consists of just that. -/
theorem Diagram.build_eq_ok_iff {c : Config} {text : List Char} {recent : Registry (Point α)}
    {saved : Registry (Point α) LooseText} {d : Diagram α} :
    Diagram.build c text recent saved = .ok d ↔
      ∃ layout routes,
        layOut c (Document.ofText text).unplaced
          (carryPositions ((Document.ofText text).unplaced : Registry (Table α)) recent saved) =
            .ok layout ∧
        routesIn c layout.tables (Document.ofText text).relationships = .ok routes ∧
        d = ⟨layout.tables, (Document.ofText text).relationships,
          routes.filterMap fun r => r.2.connector?, (Document.ofText text).issues⟩ := by
  constructor
  · intro h
    obtain ⟨drawing, hdrawing, h⟩ := bind_eq_ok.1 h
    obtain ⟨layout, hlayout, hdrawing⟩ := bind_eq_ok.1 hdrawing
    obtain ⟨routes, hroutes, hdrawing⟩ := bind_eq_ok.1 hdrawing
    rw [← pure_eq_ok.1 h, ← pure_eq_ok.1 hdrawing]
    exact ⟨layout, routes, hlayout, hroutes, rfl⟩
  · rintro ⟨layout, routes, hlayout, hroutes, rfl⟩
    exact bind_eq_ok.2 ⟨⟨Document.ofText text, layout, routes⟩,
      bind_eq_ok.2 ⟨layout, hlayout, bind_eq_ok.2 ⟨routes, hroutes, rfl⟩⟩, rfl⟩

/-! ## Tables -/

namespace Diagram

variable {c : Config} {text : List Char} {recent : Registry (Point α)}
  {saved : Registry (Point α) LooseText} {d : Diagram α}

/-- The tables of a diagram are those of the document, in its order. -/
theorem keys_of_build (h : Diagram.build c text recent saved = .ok d) :
    d.tables.keys = (Document.ofText text).tables.keys := by
  obtain ⟨layout, routes, hlayout, -, rfl⟩ := build_eq_ok_iff.1 h
  obtain ⟨done, -, -, hkeys, -⟩ := layOut_run hlayout
  rw [hkeys, Document.keys_unplaced]

/-- A table of the document has a position in the diagram. -/
theorem tables_of_build (h : Diagram.build c text recent saved = .ok d) {name : String}
    {e : Entity} (he : (Document.ofText text).tables.get? name = some e) :
    ∃ p, d.tables.get? name = some ⟨e, some p⟩ := by
  obtain ⟨layout, routes, hlayout, -, rfl⟩ := build_eq_ok_iff.1 h
  exact layOut_placed hlayout (Document.get?_unplaced_of_get? he)

/-- A table of a diagram has a position, and is a table of the document. -/
theorem entity_of_build (h : Diagram.build c text recent saved = .ok d) {name : String}
    {t : Table α} (ht : d.tables.get? name = some t) :
    (Document.ofText text).tables.get? name = some t.toEntity ∧ ∃ p, t.position = some p := by
  have hmem : name ∈ (Document.ofText text).tables.keys := by
    rw [← keys_of_build h, Registry.mem_keys_iff]
    exact ⟨t, ht⟩
  obtain ⟨e, he⟩ := (Registry.mem_keys_iff _ _).1 hmem
  obtain ⟨p, hp⟩ := tables_of_build h he
  rw [ht, Option.some.injEq] at hp
  subst hp
  exact ⟨he, p, rfl⟩

/-- Every table of a diagram that is built is in its position map. -/
theorem keys_positions_of_build (h : Diagram.build c text recent saved = .ok d) :
    d.positions.keys = d.tables.keys := by
  refine Registry.keys_filterMap d.tables _ fun name t ht => ?_
  obtain ⟨-, p, hp⟩ := entity_of_build h ht
  rw [hp]
  rfl

end Diagram

end SchemaDiagram
