/-
# Diagrams by their coordinates

Two diagrams are compared by what they are apart from their coordinates, and by the values of their
coordinates one by one.  A coordinate that is NaN equals none, itself included, so that a diagram
where the bend of a connector is NaN is not equal to the same diagram built another time.

* `Diagram.map`, `Diagram.coordinates` : a diagram with other coordinates, and its own in order;
* `Quantity.Equals`, `Diagram.Equals` : equality by value;
* `Diagram.equals_self_iff` : a diagram equals itself unless a coordinate is NaN.
-/
import Mathlib.Data.List.Forall2
import SchemaDiagram.Diagram

namespace SchemaDiagram

variable {α β : Type}

/-! ## Coordinates -/

/-- The coordinates of a point. -/
def Point.coordinates (p : Point α) : List α := [p.x, p.y]

namespace Table

/-- The table with other coordinates. -/
def map (f : α → β) (t : Table α) : Table β := ⟨t.toEntity, t.position.map (Point.map f)⟩

/-- The coordinates of the position of a table, if it has one. -/
def coordinates (t : Table α) : List α := t.position.toList.flatMap Point.coordinates

end Table

/-- The command with other coordinates. -/
def PathCommand.map (f : α → β) : PathCommand α → PathCommand β
  | .moveTo p => .moveTo (p.map f)
  | .lineTo p => .lineTo (p.map f)
  | .quadTo control p => .quadTo (control.map f) (p.map f)

/-- The marker with other coordinates. -/
def Marker.map (f : α → β) (m : Marker α) : Marker β := ⟨m.anchor.map f, m.rotation, m.kind⟩

namespace Connector

/-- The connector with other coordinates. -/
def map (f : α → β) (c : Connector α) : Connector β where
  relationship := c.relationship
  topology := c.topology
  points := c.points.map (Point.map f)
  commands := c.commands.map (PathCommand.map f)
  start := c.start.map f
  finish := c.finish.map f

/-- The coordinates of the points of a connector, of its path and of its markers. -/
def allCoordinates (c : Connector α) : List α :=
  c.points.flatMap Point.coordinates ++ c.commands.flatMap PathCommand.coordinates ++
    c.start.anchor.coordinates ++ c.finish.anchor.coordinates

end Connector

namespace Diagram

/-- The diagram with other coordinates. -/
def map (f : α → β) (d : Diagram α) : Diagram β where
  tables := d.tables.map fun _ => Table.map f
  relationships := d.relationships
  connectors := d.connectors.map (Connector.map f)
  issues := d.issues

/-- All coordinates of a diagram. -/
def coordinates (d : Diagram α) : List α :=
  d.tables.values.flatMap Table.coordinates ++ d.connectors.flatMap Connector.allCoordinates

end Diagram

/-! ## Equality by value -/

/-- Whether two quantities are one value: a whole number can equal a double, the two zeros are
equal, and NaN equals nothing. -/
def Quantity.Equals (x y : Quantity) : Prop := ∃ v, x.extended? = some v ∧ y.extended? = some v

/-- A quantity equals itself unless it is NaN. -/
theorem Quantity.equals_self_iff (x : Quantity) : x.Equals x ↔ x ≠ .real .nan := by
  cases x with
  | whole n => exact iff_of_true ⟨_, rfl, rfl⟩ nofun
  | real x =>
    cases x with
    | nan => exact iff_of_false (fun ⟨v, hv, _⟩ => nomatch hv) fun h => h rfl
    | infinite negative => exact iff_of_true ⟨_, rfl, rfl⟩ nofun
    | finite negative place => exact iff_of_true ⟨_, rfl, rfl⟩ nofun

namespace Diagram

/-- Whether two diagrams are the same apart from their coordinates, the order of their tables
included, and their coordinates are equal one by one. -/
def Equals (d d' : Diagram Quantity) : Prop :=
  d.map (fun _ => ()) = d'.map (fun _ => ()) ∧
    List.Forall₂ Quantity.Equals d.coordinates d'.coordinates

/-- Whether no coordinate of a diagram is NaN. -/
def NanFree (d : Diagram Quantity) : Prop := ∀ x ∈ d.coordinates, x ≠ .real .nan

instance (d : Diagram Quantity) : Decidable d.NanFree :=
  inferInstanceAs (Decidable (∀ x ∈ d.coordinates, x ≠ .real .nan))

/-- A diagram equals itself exactly when no coordinate is NaN. -/
theorem equals_self_iff (d : Diagram Quantity) : d.Equals d ↔ d.NanFree := by
  rw [Equals, List.forall₂_same, NanFree]
  exact (and_iff_right rfl).trans (forall₂_congr fun x _ => x.equals_self_iff)

end Diagram

end SchemaDiagram
