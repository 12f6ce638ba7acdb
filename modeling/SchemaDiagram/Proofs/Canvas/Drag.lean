/-
# What a drag can do

A drag either leaves all tables as they are, or it moves one table to a whole position at which its
box collides with no table of another name.

* `moveTable_cases` : the two outcomes.
-/
import SchemaDiagram.Canvas.Drag
import SchemaDiagram.Proofs.Outcome

namespace SchemaDiagram

variable {α : Type}

/-- The tables of other names. -/
def othersOf (tables : Registry (Table α)) (name : String) : List (Table α) :=
  tables.values.filter fun t => t.name ≠ name

variable [Arithmetic α]

/-- A landing that is valid collides with no table of another name. -/
theorem landing?_valid {c : Config} {tables : Registry (Table α)} {name : String}
    {delta : Point α} {position : Point Int}
    (h : landing? c tables name delta = .ok (some ⟨position, true⟩)) :
    ∃ t, tables.get? name = some t ∧
      Box.collides c.metrics (Arithmetic.ofInt (c.layout.dragSpacing : Nat))
        ⟨.ofInts position, t.fields.length⟩ (boxesOf (othersOf tables name)) = .ok false := by
  rw [landing?] at h
  split at h
  · exact nomatch h
  · next p hp =>
    obtain ⟨t, ht, -⟩ := Option.bind_eq_some_iff.1 hp
    obtain ⟨q, -, h⟩ := bind_eq_ok.1 h
    obtain ⟨occupied, hoccupied, h⟩ := bind_eq_ok.1 h
    have heq := Option.some.inj (pure_eq_ok.1 h)
    rw [Landing.mk.injEq, Bool.not_eq_true'] at heq
    obtain ⟨rfl, rfl⟩ := heq
    refine ⟨t, ht, ?_⟩
    rw [wouldOverlap, ht] at hoccupied
    exact hoccupied

/-- **A drag** leaves the tables as they are, or moves one of them to a whole position where it
keeps the drag spacing to the tables of other names. -/
theorem moveTable_cases {c : Config} {tables tables' : Registry (Table α)} {name : String}
    {delta : Point α} (h : moveTable c tables name delta = .ok tables') :
    tables' = tables ∨
      ∃ t position, tables.get? name = some t ∧
        tables' = tables.insert name (t.moveTo (.ofInts position)) ∧
        Box.collides c.metrics (Arithmetic.ofInt (c.layout.dragSpacing : Nat))
          ⟨.ofInts position, t.fields.length⟩ (boxesOf (othersOf tables name)) = .ok false := by
  obtain ⟨landing, hlanding, h⟩ := bind_eq_ok.1 h
  have htables := pure_eq_ok.1 h
  match landing, hlanding with
  | none, _ => exact Or.inl htables.symm
  | some ⟨_, false⟩, _ => exact Or.inl htables.symm
  | some ⟨position, true⟩, hlanding =>
    obtain ⟨t, ht, hclear⟩ := landing?_valid hlanding
    refine Or.inr ⟨t, position, ht, ?_, hclear⟩
    rw [← htables, applyLanding, ht]

end SchemaDiagram
