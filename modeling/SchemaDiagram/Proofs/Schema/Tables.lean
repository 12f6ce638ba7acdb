/-
# The tables of a document

Blocks become tables under their own names.

* `Document.name_of_get?` : a table of a document is found under its name;
* `Document.entries_tablesOf` : blocks of different names become tables in their order.
-/
import SchemaDiagram.Proofs.Registry
import SchemaDiagram.Schema.Document

namespace SchemaDiagram

namespace Document

/-- A table of blocks is the entity of one of them, under the name of that block. -/
theorem mem_of_get?_tablesOf {blocks : List TableBlock} {name : String} {e : Entity}
    (h : (tablesOf blocks).get? name = some e) : ∃ b ∈ blocks, b.name = name ∧ b.entity = e := by
  obtain ⟨b, hb, heq⟩ := List.mem_map.1 (Registry.mem_of_get?_ofList h)
  obtain ⟨rfl, rfl⟩ := Prod.mk.inj heq
  exact ⟨b, hb, rfl, rfl⟩

/-- A table of a document is found under its name. -/
theorem name_of_get? {text : List Char} {name : String} {e : Entity}
    (h : (ofText text).tables.get? name = some e) : e.name = name := by
  obtain ⟨b, -, rfl, rfl⟩ := mem_of_get?_tablesOf h
  rfl

/-- Blocks of different names become tables in their order. -/
theorem entries_tablesOf {blocks : List TableBlock} (h : (blocks.map TableBlock.name).Nodup) :
    (tablesOf blocks).entries = blocks.map fun b => (b.name, b.entity) := by
  refine Registry.entries_ofList ?_
  rw [List.map_map]
  exact h

end Document

end SchemaDiagram
