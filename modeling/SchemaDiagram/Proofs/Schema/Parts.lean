/-
# The parts of a document

A document is put together from the blocks of its text and from the reference lines outside them.

* `Document.blocksOf`, `Document.referencesOf` : the blocks, and the fragments outside them;
* `Document.lineRelationships`, `Document.fieldRelationships` : the relationships that reference
  lines say, and those that fields imply;
* `Document.span_of_mem_blocksOf` : a block starts where its keyword stands, and ends in the text.
-/
import SchemaDiagram.Proofs.Schema.Behind
import SchemaDiagram.Schema.Document

namespace SchemaDiagram

theorem TableFragment.block?_eq_some_iff {f : TableFragment} {b : TableBlock} :
    f.block? = some b ↔ f = .block b := by
  cases f <;> simp [block?]

theorem ReferenceFragment.relationship?_eq_some_iff {f : ReferenceFragment} {r : Relationship} :
    f.relationship? = some r ↔ f = .relationship r := by
  cases f <;> simp [relationship?]

theorem ReferenceFragment.issue?_eq_some_iff {f : ReferenceFragment} {i : Issue} :
    f.issue? = some i ↔ f = .skipped i := by
  cases f <;> simp [issue?]

namespace Document

variable {text : List Char}

/-- The blocks of a text, in order. -/
def blocksOf (text : List Char) : List TableBlock :=
  (scanTables text).filterMap TableFragment.block?

/-- The reference fragments of a text outside its own blocks, in order. -/
def referencesOf (text : List Char) : List ReferenceFragment :=
  scanReferences text ((blocksOf text).map TableBlock.span)

/-- The relationships that the reference lines of a text say, in order. -/
def lineRelationships (text : List Char) : List Relationship :=
  (referencesOf text).filterMap ReferenceFragment.relationship?

/-- The relationships that the fields in the blocks of a text imply, in order. -/
def fieldRelationships (text : List Char) : List Relationship :=
  (blocksOf text).flatMap fun b => b.entity.inlineRelationships

theorem tables_ofText (text : List Char) : (ofText text).tables = tablesOf (blocksOf text) := rfl

theorem relationships_ofText (text : List Char) :
    (ofText text).relationships = lineRelationships text ++ fieldRelationships text := rfl

theorem found_ofText (text : List Char) :
    (ofText text).found =
      tableIssues [] (scanTables text) ++ (referencesOf text).filterMap ReferenceFragment.issue? :=
  rfl

/-- The blocks among fragments are the fragments that are blocks. -/
theorem mem_filterMap_block? {b : TableBlock} {fragments : List TableFragment} :
    b ∈ fragments.filterMap TableFragment.block? ↔ .block b ∈ fragments := by
  simp only [List.mem_filterMap, TableFragment.block?_eq_some_iff, exists_eq_right]

/-- A block starts where its keyword stands, and ends in the text. -/
theorem span_of_mem_blocksOf {b : TableBlock} (h : b ∈ blocksOf text) :
    Cursor.StandsAt tableKeyword text b.span.1 ∧ b.span.2 ≤ text.length := by
  obtain ⟨k, -, hstands, hat⟩ := exists_of_mem_tablesFrom (mem_filterMap_block?.1 h)
  rw [span_of_tableAt hat.symm]
  exact ⟨hstands, (tableEnd_bounds hstands.length_le).2⟩

/-- Some characters and lines below, the blocks are the same at later places. -/
theorem filterMap_block?_below (chars lines : Nat) (fragments : List TableFragment) :
    (fragments.map (TableFragment.below chars lines)).filterMap TableFragment.block? =
      (fragments.filterMap TableFragment.block?).map (TableBlock.below chars lines) := by
  rw [List.filterMap_map, List.map_filterMap]
  exact List.filterMap_congr fun f _ => f.block?_below chars lines

/-- Some lines below, the reference lines say the same relationships. -/
theorem filterMap_relationship?_below (lines : Nat) (fragments : List ReferenceFragment) :
    (fragments.map (ReferenceFragment.below lines)).filterMap ReferenceFragment.relationship? =
      fragments.filterMap ReferenceFragment.relationship? := by
  rw [List.filterMap_map]
  exact List.filterMap_congr fun f _ => f.relationship?_below lines

/-- Some lines below, the reference lines have the same issues there. -/
theorem filterMap_issue?_below (lines : Nat) (fragments : List ReferenceFragment) :
    (fragments.map (ReferenceFragment.below lines)).filterMap ReferenceFragment.issue? =
      (fragments.filterMap ReferenceFragment.issue?).map (Issue.below lines) := by
  rw [List.filterMap_map, List.map_filterMap]
  exact List.filterMap_congr fun f _ => f.issue?_below lines

end Document

end SchemaDiagram
