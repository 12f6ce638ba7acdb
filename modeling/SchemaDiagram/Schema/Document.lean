/-
# Schema documents

A document is read in two passes: the table blocks first, then the reference lines outside them.
Every construct is read on its own, so a malformed one is skipped with an issue and the rest of
the document stays as it is.  A table that is defined again takes its last definition, and the
relationships that its earlier fields imply are kept.

* `Document.ofText` : reads a text, whatever it holds;
* `Document.issues` : the issues in line order.
-/
import SchemaDiagram.Registry
import SchemaDiagram.Schema.ReferenceLine
import SchemaDiagram.Schema.TableBlock

namespace SchemaDiagram

/-- All that is recognised in a text.  Issues are in the order in which they were found. -/
structure Document where
  tables : Registry Entity
  relationships : List Relationship
  found : List Issue
deriving DecidableEq

namespace Document

/-- The issues of table fragments in the order found, where some names are defined already. -/
def tableIssues : (defined : List String) → List TableFragment → List Issue
  | _, [] => []
  | defined, .skipped issue :: rest => issue :: tableIssues defined rest
  | defined, .block b :: rest =>
    b.issues ++ (if b.name ∈ defined then [⟨b.line, .redefinition b.name⟩] else []) ++
      tableIssues (b.name :: defined) rest

/-- The tables of blocks; the last block of a name counts. -/
def tablesOf (blocks : List TableBlock) : Registry Entity :=
  .ofList (blocks.map fun b => (b.name, b.entity))

/-- Reads a text. -/
def ofText (text : List Char) : Document :=
  let fragments := scanTables text
  let blocks := fragments.filterMap TableFragment.block?
  let references := scanReferences text (blocks.map TableBlock.span)
  { tables := tablesOf blocks
    relationships := references.filterMap ReferenceFragment.relationship? ++
      blocks.flatMap fun b => b.entity.inlineRelationships
    found := tableIssues [] fragments ++ references.filterMap ReferenceFragment.issue? }

/-- The issues in line order; those of one line stay in the order found. -/
def issues (d : Document) : List Issue := d.found.mergeSort fun a b => a.line ≤ b.line

end Document

end SchemaDiagram
