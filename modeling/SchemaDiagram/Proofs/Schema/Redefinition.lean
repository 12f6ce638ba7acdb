/-
# Tables that are defined again

A block with the name of an earlier one takes over its table, which stays where it is in the order
of the tables, and gives an issue.  The relationships of all fields stay, those of the fields that
are given up included.

* `Document.keys_tablesOf`, `Document.get?_tablesOf_eq_some_iff` : the tables of blocks;
* `Document.length_redefinitions` : how many blocks give an issue for their name;
* `Reference.Implies`, `Document.referring` : what the references of fields stand for.

Main statement: `Document.redefinitions_keep_edges` : the tables, the redefinitions and the
relationships of a text, told from its blocks.
-/
import Mathlib.Data.List.Forall2
import SchemaDiagram.Proofs.Schema.Appending
import SchemaDiagram.Proofs.Schema.Written

namespace SchemaDiagram

open Text

variable {text : List Char} {k : Nat}

/-! ## Tables -/

namespace Document

/-- The tables of blocks bear the different names of the blocks, in the order in which they first
appear. -/
theorem keys_tablesOf (blocks : List TableBlock) :
    (tablesOf blocks).keys = (blocks.map TableBlock.name).eraseDups := by
  rw [tablesOf, Registry.keys_ofList, List.map_map]
  rfl

/-- The table of a name has the fields of the last block of that name. -/
theorem get?_tablesOf_eq_some_iff {blocks : List TableBlock} {name : String} {e : Entity} :
    (tablesOf blocks).get? name = some e ↔
      ∃ before b after, blocks = before ++ b :: after ∧ b.name = name ∧
        (∀ a ∈ after, a.name ≠ name) ∧ e = ⟨name, b.fields⟩ := by
  rw [tablesOf, Registry.get?_ofList_eq_some_iff]
  constructor
  · rintro ⟨before, after, hblocks, hafter⟩
    obtain ⟨first, rest, rfl, -, hrest⟩ := List.map_eq_append_iff.1 hblocks
    obtain ⟨b, later, rfl, hb, rfl⟩ := List.map_eq_cons_iff.1 hrest
    obtain ⟨rfl, rfl⟩ := Prod.mk.inj hb
    exact ⟨first, b, later, rfl, rfl, fun a ha => hafter _ (List.mem_map_of_mem ha), rfl⟩
  · rintro ⟨before, b, after, rfl, rfl, hafter, rfl⟩
    refine ⟨before.map fun b => (b.name, b.entity), after.map fun b => (b.name, b.entity), ?_, ?_⟩
    · rw [List.map_append, List.map_cons]
      rfl
    · exact List.forall_mem_map.2 hafter

end Document

/-! ## Redefinitions -/

/-- The issues that a fragment gives on its own. -/
def TableFragment.ownIssues : TableFragment → List Issue
  | .block b => b.issues
  | .skipped issue => [issue]

/-- A fragment at a keyword does not tell on its own which names are defined already. -/
theorem isRedefinition_of_mem_ownIssues {i : Issue} (h : i ∈ (tableAt text k).ownIssues) :
    i.isRedefinition = false := by
  rcases hread : readBlock (text.drop (k + tableKeyword.length)) with ⟨fault | ⟨name, body⟩, rest⟩
  · rw [tableAt_of_error hread] at h
    rw [List.mem_singleton.1 h]
    rfl
  · rw [tableAt_of_ok hread] at h
    obtain ⟨read, hmem, hi⟩ := List.mem_flatMap.1 h
    obtain ⟨line, -, hline⟩ := List.mem_filterMap.1 hmem
    obtain ⟨fault, rfl⟩ := Field.exists_of_mem_issues hline hi
    rfl

/-- Nor does a reference line. -/
theorem isRedefinition_of_referenceAt {i : Issue} (h : referenceAt text k = .skipped i) :
    i.isRedefinition = false := by
  unfold referenceAt at h
  split at h
  · split at h
    · cases h
    · cases h
      rfl
  · cases h
    rfl

namespace Document

/-- **A block gives an issue for its name or a new table.** Where the names of some tables are
defined already, the redefinitions and the new tables are as many as the blocks. -/
theorem length_redefinitions {fragments : List TableFragment} {defined : List String}
    {tables : Registry Entity} (hdefined : ∀ name, name ∈ defined ↔ name ∈ tables.keys)
    (hown : ∀ f ∈ fragments, ∀ i ∈ f.ownIssues, i.isRedefinition = false) :
    ((tableIssues defined fragments).filter Issue.isRedefinition).length +
        ((fragments.filterMap TableFragment.block?).foldl
          (fun r b => r.insert b.name b.entity) tables).keys.length =
      tables.keys.length + (fragments.filterMap TableFragment.block?).length := by
  induction fragments generalizing defined tables with
  | nil => simp [tableIssues]
  | cons f fragments ih =>
    obtain ⟨hf, hfragments⟩ := List.forall_mem_cons.1 hown
    cases f with
    | skipped issue =>
      have hissue : issue.isRedefinition = false := hf issue (List.mem_singleton_self issue)
      rw [tableIssues, List.filter_cons_of_neg (by rw [hissue]; decide)]
      exact ih hdefined hfragments
    | block b =>
      have hissues : b.issues.filter Issue.isRedefinition = [] :=
        List.filter_eq_nil_iff.2 fun i hi => by rw [hf i hi]; decide
      have hkeys := tables.keys_insert b.name b.entity
      have hdefined' : ∀ name, name ∈ b.name :: defined ↔
          name ∈ (tables.insert b.name b.entity).keys := by
        intro name
        rw [List.mem_cons, hdefined, hkeys]
        split
        · next hold => exact ⟨fun h => h.elim (fun heq => heq ▸ hold) id, Or.inr⟩
        · rw [List.mem_append, List.mem_singleton, or_comm]
      have hrest := ih hdefined' hfragments
      have hblocks : (TableFragment.block b :: fragments).filterMap TableFragment.block? =
          b :: fragments.filterMap TableFragment.block? := rfl
      rw [hblocks, List.foldl_cons, List.length_cons, tableIssues, List.filter_append,
        List.filter_append, hissues, List.nil_append, List.length_append]
      by_cases hname : b.name ∈ defined
      · rw [if_pos ((hdefined b.name).1 hname)] at hkeys
        rw [hkeys] at hrest
        rw [if_pos hname, List.filter_cons_of_pos rfl, List.filter_nil, List.length_singleton]
        omega
      · rw [if_neg fun hmem => hname ((hdefined b.name).2 hmem)] at hkeys
        rw [hkeys, List.length_append, List.length_singleton] at hrest
        rw [if_neg hname, List.filter_nil, List.length_nil]
        omega

/-- **The blocks of a text** have a table or a redefinition each. -/
theorem length_isRedefinition_issues (text : List Char) :
    ((ofText text).issues.filter Issue.isRedefinition).length + (ofText text).tables.keys.length =
      (blocksOf text).length := by
  obtain ⟨starts, hstarts, -, -⟩ := exists_tablesFrom_eq_map text 0
  have hown : ∀ f ∈ scanTables text, ∀ i ∈ f.ownIssues, i.isRedefinition = false := by
    rw [scanTables_eq, hstarts]
    exact List.forall_mem_map.2 fun k _ i hi => isRedefinition_of_mem_ownIssues hi
  obtain ⟨lines, hlines, -, -⟩ :=
    exists_referencesFrom_eq_map ((blocksOf text).map TableBlock.span) text 0
  have hreferences : ((referencesOf text).filterMap ReferenceFragment.issue?).filter
      Issue.isRedefinition = [] := by
    rw [referencesOf, scanReferences_eq, hlines, List.filter_eq_nil_iff]
    intro i hi
    obtain ⟨f, hf, hissue⟩ := List.mem_filterMap.1 hi
    obtain ⟨k, -, rfl⟩ := List.mem_map.1 hf
    rw [isRedefinition_of_referenceAt (ReferenceFragment.issue?_eq_some_iff.1 hissue)]
    decide
  have htables : (ofText text).tables =
      (blocksOf text).foldl (fun r b => r.insert b.name b.entity) Registry.empty := by
    rw [tables_ofText, tablesOf, Registry.ofList, List.foldl_map]
  have hdefined : ∀ name, name ∈ [] ↔ name ∈ (Registry.empty : Registry Entity).keys := fun _ =>
    Iff.rfl
  have hcount := length_redefinitions hdefined hown
  rw [filter_issues, List.length_mergeSort, found_ofText, List.filter_append, hreferences,
    List.append_nil, htables]
  exact hcount.trans (Nat.zero_add _)

end Document

/-! ## Relationships -/

/-- What a reference of a field stands for: a relationship from the field to its target, one to
many, or one from the target to the field, many to one. -/
inductive Reference.Implies (table field : String) : Reference → Relationship → Prop
  | toTarget (target targetField : String) :
    Implies table field ⟨.toTarget, target, targetField⟩
      ⟨table, field, target, targetField, .oneToMany⟩
  | fromTarget (target targetField : String) :
    Implies table field ⟨.fromTarget, target, targetField⟩
      ⟨target, targetField, table, field, .manyToOne⟩

theorem Reference.implies_relationship (table field : String) (r : Reference) :
    r.Implies table field (r.relationship table field) := by
  obtain ⟨direction, target, targetField⟩ := r
  cases direction with
  | toTarget => exact .toTarget target targetField
  | fromTarget => exact .fromTarget target targetField

namespace Document

/-- The references of the fields of blocks, with the names of the block and of the field. -/
def referring (blocks : List TableBlock) : List (String × String × Reference) :=
  blocks.flatMap fun b => b.fields.filterMap fun f => f.reference.map fun r => (b.name, f.name, r)

/-- **The fields of blocks** imply one relationship for each reference, in order. -/
theorem forall₂_fieldRelationships (text : List Char) :
    List.Forall₂ (fun (table, field, r) e => Reference.Implies table field r e)
      (referring (blocksOf text)) (fieldRelationships text) := by
  have hmap : fieldRelationships text = (referring (blocksOf text)).map
      fun (table, field, r) => r.relationship table field := by
    unfold fieldRelationships referring Entity.inlineRelationships
    rw [List.map_flatMap]
    refine List.flatMap_congr fun b _ => ?_
    rw [List.map_filterMap]
    refine List.filterMap_congr fun f _ => ?_
    cases f.reference <;> rfl
  rw [hmap, List.forall₂_map_right_iff, List.forall₂_same]
  rintro ⟨table, field, r⟩ -
  exact r.implies_relationship table field

/-- **Redefinitions lose no edge.** The tables of a text bear the different names of its blocks, in
the order in which they first appear, and have the fields of the last block of their name; every
other block gives an issue.  The relationships are those of the reference lines, and then one for
each reference of a field in a block, whether its table is defined again or not.  So the references
of the tables have their relationships. -/
theorem redefinitions_keep_edges (text : List Char) :
    (ofText text).tables.keys = ((blocksOf text).map TableBlock.name).eraseDups ∧
    (∀ name e, (ofText text).tables.get? name = some e ↔
      ∃ before b after, blocksOf text = before ++ b :: after ∧ b.name = name ∧
        (∀ a ∈ after, a.name ≠ name) ∧ e = ⟨name, b.fields⟩) ∧
    ((ofText text).issues.filter Issue.isRedefinition).length + (ofText text).tables.keys.length =
      (blocksOf text).length ∧
    (∃ implied, (ofText text).relationships = lineRelationships text ++ implied ∧
      List.Forall₂ (fun (table, field, r) e => Reference.Implies table field r e)
        (referring (blocksOf text)) implied) ∧
    ∀ name e, (ofText text).tables.get? name = some e → ∀ f ∈ e.fields, ∀ r ∈ f.reference,
      ∃ edge ∈ (ofText text).relationships, r.Implies name f.name edge := by
  refine ⟨keys_tablesOf _, fun name e => get?_tablesOf_eq_some_iff,
    length_isRedefinition_issues text,
    ⟨fieldRelationships text, relationships_ofText text, forall₂_fieldRelationships text⟩, ?_⟩
  intro name e he f hf r hr
  obtain ⟨b, hb, rfl, rfl⟩ := mem_of_get?_tablesOf he
  refine ⟨r.relationship b.name f.name, ?_, r.implies_relationship b.name f.name⟩
  rw [relationships_ofText]
  refine List.mem_append_right _ (List.mem_flatMap.2 ⟨b, hb, ?_⟩)
  refine List.mem_filterMap.2 ⟨f, hf, ?_⟩
  rw [Option.mem_def.1 hr]
  rfl

-- The edge from the first `a` outlives its field.
example :
    let d := ofText ("Table a \x7bx int [ref: > b.y]\x7d Table b \x7by int\x7d " ++
      "Table a \x7bz int\x7d").toList
    d.tables.keys = ["a", "b"] ∧ d.relationships = [⟨"a", "x", "b", "y", .oneToMany⟩] ∧
      d.issues = [⟨1, .redefinition "a"⟩] := by
  decide +kernel

end Document

end SchemaDiagram
