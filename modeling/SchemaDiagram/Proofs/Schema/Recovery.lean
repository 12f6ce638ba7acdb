/-
# A printed text is read back

A text that is printed from well-formed items is read as the document of these items: its tables
in order, the relationships of its reference lines and then those of the references of its fields,
and no issue.

* `Entity.edges` : the relationships that the references of a table's fields say;
* `Document.ofText_documentText` : the document of a printed text.
-/
import SchemaDiagram.Proofs.Schema.ReferencePass
import SchemaDiagram.Proofs.Schema.Tables

namespace SchemaDiagram

open Text

/-! ## The relationships of fields -/

/-- The relationships that the references of a table's fields say, in field order.  A field that
refers to a target stands first, and a target that refers to a field stands first. -/
def Entity.edges (e : Entity) : List Relationship :=
  e.fields.flatMap fun f =>
    match f.reference with
    | none => []
    | some ⟨.toTarget, table, field⟩ => [⟨e.name, f.name, table, field, .oneToMany⟩]
    | some ⟨.fromTarget, table, field⟩ => [⟨table, field, e.name, f.name, .manyToOne⟩]

theorem Entity.inlineRelationships_eq (e : Entity) : e.inlineRelationships = e.edges := by
  obtain ⟨name, fields⟩ := e
  rw [inlineRelationships, edges]
  induction fields with
  | nil => rfl
  | cons f rest ih =>
    dsimp only at ih ⊢
    rw [List.filterMap_cons, List.flatMap_cons, ← ih]
    obtain ⟨_, _, _, _, reference⟩ := f
    rcases reference with _ | ⟨_ | _, table, field⟩ <;> rfl

/-! ## Blocks without issues -/

/-- Blocks with different names and no issues give no issues. -/
theorem Document.tableIssues_eq_nil {blocks : List TableBlock} {defined : List String}
    (hissues : ∀ b ∈ blocks, b.issues = []) (hdistinct : (blocks.map TableBlock.name).Nodup)
    (hnew : ∀ b ∈ blocks, b.name ∉ defined) :
    Document.tableIssues defined (blocks.map .block) = [] := by
  induction blocks generalizing defined with
  | nil => rfl
  | cons b rest ih =>
    rw [List.map_cons, List.nodup_cons] at hdistinct
    rw [List.map_cons, tableIssues, hissues b List.mem_cons_self,
      if_neg (hnew b List.mem_cons_self), ih]
    · rfl
    · exact fun b' hb' => hissues b' (List.mem_cons_of_mem b hb')
    · exact hdistinct.2
    · intro b' hb' hmem
      rcases List.mem_cons.1 hmem with hname | hmem
      · exact hdistinct.1 (hname ▸ List.mem_map_of_mem hb')
      · exact hnew b' (List.mem_cons_of_mem b hb') hmem

/-! ## Recovery -/

theorem BlocksOf.names {offset : Nat} {items : List Item} {blocks : List TableBlock}
    (h : BlocksOf offset items blocks) :
    blocks.map TableBlock.name = (items.filterMap Item.entity?).map Entity.name := by
  rw [← h.entities, List.map_map]
  rfl

theorem startAt_documentText (items : List Item) :
    (Cursor.startAt (documentText items) 0).FollowedBy (documentText items ++ []) := by
  rw [List.append_nil]
  exact Cursor.startAt_followedBy (documentText items)

/-- The reference pass over a printed text finds its reference lines, and no others. -/
theorem scanReferences_documentText {items : List Item} (hwf : ∀ item ∈ items, item.WellFormed) :
    scanReferences (documentText items) (spansFrom 0 items) =
      (items.filterMap Item.relationship?).map .relationship := by
  have hlast : ∀ x ∈ ([] : List Char).head?, x = '\n' := fun _ h => nomatch h
  obtain ⟨c', hread, hc'⟩ := referenceFragments_items hwf hlast (startAt_documentText items)
    (Cursor.startAt_atLine _) fun span (hspan : span ∈ []) => nomatch hspan
  have hread : scanReferences (documentText items) (spansFrom 0 items) =
      (items.filterMap Item.relationship?).map .relationship ++
        referenceFragments (spansFrom 0 items) c' := hread
  rw [hread, referenceFragments_of_none (hc'.findKeyword_end (by decide)), List.append_nil]

/-- A printed text whose table pass finds the blocks of its items has their tables and
relationships. -/
theorem Document.ofText_of_blocksOf {items : List Item} {blocks : List TableBlock}
    (hwf : ∀ item ∈ items, item.WellFormed)
    (hdistinct : ((items.filterMap Item.entity?).map Entity.name).Nodup)
    (hread : (scanTables (documentText items)).filterMap TableFragment.block? = blocks)
    (hblocks : BlocksOf 0 items blocks) :
    (Document.ofText (documentText items)).tables.entries =
        (items.filterMap Item.entity?).map (fun e => (e.name, e)) ∧
      (Document.ofText (documentText items)).relationships =
        items.filterMap Item.relationship? ++
          (items.filterMap Item.entity?).flatMap Entity.edges := by
  rw [← hblocks.names] at hdistinct
  refine ⟨?_, ?_⟩
  · show (Document.tablesOf ((scanTables (documentText items)).filterMap _)).entries = _
    rw [hread, Document.entries_tablesOf hdistinct, ← hblocks.entities, List.map_map]
    rfl
  · show (scanReferences (documentText items) (((scanTables _).filterMap _).map _)).filterMap _ ++
      ((scanTables _).filterMap TableFragment.block?).flatMap _ = _
    have hrelationships : ((items.filterMap Item.relationship?).map
        ReferenceFragment.relationship).filterMap ReferenceFragment.relationship? =
          items.filterMap Item.relationship? := by
      rw [List.filterMap_map]
      exact List.filterMap_some
    have hedges : (blocks.flatMap fun b => b.entity.inlineRelationships) =
        (blocks.map TableBlock.entity).flatMap Entity.edges := by
      rw [List.flatMap_map, ← funext Entity.inlineRelationships_eq]
    rw [hread, hblocks.spans, scanReferences_documentText hwf, hrelationships, hedges,
      hblocks.entities]

/-- **A printed text** is read as its items: the tables in order, the relationships of the
reference lines and then those of the fields, and no issues. -/
theorem Document.ofText_documentText {items : List Item}
    (hwf : ∀ item ∈ items, item.WellFormed) (hplain : ∀ item ∈ items, item.Unambiguous)
    (hdistinct : ((items.filterMap Item.entity?).map Entity.name).Nodup) :
    (Document.ofText (documentText items)).tables.entries =
        (items.filterMap Item.entity?).map (fun e => (e.name, e)) ∧
      (Document.ofText (documentText items)).relationships =
        items.filterMap Item.relationship? ++
          (items.filterMap Item.entity?).flatMap Entity.edges ∧
      (Document.ofText (documentText items)).issues = [] := by
  have hlast : ∀ x ∈ ([] : List Char).head?, x = '\n' := fun _ h => nomatch h
  obtain ⟨blocks, c', hread, hc', hblocks⟩ := tableFragments_items hwf hplain hlast
    (startAt_documentText items) (Cursor.startAt_atLine _)
  have hblocks : BlocksOf 0 items blocks := hblocks
  have hscan : scanTables (documentText items) = blocks.map .block := by
    rw [scanTables, hread, tableFragments_of_none (hc'.findKeyword_end (by decide)),
      List.append_nil]
  have hfound : (scanTables (documentText items)).filterMap TableFragment.block? = blocks := by
    rw [hscan, List.filterMap_map]
    exact List.filterMap_some
  obtain ⟨htables, hrelationships⟩ := ofText_of_blocksOf hwf hdistinct hfound hblocks
  refine ⟨htables, hrelationships, ?_⟩
  -- neither pass notes a fault
  have hnone : (Document.ofText (documentText items)).found = [] := by
    show tableIssues [] (scanTables (documentText items)) ++ (scanReferences _
      (((scanTables (documentText items)).filterMap _).map _)).filterMap _ = []
    rw [hfound, hblocks.spans, scanReferences_documentText hwf, hscan,
      tableIssues_eq_nil hblocks.issues (hblocks.names ▸ hdistinct) fun _ _ => List.not_mem_nil,
      List.filterMap_map]
    exact List.filterMap_eq_nil_iff.2 fun _ _ => rfl
  rw [Document.issues, hnone, List.mergeSort_nil]

/-- Items whose names and types look like keywords and remarks. -/
def lookalikeItems : List Item := [
  .reference (some "Ref") ⟨"Ref", "Table2", "nullable", "key", .manyToMany⟩,
  .table ⟨"Ref", [
    ⟨"Table", "[nullable]", true, true, none⟩,
    ⟨"Ref:", "\x7b", false, false, some ⟨.fromTarget, "nullable", "Ref"⟩⟩]⟩,
  .blank [],
  .table ⟨"nullable", [⟨"key", "[ref:", true, false, some ⟨.toTarget, "Ref", "Table"⟩⟩]⟩,
  .reference none ⟨"Ref", "Ref", "Ref", "Ref", .manyToOne⟩,
  .blank []]

theorem ofText_documentText_lookalike :
    (∀ item ∈ lookalikeItems, item.WellFormed) ∧
      (∀ item ∈ lookalikeItems, item.Unambiguous) ∧
      ((lookalikeItems.filterMap Item.entity?).map Entity.name).Nodup ∧
      (Document.ofText (documentText lookalikeItems)).tables.entries =
        (lookalikeItems.filterMap Item.entity?).map (fun e => (e.name, e)) ∧
      (Document.ofText (documentText lookalikeItems)).relationships =
        lookalikeItems.filterMap Item.relationship? ++
          (lookalikeItems.filterMap Item.entity?).flatMap Entity.edges ∧
      (Document.ofText (documentText lookalikeItems)).issues = [] := by
  have hwf : ∀ item ∈ lookalikeItems, item.WellFormed := by decide +kernel
  have hplain : ∀ item ∈ lookalikeItems, item.Unambiguous := by decide +kernel
  have hdistinct : ((lookalikeItems.filterMap Item.entity?).map Entity.name).Nodup := by
    decide +kernel
  exact ⟨hwf, hplain, hdistinct, Document.ofText_documentText hwf hplain hdistinct⟩

end SchemaDiagram
