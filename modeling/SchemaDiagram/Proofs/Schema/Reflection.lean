/-
# A reflected database is read back

The schema text of a database is a printed text: its tables, each with a blank line behind it, and
a reference line for each pair of columns that a foreign key ties together.  So it is read as the
tables of the database and one relationship for each of the pairs.

* `DatabaseTable.Printable` : a description that has names where the text needs them;
* `DatabaseTable.entityWith`, `DatabaseTable.edges` : the table and the relationships described;
* `Document.ofText_schemaText` : the document of the schema text of a database.

A reference line may name a table `Table`, which looks like the beginning of a block.  It is none,
because no brace follows.
-/
import SchemaDiagram.Proofs.Outcome
import SchemaDiagram.Proofs.Schema.Recovery
import SchemaDiagram.Proofs.Schema.TypeWord

namespace SchemaDiagram

open Text

/-! ## Descriptions -/

/-- The names of tables and of the columns in foreign keys are names, other columns are words, no
type closes a block, and a foreign key has as many columns as it refers to. -/
structure DatabaseTable.Printable (t : DatabaseTable) : Prop where
  name : IsName t.name
  columns : ∀ c ∈ t.columns, IsToken c.name
  types : ∀ c ∈ t.columns, '\x7d' ∉ c.type.toList
  foreignTables : ∀ k ∈ t.foreignKeys, IsName k.table
  foreignColumns : ∀ k ∈ t.foreignKeys, ∀ n ∈ k.columns ++ k.targets, IsName n
  lengths : ∀ k ∈ t.foreignKeys, k.columns.length = k.targets.length

instance (t : DatabaseTable) : Decidable t.Printable :=
  decidable_of_iff
    (IsName t.name ∧ (∀ c ∈ t.columns, IsToken c.name) ∧ (∀ c ∈ t.columns, '\x7d' ∉ c.type.toList) ∧
      (∀ k ∈ t.foreignKeys, IsName k.table) ∧
      (∀ k ∈ t.foreignKeys, ∀ n ∈ k.columns ++ k.targets, IsName n) ∧
      ∀ k ∈ t.foreignKeys, k.columns.length = k.targets.length)
    ⟨fun h => ⟨h.1, h.2.1, h.2.2.1, h.2.2.2.1, h.2.2.2.2.1, h.2.2.2.2.2⟩,
      fun h => ⟨h.1, h.2, h.3, h.4, h.5, h.6⟩⟩

/-- The field of a column of a table with a primary key, with its type written by a function. -/
def Column.field (typeOf : String → String) (primaryKey : List String) (c : Column) : Field where
  name := c.name
  type := typeOf c.type
  primary := decide (c.name ∈ primaryKey)
  required := decide (c.name ∈ primaryKey) || !c.nullable
  reference := none

/-- The table of a description, with the types of its columns written by a function. -/
def DatabaseTable.entityWith (typeOf : String → String) (t : DatabaseTable) : Entity :=
  ⟨t.name, t.columns.map (Column.field typeOf t.primaryKey)⟩

/-- The relationships of a description: one for each pair of columns of a foreign key. -/
def DatabaseTable.edges (t : DatabaseTable) : List Relationship :=
  t.foreignKeys.flatMap fun k =>
    (k.columns.zip k.targets).map fun pair => ⟨t.name, pair.1, k.table, pair.2, .oneToMany⟩

/-! ## The text of a table -/

theorem Column.toList_line (primaryKey : List String) (c : Column) :
    ("  " ++ c.line primaryKey).toList = (c.field typeText primaryKey).printed := by
  have hmarks : ∀ primary nullable : Bool,
      (((if primary then ["[primary key]"] else []) ++
        [if nullable && !primary then "[nullable]" else "[not null]"]).map String.toList) =
          (Field.settings ⟨c.name, typeText c.type, primary, primary || !nullable, none⟩).map
            bracketed := by
    intro primary nullable
    cases primary <;> cases nullable <;> rfl
  have hcontains : primaryKey.contains c.name = decide (c.name ∈ primaryKey) := by
    rw [Bool.eq_iff_iff, List.contains_iff_mem, decide_eq_true_eq]
  rw [String.toList_append, Column.line, String.toList_intercalate, hcontains, typeWord_eq,
    List.map_append, hmarks, Field.printed]
  rfl

theorem DatabaseTable.toList_block (t : DatabaseTable) :
    t.block.toList = (Item.table (t.entityWith typeText)).text := by
  have hlines : (t.columns.map fun c => "  " ++ c.line t.primaryKey).map String.toList =
      (t.entityWith typeText).fields.map Field.printed := by
    rw [entityWith, List.map_map, List.map_map]
    exact List.map_congr_left fun c _ => Column.toList_line t.primaryKey c
  rw [block, String.toList_intercalate, List.map_append, List.map_append, hlines, List.map_singleton,
    String.toList_append, String.toList_append]
  rfl

/-! ## The text of a database -/

theorem ForeignKey.toList_line (table own foreign target : String) :
    ("Ref: " ++ table ++ "." ++ own ++ " > " ++ foreign ++ "." ++ target).toList =
      (Item.reference none ⟨table, own, foreign, target, .oneToMany⟩).text := by
  simp [Item.text, labelText, Relationship.expression, qualified, Cardinality.sign,
    referenceKeyword]

/-- The reference lines of a foreign key with as many columns as it refers to. -/
def ForeignKey.lineTexts (table : String) (k : ForeignKey) : List String :=
  (k.columns.zip k.targets).map fun pair =>
    "Ref: " ++ table ++ "." ++ pair.1 ++ " > " ++ k.table ++ "." ++ pair.2

theorem ForeignKey.lines_eq (table : String) {k : ForeignKey}
    (h : k.columns.length = k.targets.length) : k.lines table = .ok (k.lineTexts table) := by
  rw [lines, pairs, if_neg (by omega), if_neg (by omega)]
  rfl

/-- The reference lines of a database are those of its relationships. -/
theorem referenceLines_eq {tables : List DatabaseTable} (h : ∀ t ∈ tables, t.Printable) :
    ∃ lines, referenceLines tables = .ok lines ∧
      lines.map String.toList =
        ((tables.flatMap DatabaseTable.edges).map (Item.reference none)).map Item.text := by
  have hkeys : ∀ t ∈ tables, (t.foreignKeys.mapM fun k => k.lines t.name) =
      .ok (t.foreignKeys.map (ForeignKey.lineTexts t.name)) := fun t ht =>
    mapM_eq_ok fun k hk => ForeignKey.lines_eq t.name ((h t ht).lengths k hk)
  refine ⟨_, bind_eq_ok.2 ⟨_, mapM_eq_ok hkeys, rfl⟩, ?_⟩
  have hlines : ∀ (table : String) (k : ForeignKey), (k.lineTexts table).map String.toList =
      (k.columns.zip k.targets).map fun pair =>
        (Item.reference none ⟨table, pair.1, k.table, pair.2, .oneToMany⟩).text := by
    intro table k
    rw [ForeignKey.lineTexts, List.map_map]
    exact List.map_congr_left fun pair _ => ForeignKey.toList_line ..
  rw [List.flatten_flatten, List.map_map, ← List.flatMap_def, List.map_flatMap, List.map_map,
    List.map_flatMap]
  refine congrArg List.flatten (List.map_congr_left fun t _ => ?_)
  show ((t.foreignKeys.map (ForeignKey.lineTexts t.name)).flatten).map String.toList = _
  rw [← List.flatMap_def, List.map_flatMap, DatabaseTable.edges, List.map_flatMap]
  refine congrArg List.flatten (List.map_congr_left fun k _ => ?_)
  rw [hlines, List.map_map]
  rfl

/-- The items of the tables of a database, with blank lines between them. -/
def tableItems (tables : List DatabaseTable) : List Item :=
  (tables.map fun t => Item.table (t.entityWith typeText)).intersperse (.blank [])

/-- The items behind the tables of a database: the reference lines behind a blank line, and the end
of the last line. -/
def referenceItems (edges : List Relationship) : List Item :=
  (if edges.isEmpty then [] else .blank [] :: edges.map (Item.reference none)) ++ [.blank []]

/-- The items of a database: its tables, and the reference lines of its foreign keys. -/
def databaseItems (tables : List DatabaseTable) : List Item :=
  tableItems tables ++ referenceItems (tables.flatMap DatabaseTable.edges)

theorem intersperse_ne_nil {α : Type} {xs : List α} (hxs : xs ≠ []) (sep : α) :
    xs.intersperse sep ≠ [] := by
  match xs, hxs with
  | [_], _ => exact List.cons_ne_nil _ _
  | _ :: _ :: _, _ => exact List.cons_ne_nil _ _

/-- Items with blank lines between them have two newlines between them. -/
theorem documentText_intersperse (items : List Item) :
    documentText (items.intersperse (.blank [])) =
      "\n\n".toList.intercalate (items.map Item.text) := by
  induction items with
  | nil => rfl
  | cons item rest ih =>
    cases rest with
    | nil => rfl
    | cons next rest =>
      have hne := intersperse_ne_nil (List.cons_ne_nil next rest) (Item.blank [])
      have hnext : (next :: rest).map Item.text ≠ [] := List.cons_ne_nil _ _
      rw [List.intersperse_cons_cons, documentText_cons _ (List.cons_ne_nil _ _),
        documentText_cons _ hne, ih, List.map_cons (l := next :: rest),
        List.intercalate_cons_of_ne_nil hnext, List.append_assoc]
      rfl

theorem documentText_tableItems (tables : List DatabaseTable) :
    documentText (tableItems tables) =
      "\n\n".toList.intercalate ((tables.map DatabaseTable.block).map String.toList) := by
  rw [tableItems, documentText_intersperse, List.map_map, List.map_map]
  exact congrArg _ (List.map_congr_left fun t _ => t.toList_block.symm)

/-- The schema text of a database is the text of its items. -/
theorem schemaText_eq {tables : List DatabaseTable} (hne : tables ≠ [])
    (h : ∀ t ∈ tables, t.Printable) :
    ∃ text, schemaText tables = .ok text ∧ text.toList = documentText (databaseItems tables) := by
  obtain ⟨lines, hlines, htexts⟩ := referenceLines_eq h
  refine ⟨_, bind_eq_ok.2 ⟨lines, hlines, rfl⟩, ?_⟩
  have hitems : tableItems tables ≠ [] := intersperse_ne_nil (by simpa using hne) _
  have hblocks : (tables.map DatabaseTable.block).map String.toList ≠ [] := by simpa using hne
  rw [String.toList_append, String.toList_intercalate, databaseItems]
  generalize tables.flatMap DatabaseTable.edges = edges at htexts
  cases edges with
  | nil =>
    -- without relationships nothing follows the tables
    obtain rfl : lines = [] := List.map_eq_nil_iff.1 htexts
    rw [if_pos List.isEmpty_nil, ← documentText_tableItems, documentText_append hitems (by decide)]
    rfl
  | cons e others =>
    obtain ⟨line, lines, rfl⟩ : ∃ line rest, lines = line :: rest := by
      cases lines with
      | nil => exact nomatch htexts
      | cons line rest => exact ⟨line, rest, rfl⟩
    have hlines : documentText ((e :: others).map (Item.reference none)) =
        ("\n".intercalate (line :: lines)).toList := by
      rw [String.toList_intercalate, htexts]
      rfl
    have hedges : (e :: others).map (Item.reference none) ≠ [] := List.cons_ne_nil _ _
    have hitems' : referenceItems (e :: others) =
        .blank [] :: ((e :: others).map (Item.reference none) ++ [.blank []]) := rfl
    rw [hitems', documentText_append hitems (List.cons_ne_nil _ _), documentText_cons _ (by simp),
      documentText_append hedges (List.cons_ne_nil _ _), hlines,
      documentText_tableItems, if_neg (by simp), List.map_append, List.map_singleton,
      intercalate_append _ hblocks (List.cons_ne_nil _ _), List.intercalate_singleton,
      documentText_singleton]
    simp [Item.text]

/-! ## The items of a database -/

theorem mem_intersperse {α : Type} {xs : List α} {sep x : α} (h : x ∈ xs.intersperse sep) :
    x = sep ∨ x ∈ xs := by
  induction xs with
  | nil => exact nomatch h
  | cons first rest ih =>
    cases rest with
    | nil => exact Or.inr h
    | cons next rest =>
      rw [List.intersperse_cons_cons, List.mem_cons, List.mem_cons] at h
      rcases h with rfl | rfl | h
      · exact Or.inr List.mem_cons_self
      · exact Or.inl rfl
      · exact (ih h).imp_right (List.mem_cons_of_mem first)

/-- Elements between the others that give nothing can be left out. -/
theorem filterMap_intersperse {α β : Type} {f : α → Option β} {sep : α} (hsep : f sep = none)
    (xs : List α) : (xs.intersperse sep).filterMap f = xs.filterMap f := by
  induction xs with
  | nil => rfl
  | cons first rest ih =>
    cases rest with
    | nil => rfl
    | cons next rest =>
      rw [List.intersperse_cons_cons, List.filterMap_cons, List.filterMap_cons, hsep, ih,
        List.filterMap_cons (l := next :: rest)]

theorem DatabaseTable.Printable.entityWith {t : DatabaseTable} (h : t.Printable) :
    (Item.table (t.entityWith typeText)).WellFormed := by
  refine ⟨h.name, fun f hf => ?_⟩
  obtain ⟨c, hc, rfl⟩ := List.mem_map.1 hf
  exact ⟨h.columns c hc, isToken_typeText (h.types c hc), fun _ hnone => nomatch hnone⟩

theorem DatabaseTable.Printable.edges {t : DatabaseTable} (h : t.Printable) {e : Relationship}
    (he : e ∈ t.edges) : e.Named := by
  obtain ⟨k, hk, he⟩ := List.mem_flatMap.1 he
  obtain ⟨pair, hpair, rfl⟩ := List.mem_map.1 he
  obtain ⟨hown, htarget⟩ := List.of_mem_zip hpair
  have hcolumns := h.foreignColumns k hk
  exact ⟨h.name, hcolumns _ (List.mem_append_left _ hown), h.foreignTables k hk,
    hcolumns _ (List.mem_append_right _ htarget)⟩

/-- The columns of a database refer to nothing by themselves. -/
theorem DatabaseTable.edges_entityWith (typeOf : String → String) (t : DatabaseTable) :
    (t.entityWith typeOf).edges = [] := by
  rw [Entity.edges, entityWith, List.flatMap_map]
  exact List.flatMap_eq_nil_iff.2 fun _ _ => rfl

section

variable {tables : List DatabaseTable} {edges : List Relationship}

theorem wellFormed_tableItems (h : ∀ t ∈ tables, t.Printable) :
    ∀ item ∈ tableItems tables, item.WellFormed ∧ item.Unambiguous := by
  intro item hitem
  rcases mem_intersperse hitem with rfl | hitem
  · exact ⟨fun _ hc => absurd hc List.not_mem_nil, trivial⟩
  · obtain ⟨t, ht, rfl⟩ := List.mem_map.1 hitem
    exact ⟨(h t ht).entityWith, trivial⟩

theorem mem_referenceItems {item : Item} (h : item ∈ referenceItems edges) :
    item = .blank [] ∨ ∃ e ∈ edges, item = .reference none e := by
  rcases List.mem_append.1 h with h | h
  · cases edges with
    | nil => exact nomatch h
    | cons e others =>
      rcases List.mem_cons.1 h with h | h
      · exact Or.inl h
      · obtain ⟨e, he, rfl⟩ := List.mem_map.1 h
        exact Or.inr ⟨e, he, rfl⟩
  · exact Or.inl (List.mem_singleton.1 h)

theorem wellFormed_referenceItems (h : ∀ e ∈ edges, e.Named) :
    ∀ item ∈ referenceItems edges, item.WellFormed := by
  intro item hitem
  rcases mem_referenceItems hitem with rfl | ⟨e, he, rfl⟩
  · exact fun _ hc => nomatch hc
  · refine ⟨?_, h e he⟩
    exact fun _ hlabel => nomatch hlabel

theorem entity?_tableItems (tables : List DatabaseTable) :
    (tableItems tables).filterMap Item.entity? =
      tables.map (DatabaseTable.entityWith typeText) := by
  rw [tableItems, filterMap_intersperse rfl, List.filterMap_map, ← List.filterMap_eq_map]
  rfl

theorem relationship?_tableItems (tables : List DatabaseTable) :
    (tableItems tables).filterMap Item.relationship? = [] := by
  rw [tableItems, filterMap_intersperse rfl, List.filterMap_map]
  exact List.filterMap_eq_nil_iff.2 fun _ _ => rfl

theorem entity?_referenceItems : ∀ item ∈ referenceItems edges, item.entity? = none := by
  intro item hitem
  rcases mem_referenceItems hitem with rfl | ⟨e, -, rfl⟩
  · rfl
  · rfl

theorem relationship?_referenceItems (edges : List Relationship) :
    (referenceItems edges).filterMap Item.relationship? = edges := by
  have hedges : (edges.map (Item.reference none)).filterMap Item.relationship? = edges := by
    rw [List.filterMap_map]
    exact List.filterMap_some
  cases edges with
  | nil => rfl
  | cons e others =>
    rw [referenceItems, List.filterMap_append, if_neg (by simp), List.filterMap_cons, hedges]
    exact List.append_nil _

theorem entity?_databaseItems (tables : List DatabaseTable) :
    (databaseItems tables).filterMap Item.entity? =
      tables.map (DatabaseTable.entityWith typeText) := by
  rw [databaseItems, List.filterMap_append, entity?_tableItems,
    List.filterMap_eq_nil_iff.2 entity?_referenceItems, List.append_nil]

theorem relationship?_databaseItems (tables : List DatabaseTable) :
    (databaseItems tables).filterMap Item.relationship? =
      tables.flatMap DatabaseTable.edges := by
  rw [databaseItems, List.filterMap_append, relationship?_tableItems, relationship?_referenceItems,
    List.nil_append]

/-- No brace opens behind the tables of a database. -/
theorem brace_not_mem_referenceItems (h : ∀ e ∈ edges, e.Named) :
    '\x7b' ∉ '\n' :: documentText (referenceItems edges) := by
  intro hc
  rcases List.mem_cons.1 hc with hc | hc
  · exact absurd hc (by decide)
  obtain ⟨part, hpart, hc⟩ := List.mem_flatten.1 hc
  rcases mem_intersperse hpart with rfl | hpart
  · exact absurd hc (by decide)
  obtain ⟨item, hitem, rfl⟩ := List.mem_map.1 hpart
  rcases mem_referenceItems hitem with rfl | ⟨e, he, rfl⟩
  · exact nomatch hc
  rcases List.mem_append.1 hc with hc | hc
  · exact absurd hc (by decide)
  rcases List.mem_cons.1 hc with hc | hc
  · exact absurd hc (by decide)
  · exact ((h e he).mem_expression hc).elim (absurd · (by decide)) (absurd · (by decide))

end

/-! ## The document of a schema text -/

/-- Items without tables behind the others have no spans. -/
theorem spansFrom_append {items others : List Item} (h : ∀ item ∈ others, item.entity? = none)
    (offset : Nat) : spansFrom offset (items ++ others) = spansFrom offset items := by
  induction items generalizing offset with
  | nil =>
    induction others generalizing offset with
    | nil => rfl
    | cons item rest ih =>
      have hitem : spansFrom offset [item] = [] := by
        refine List.eq_nil_iff_forall_not_mem.2 fun span hspan => ?_
        have hsome := (mem_spansFrom_singleton.1 hspan).1
        rw [h item List.mem_cons_self] at hsome
        exact nomatch hsome
      rw [List.nil_append, spansFrom_cons, hitem, List.nil_append]
      exact ih (fun i hi => h i (List.mem_cons_of_mem item hi)) _
  | cons item rest ih => rw [List.cons_append, spansFrom_cons, ih, ← spansFrom_cons]

theorem BlocksOf.append {offset : Nat} {items others : List Item} {blocks : List TableBlock}
    (hblocks : BlocksOf offset items blocks) (h : ∀ item ∈ others, item.entity? = none) :
    BlocksOf offset (items ++ others) blocks where
  entities := by
    rw [hblocks.entities, List.filterMap_append, List.filterMap_eq_nil_iff.2 h, List.append_nil]
  spans := by rw [hblocks.spans, spansFrom_append h]
  issues := hblocks.issues

section

variable {tables : List DatabaseTable} (h : ∀ t ∈ tables, t.Printable)

include h

theorem named_edges : ∀ e ∈ tables.flatMap DatabaseTable.edges, e.Named := by
  intro e he
  obtain ⟨t, ht, he⟩ := List.mem_flatMap.1 he
  exact (h t ht).edges he

theorem wellFormed_databaseItems : ∀ item ∈ databaseItems tables, item.WellFormed := by
  intro item hitem
  rcases List.mem_append.1 hitem with hitem | hitem
  · exact (wellFormed_tableItems h item hitem).1
  · exact wellFormed_referenceItems (named_edges h) item hitem

/-- The table pass over the schema text of a database reads the blocks of its tables, and goes on at
its reference lines. -/
theorem scanTables_eq_append (hne : tables ≠ []) :
    ∃ (blocks : List TableBlock) (c : Cursor (documentText (databaseItems tables))),
      scanTables (documentText (databaseItems tables)) =
        blocks.map .block ++ tableFragments c ∧
      c.FollowedBy ('\n' :: documentText (referenceItems (tables.flatMap DatabaseTable.edges))) ∧
      BlocksOf 0 (databaseItems tables) blocks := by
  have hitems : tableItems tables ≠ [] := intersperse_ne_nil (by simpa using hne) _
  have hothers : referenceItems (tables.flatMap DatabaseTable.edges) ≠ [] :=
    List.append_ne_nil_of_right_ne_nil _ (by simp)
  have hstart : (Cursor.startAt (documentText (databaseItems tables)) 0).FollowedBy
      (documentText (tableItems tables) ++
        '\n' :: documentText (referenceItems (tables.flatMap DatabaseTable.edges))) := by
    rw [← documentText_append hitems hothers]
    exact Cursor.startAt_followedBy _
  obtain ⟨blocks, c, hread, hc, hblocks⟩ := tableFragments_items
    (fun item hitem => (wellFormed_tableItems h item hitem).1)
    (fun item hitem => (wellFormed_tableItems h item hitem).2)
    (by rintro x ⟨⟩; rfl) hstart (Cursor.startAt_atLine _)
  exact ⟨blocks, c, hread, hc, BlocksOf.append hblocks entity?_referenceItems⟩

/-- The table pass over the schema text of a database finds the blocks of its tables. -/
theorem scanTables_databaseItems (hne : tables ≠ []) :
    ∃ blocks, (scanTables (documentText (databaseItems tables))).filterMap
        TableFragment.block? = blocks ∧ BlocksOf 0 (databaseItems tables) blocks := by
  obtain ⟨blocks, c, hread, hc, hblocks⟩ := scanTables_eq_append h hne
  -- the word that opens a block may stand in a reference line, but no brace does
  have hrest : (tableFragments c).filterMap TableFragment.block? = [] := by
    refine tableFragments_no_brace ?_
    rw [hc.rest_eq]
    exact brace_not_mem_referenceItems (named_edges h)
  have hfound : (blocks.map TableFragment.block).filterMap TableFragment.block? = blocks := by
    rw [List.filterMap_map]
    exact List.filterMap_some
  refine ⟨blocks, ?_, hblocks⟩
  rw [hread, List.filterMap_append, hfound, hrest, List.append_nil]

end

/-- The items of a database are read as its tables and relationships. -/
theorem Document.ofText_databaseItems {tables : List DatabaseTable}
    (h : ∀ t ∈ tables, t.Printable) (hdistinct : (tables.map DatabaseTable.name).Nodup)
    (hne : tables ≠ []) :
    (Document.ofText (documentText (databaseItems tables))).tables.entries =
        tables.map (fun t => (t.name, t.entityWith typeText)) ∧
      (Document.ofText (documentText (databaseItems tables))).relationships =
        tables.flatMap DatabaseTable.edges := by
  obtain ⟨blocks, hread, hblocks⟩ := scanTables_databaseItems h hne
  have hnames : (((databaseItems tables).filterMap Item.entity?).map Entity.name).Nodup := by
    rw [entity?_databaseItems, List.map_map]
    exact hdistinct
  have hinline : (tables.map (DatabaseTable.entityWith typeText)).flatMap Entity.edges = [] := by
    rw [List.flatMap_map]
    exact List.flatMap_eq_nil_iff.2 fun t _ => t.edges_entityWith typeText
  obtain ⟨htables, hrelated⟩ :=
    ofText_of_blocksOf (wellFormed_databaseItems h) hnames hread hblocks
  refine ⟨?_, ?_⟩
  · rw [htables, entity?_databaseItems, List.map_map]
    rfl
  · rw [hrelated, relationship?_databaseItems, entity?_databaseItems, hinline, List.append_nil]

/-- **The schema text of a database** is read as its tables in order, with a relationship for each
pair of columns of its foreign keys. -/
theorem Document.ofText_schemaText {tables : List DatabaseTable} (h : ∀ t ∈ tables, t.Printable)
    (hdistinct : (tables.map DatabaseTable.name).Nodup) :
    ∃ text, schemaText tables = .ok text ∧
      (Document.ofText text.toList).tables.entries =
        tables.map (fun t => (t.name, t.entityWith typeText)) ∧
      (Document.ofText text.toList).relationships = tables.flatMap DatabaseTable.edges := by
  by_cases hne : tables = []
  · -- without tables the text is a line end, and no item stands before it
    subst hne
    exact ⟨"\n", rfl, by decide +kernel, by decide +kernel⟩
  obtain ⟨text, htext, hlist⟩ := schemaText_eq hne h
  refine ⟨text, htext, ?_⟩
  rw [hlist]
  exact ofText_databaseItems h hdistinct hne

/-- Tables with names that look like keywords, and columns and types that look like remarks. -/
def lookalikeTables : List DatabaseTable := [
  ⟨"Table", [⟨"Ref:", "VARCHAR (20)\t", true⟩, ⟨"[ref:", "\x7b", false⟩, ⟨"größe", "  ", true⟩],
    ["größe"], [⟨["größe", "Table"], "Ref", ["_2", "Ref"]⟩, ⟨["Ref"], "Table", ["größe"]⟩]⟩,
  ⟨"Ref", [⟨"_2", "[not null]", true⟩, ⟨"Ref", "INT", false⟩], ["_2", "Ref"], []⟩,
  ⟨"empty", [], [], []⟩]

theorem ofText_schemaText_lookalike :
    (∀ t ∈ lookalikeTables, t.Printable) ∧ (lookalikeTables.map DatabaseTable.name).Nodup ∧
      ∃ text, schemaText lookalikeTables = .ok text ∧
        (Document.ofText text.toList).tables.entries =
          lookalikeTables.map (fun t => (t.name, t.entityWith typeText)) ∧
        (Document.ofText text.toList).relationships =
          lookalikeTables.flatMap DatabaseTable.edges := by
  have hprintable : ∀ t ∈ lookalikeTables, t.Printable := by decide +kernel
  have hdistinct : (lookalikeTables.map DatabaseTable.name).Nodup := by decide +kernel
  exact ⟨hprintable, hdistinct, Document.ofText_schemaText hprintable hdistinct⟩

/-- The type of a column with every run of blanks replaced, those at its ends too. -/
def underscoredType (type : String) : String :=
  if type.toList.all isBlank then "unknown" else String.ofList (underscored type.toList)

/-- A blank before a type is dropped, and no underscore stands for it. -/
theorem schemaText_blank_before_type :
    ¬ ∀ tables : List DatabaseTable, (∀ t ∈ tables, t.Printable) →
      (tables.map DatabaseTable.name).Nodup →
      ∃ text, schemaText tables = .ok text ∧
        (Document.ofText text.toList).tables.entries =
          tables.map (fun t => (t.name, t.entityWith underscoredType)) ∧
        (Document.ofText text.toList).relationships = tables.flatMap DatabaseTable.edges := by
  intro h
  obtain ⟨text, htext, htables, -⟩ := h [⟨"t", [⟨"c", " INT", true⟩], [], []⟩]
    (by decide +kernel) (by decide +kernel)
  have hlist : Except.ok "Table t \x7b\n  c INT [nullable]\n\x7d\n" = Except.ok text :=
    (show _ = schemaText _ by decide +kernel).trans htext
  obtain rfl := Except.ok.inj hlist
  exact absurd htables (by decide +kernel)

end SchemaDiagram
