/-
# A reflected database is checked

The schema text of a database gives no dangling relationship, since every foreign key of a database
refers to columns that there are.  It gives no issue either, with one exception: the reference lines
stand behind the tables, and the table pass goes over them too.  Where one of them has the word that
opens a table block as a name, this pass begins to read a block there and finds none.

* `Consistent` : a description as a database has it;
* `tableFragments_eq_nil_iff`, `tableKeyword_mem_names_iff` : what the table pass finds in the
  reference lines;
* `Consistent.issues_iff`, `Consistent.dangling_eq_nil` : when there are issues, and that nothing
  dangles;
* `schemaText_clean_iff` : when a check of the schema text of a database succeeds.
-/
import SchemaDiagram.Proofs.Command.Check
import SchemaDiagram.Proofs.Schema.Appending
import SchemaDiagram.Proofs.Schema.Reflection

namespace SchemaDiagram

open Text

/-! ## Consistent descriptions -/

/-- A description as a database has it: its tables have different names, and the columns of each
table too, no type closes a block, and a foreign key has columns of its table and as many columns of
a table to which it refers. -/
structure Consistent (tables : List DatabaseTable) : Prop where
  names : ∀ t ∈ tables, IsName t.name
  distinct : (tables.map DatabaseTable.name).Nodup
  columns : ∀ t ∈ tables, ∀ c ∈ t.columns, IsName c.name
  distinctColumns : ∀ t ∈ tables, (t.columns.map Column.name).Nodup
  types : ∀ t ∈ tables, ∀ c ∈ t.columns, '\x7d' ∉ c.type.toList
  lengths : ∀ t ∈ tables, ∀ k ∈ t.foreignKeys, k.columns.length = k.targets.length
  own : ∀ t ∈ tables, ∀ k ∈ t.foreignKeys, ∀ n ∈ k.columns, n ∈ t.columns.map Column.name
  referred : ∀ t ∈ tables, ∀ k ∈ t.foreignKeys, ∃ u ∈ tables, u.name = k.table ∧
    ∀ n ∈ k.targets, n ∈ u.columns.map Column.name

instance (tables : List DatabaseTable) : Decidable (Consistent tables) :=
  decidable_of_iff
    ((∀ t ∈ tables, IsName t.name) ∧ (tables.map DatabaseTable.name).Nodup ∧
      (∀ t ∈ tables, ∀ c ∈ t.columns, IsName c.name) ∧
      (∀ t ∈ tables, (t.columns.map Column.name).Nodup) ∧
      (∀ t ∈ tables, ∀ c ∈ t.columns, '\x7d' ∉ c.type.toList) ∧
      (∀ t ∈ tables, ∀ k ∈ t.foreignKeys, k.columns.length = k.targets.length) ∧
      (∀ t ∈ tables, ∀ k ∈ t.foreignKeys, ∀ n ∈ k.columns, n ∈ t.columns.map Column.name) ∧
      ∀ t ∈ tables, ∀ k ∈ t.foreignKeys, ∃ u ∈ tables, u.name = k.table ∧
        ∀ n ∈ k.targets, n ∈ u.columns.map Column.name)
    ⟨fun h => ⟨h.1, h.2.1, h.2.2.1, h.2.2.2.1, h.2.2.2.2.1, h.2.2.2.2.2.1, h.2.2.2.2.2.2.1,
        h.2.2.2.2.2.2.2⟩,
      fun h => ⟨h.1, h.2, h.3, h.4, h.5, h.6, h.7, h.8⟩⟩

/-- Whether a name is that of a table or a field of a relationship. -/
def Relationship.Mentions (e : Relationship) (name : String) : Prop :=
  name ∈ [e.fromTable, e.fromField, e.toTable, e.toField]

instance (e : Relationship) (name : String) : Decidable (e.Mentions name) :=
  inferInstanceAs (Decidable (name ∈ [e.fromTable, e.fromField, e.toTable, e.toField]))

section

variable {tables : List DatabaseTable}

/-- The columns of a table are names. -/
theorem Consistent.isName_of_mem (h : Consistent tables) {t : DatabaseTable} (ht : t ∈ tables)
    {n : String} (hn : n ∈ t.columns.map Column.name) : IsName n := by
  obtain ⟨c, hc, rfl⟩ := List.mem_map.1 hn
  exact h.columns t ht c hc

theorem Consistent.printable (h : Consistent tables) : ∀ t ∈ tables, t.Printable := by
  intro t ht
  refine ⟨h.names t ht, fun c hc => ?_, h.types t ht, fun k hk => ?_, fun k hk n hn => ?_,
    h.lengths t ht⟩
  · have hname := h.columns t ht c hc
    refine ⟨⟨hname.ne_nil, fun x hx => isBlank_eq_false_of_isNameChar (hname.nameChars x hx)⟩, ?_⟩
    exact fun hbrace => absurd (hname.nameChars _ hbrace) (by decide)
  · obtain ⟨u, hu, hname, -⟩ := h.referred t ht k hk
    exact hname ▸ h.names u hu
  · rcases List.mem_append.1 hn with hn | hn
    · exact h.isName_of_mem ht (h.own t ht k hk n hn)
    · obtain ⟨u, hu, -, htargets⟩ := h.referred t ht k hk
      exact h.isName_of_mem hu (htargets n hn)

/-- Both ends of a relationship of a database are columns of its tables. -/
theorem Consistent.ends_of_mem (h : Consistent tables) {e : Relationship}
    (he : e ∈ tables.flatMap DatabaseTable.edges) :
    (∃ t ∈ tables, t.name = e.fromTable ∧ e.fromField ∈ t.columns.map Column.name) ∧
      ∃ t ∈ tables, t.name = e.toTable ∧ e.toField ∈ t.columns.map Column.name := by
  obtain ⟨t, ht, he⟩ := List.mem_flatMap.1 he
  obtain ⟨k, hk, he⟩ := List.mem_flatMap.1 he
  obtain ⟨pair, hpair, rfl⟩ := List.mem_map.1 he
  obtain ⟨hown, htarget⟩ := List.of_mem_zip hpair
  obtain ⟨u, hu, hname, htargets⟩ := h.referred t ht k hk
  exact ⟨⟨t, ht, rfl, h.own t ht k hk _ hown⟩, u, hu, hname, htargets _ htarget⟩

end

/-! ## The table pass over reference lines -/

/-- The table pass finds nothing exactly when its keyword stands nowhere from there on. -/
theorem tableFragments_eq_nil_iff_forall {text : List Char} {c : Cursor text} :
    tableFragments c = [] ↔ ∀ k, c.pos ≤ k → ¬ Cursor.StandsAt tableKeyword text k := by
  rw [← Cursor.keywordFrom?_eq_none_iff (by decide) (by decide)]
  rcases hfind : c.findKeyword tableKeyword with ⟨found, c'⟩
  have hsearch := hfind
  unfold Cursor.findKeyword at hsearch
  cases hfound : Cursor.keywordFrom? tableKeyword text c.pos with
  | none =>
    rw [hfound] at hsearch
    obtain ⟨rfl, -⟩ := Prod.mk.inj hsearch
    exact iff_of_true (tableFragments_of_none hfind) rfl
  | some k =>
    rw [hfound] at hsearch
    obtain ⟨rfl, -⟩ := Prod.mk.inj hsearch
    rw [tableFragments_of_some hfind]
    exact iff_of_false (List.cons_ne_nil _ _) (Option.some_ne_none k)

/-- From the end of a line on, the table pass finds nothing exactly when its keyword is no name
there. -/
theorem tableFragments_eq_nil_iff {text s : List Char} {c : Cursor text}
    (hc : c.FollowedBy ('\n' :: s)) : tableFragments c = [] ↔ tableKeyword ∉ names s := by
  rw [tableFragments_eq_nil_iff_forall]
  obtain ⟨before, hlen, hlast, htext⟩ : ∃ before : List Char, before.length = c.pos + 1 ∧
      before.getLast? = some '\n' ∧ before ++ s = text := by
    refine ⟨text.take c.pos ++ ['\n'], ?_, List.getLast?_concat, ?_⟩
    · rw [List.length_append, List.length_take_of_le hc.within, List.length_singleton]
    · rw [← List.append_cons, ← hc.drop, List.take_append_drop]
  constructor
  · intro hnone hmem
    obtain ⟨k, hk⟩ := Cursor.exists_standsAt_of_mem_names (by decide) (by decide) hmem
    refine hnone (before.length + k) (by omega) ?_
    rw [← htext]
    refine (Cursor.standsAt_append_right fun _ x hx => ?_).2 hk
    rw [hlast] at hx
    obtain rfl : '\n' = x := Option.some.inj hx
    decide
  · intro hno k hk hstands
    have hlength := hstands.length_le
    have htotal := hc.length
    rw [List.length_cons] at htotal
    have hkeyword : tableKeyword.length = 5 := rfl
    -- before its names the part has the end of a line
    have hnames : tableKeyword ∉ names ('\n' :: s) := by
      rw [← List.nil_append ('\n' :: s), names_append_cons [] s (by decide)]
      exact fun hmem => (List.mem_append.1 hmem).elim (by decide) hno
    have hpart : text.drop c.pos = ('\n' :: s) ++ [] := by rw [hc.drop, List.append_nil]
    have hinside : k - c.pos < ('\n' :: s).length := by
      rw [List.length_cons]
      omega
    have hnot := Cursor.not_standsAt_of_part (by decide) hpart (by simp) hnames _ hinside
    rw [Nat.add_sub_cancel' hk] at hnot
    exact hnot hstands

/-- The names of a printed text are those of its items. -/
theorem mem_names_documentText {items : List Item} (hne : items ≠ []) {w : List Char} :
    w ∈ names (documentText items) ↔ ∃ item ∈ items, w ∈ names item.text := by
  induction items with
  | nil => exact absurd rfl hne
  | cons item rest ih =>
    cases rest with
    | nil => rw [documentText_singleton]; simp
    | cons next rest =>
      rw [documentText_cons item (List.cons_ne_nil next rest),
        names_append_cons _ _ (by decide), List.mem_append, ih (List.cons_ne_nil next rest)]
      simp only [List.mem_cons (b := item), exists_eq_or_imp]

/-- The word that opens a table block is a name of a reference line without a label exactly when
the relationship mentions it. -/
theorem tableKeyword_mem_names_reference_iff {e : Relationship} (he : e.Named) :
    tableKeyword ∈ names (Item.reference none e).text ↔ e.Mentions "Table" := by
  constructor
  · intro hmem
    by_contra hno
    have hwf : (Item.reference none e).WellFormed := ⟨fun _ hn => (nomatch hn), he⟩
    exact tableKeyword_not_mem_names hwf ⟨nofun, hno⟩ hmem
  · intro hmention
    have hexpression : tableKeyword ∈ names e.expression := by
      rw [Relationship.names_expression he]
      simp only [Relationship.Mentions, List.mem_cons, List.not_mem_nil, or_false] at hmention
      rcases hmention with h | h | h | h <;> simp [← h, tableKeyword]
    rw [Item.text, labelText, List.nil_append, names_append_cons _ _ (by decide)]
    exact List.mem_append_right _ hexpression

/-- The word that opens a table block is a name behind the tables of a database exactly when a
relationship mentions it. -/
theorem tableKeyword_mem_names_iff {edges : List Relationship} (h : ∀ e ∈ edges, e.Named) :
    tableKeyword ∈ names (documentText (referenceItems edges)) ↔
      ∃ e ∈ edges, e.Mentions "Table" := by
  have hne : referenceItems edges ≠ [] := List.append_ne_nil_of_right_ne_nil _ (by simp)
  rw [mem_names_documentText hne]
  constructor
  · rintro ⟨item, hitem, hmem⟩
    rcases mem_referenceItems hitem with rfl | ⟨e, he, rfl⟩
    · exact absurd hmem (by decide)
    · exact ⟨e, he, (tableKeyword_mem_names_reference_iff (h e he)).1 hmem⟩
  · rintro ⟨e, he, hmention⟩
    refine ⟨.reference none e, ?_, (tableKeyword_mem_names_reference_iff (h e he)).2 hmention⟩
    have hsome : edges.isEmpty = false := List.isEmpty_eq_false_iff.2 (List.ne_nil_of_mem he)
    rw [referenceItems, hsome]
    simp [he]

/-! ## The document and the diagram -/

section

variable {tables : List DatabaseTable} (h : Consistent tables)

include h

/-- The schema text of a database has issues exactly when a relationship mentions the word that
opens a table block. -/
theorem Consistent.issues_iff (hne : tables ≠ []) :
    (Document.ofText (documentText (databaseItems tables))).issues = [] ↔
      ∀ e ∈ tables.flatMap DatabaseTable.edges, ¬ e.Mentions "Table" := by
  obtain ⟨blocks, c, hread, hc, hblocks⟩ := scanTables_eq_append h.printable hne
  have hclean : tableFragments c = [] ↔
      ∀ e ∈ tables.flatMap DatabaseTable.edges, ¬ e.Mentions "Table" := by
    rw [tableFragments_eq_nil_iff hc, tableKeyword_mem_names_iff (named_edges h.printable)]
    simp only [not_exists, not_and]
  rw [← hclean]
  constructor
  · intro hissues
    obtain ⟨htables, -⟩ := Document.clean_of_issues hissues
    -- without issues there are blocks only, and behind the tables there is none
    have hnone : (tableFragments c).filterMap TableFragment.block? = [] := by
      refine tableFragments_no_brace ?_
      rw [hc.rest_eq]
      exact brace_not_mem_referenceItems (named_edges h.printable)
    refine List.eq_nil_iff_forall_not_mem.2 fun f hf => ?_
    obtain ⟨b, rfl⟩ := Document.exists_block_of_tableIssues htables f
      (hread ▸ List.mem_append_right _ hf)
    exact nomatch List.filterMap_eq_nil_iff.1 hnone _ hf
  · intro hnone
    have hscan : scanTables (documentText (databaseItems tables)) = blocks.map .block := by
      rw [hread, hnone, List.append_nil]
    have hfound : (blocks.map TableFragment.block).filterMap TableFragment.block? = blocks := by
      rw [List.filterMap_map]
      exact List.filterMap_some
    have hnames : (blocks.map TableBlock.name).Nodup := by
      rw [hblocks.names, entity?_databaseItems, List.map_map]
      exact h.distinct
    have hfoundNone : (Document.ofText (documentText (databaseItems tables))).found = [] := by
      rw [Document.found_ofText, Document.referencesOf, Document.blocksOf, hscan, hfound,
        hblocks.spans, scanReferences_documentText (wellFormed_databaseItems h.printable),
        Document.tableIssues_eq_nil hblocks.issues hnames fun _ _ => List.not_mem_nil,
        List.filterMap_map]
      exact List.filterMap_eq_nil_iff.2 fun _ _ => rfl
    rw [Document.issues, hfoundNone, List.mergeSort_nil]

/-- A column of a database is a field in the diagram of its schema text. -/
theorem Consistent.hasField {α : Type} [Arithmetic α] (hne : tables ≠ []) {c : Config}
    {recent : Registry (Point α)} {saved : Registry (Point α) LooseText} {d : Diagram α}
    (hbuild : Diagram.build c (documentText (databaseItems tables)) recent saved = .ok d)
    {t : DatabaseTable} (ht : t ∈ tables) {n : String} (hn : n ∈ t.columns.map Column.name) :
    HasField d.tables t.name n := by
  obtain ⟨htables, -⟩ := Document.ofText_databaseItems h.printable h.distinct hne
  have hget : (Document.ofText (documentText (databaseItems tables))).tables.get? t.name =
      some (t.entityWith typeText) := by
    rw [← Registry.mem_entries_iff, htables]
    exact List.mem_map_of_mem ht
  obtain ⟨p, hp⟩ := Diagram.tables_of_build hbuild hget
  obtain ⟨column, hcolumn, rfl⟩ := List.mem_map.1 hn
  exact ⟨_, hp, column.field typeText t.primaryKey, List.mem_map_of_mem hcolumn, rfl⟩

/-- Nothing dangles in a diagram of the schema text of a database. -/
theorem Consistent.dangling_eq_nil {α : Type} [Arithmetic α] (hne : tables ≠ []) {c : Config}
    {recent : Registry (Point α)} {saved : Registry (Point α) LooseText} {d : Diagram α}
    (hbuild : Diagram.build c (documentText (databaseItems tables)) recent saved = .ok d) :
    d.dangling = [] := by
  rw [Diagram.dangling_eq_nil_iff hbuild]
  obtain ⟨layout, routes, -, -, hd⟩ := Diagram.build_eq_ok_iff.1 hbuild
  obtain ⟨-, hrelated⟩ := Document.ofText_databaseItems h.printable h.distinct hne
  have hrelationships : d.relationships = tables.flatMap DatabaseTable.edges := by
    rw [hd, ← hrelated]
  intro e he
  rw [hrelationships] at he
  obtain ⟨⟨t, ht, hfrom, hown⟩, u, hu, hto, htarget⟩ := h.ends_of_mem he
  exact ⟨hfrom ▸ h.hasField hne hbuild ht hown, hto ▸ h.hasField hne hbuild hu htarget⟩

end

/-! ## Line ends -/

/-- Text without carriage returns is read as it is. -/
theorem universalNewlines_eq_self {s : List Char} (h : '\r' ∉ s) : universalNewlines s = s := by
  induction s with
  | nil => rfl
  | cons c rest ih =>
    obtain ⟨hc, hrest⟩ := not_or.1 (mt List.mem_cons.2 h)
    rw [universalNewlines, ih hrest]
    · rintro others rfl
      exact absurd rfl hc
    · rintro rfl
      exact absurd rfl hc

theorem IsName.carriageReturn_not_mem {n : String} (hn : IsName n) : '\r' ∉ n.toList :=
  fun hc => absurd (hn.nameChars _ hc) (by decide)

/-- The lines of a table block have no carriage return. -/
theorem Entity.carriageReturn_not_mem {e : Entity} (he : (Item.table e).WellFormed) :
    ∀ line ∈ e.lines, '\r' ∉ line := by
  intro line hline hc
  rw [Entity.lines, List.mem_append, List.mem_cons, List.mem_map, List.mem_singleton] at hline
  rcases hline with (rfl | ⟨f, hf, rfl⟩) | rfl
  · rw [List.mem_append, List.mem_append] at hc
    rcases hc with (hc | hc) | hc
    · exact absurd hc (by decide)
    · exact he.1.carriageReturn_not_mem hc
    · exact absurd hc (by decide)
  · rcases Field.mem_printed hc with hc | ⟨w, hw, hc⟩
    · exact absurd hc (by decide)
    · exact absurd (((he.2 f hf).isWord_words w hw).not_blank '\r' hc) (by decide)
  · exact absurd hc (by decide)

/-- A reference line has no carriage return. -/
theorem Relationship.Named.carriageReturn_not_mem {e : Relationship} (he : e.Named) :
    '\r' ∉ (Item.reference none e).text := by
  intro hc
  rcases List.mem_append.1 hc with hc | hc
  · exact absurd hc (by decide)
  rcases List.mem_cons.1 hc with hc | hc
  · exact absurd hc (by decide)
  · exact (he.mem_expression hc).elim (absurd · (by decide)) (absurd · (by decide))

/-- The text of a database has no carriage return. -/
theorem carriageReturn_not_mem_databaseItems {tables : List DatabaseTable}
    (h : ∀ t ∈ tables, t.Printable) : '\r' ∉ documentText (databaseItems tables) := by
  intro hc
  obtain ⟨part, hpart, hc⟩ := List.mem_flatten.1 hc
  rcases mem_intersperse hpart with rfl | hpart
  · exact absurd hc (by decide)
  obtain ⟨item, hitem, rfl⟩ := List.mem_map.1 hpart
  rcases List.mem_append.1 hitem with hitem | hitem
  · rcases mem_intersperse hitem with rfl | hitem
    · exact nomatch hc
    · obtain ⟨t, ht, rfl⟩ := List.mem_map.1 hitem
      obtain ⟨line, hline, hc⟩ := List.mem_flatten.1 hc
      rcases mem_intersperse hline with rfl | hline
      · exact absurd hc (by decide)
      · exact Entity.carriageReturn_not_mem (h t ht).entityWith line hline hc
  · rcases mem_referenceItems hitem with rfl | ⟨e, he, rfl⟩
    · exact nomatch hc
    · exact (named_edges h e he).carriageReturn_not_mem hc

/-! ## The check -/

/-- The schema text of a database, with what is read from it and drawn. -/
theorem Consistent.exists_schemaText {tables : List DatabaseTable} (h : Consistent tables) :
    ∃ text, schemaText tables = .ok text ∧ '\r' ∉ text.toList ∧
      ((Document.ofText text.toList).issues = [] ↔
        ∀ e ∈ tables.flatMap DatabaseTable.edges, ¬ e.Mentions "Table") ∧
      ∀ (c : Config) (recent : Registry (Point Quantity))
        (saved : Registry (Point Quantity) LooseText) (d : Diagram Quantity),
        Diagram.build c text.toList recent saved = .ok d → d.dangling = [] := by
  by_cases hne : tables = []
  · -- without tables the text is a line end, and no item stands before it
    subst hne
    refine ⟨"\n", rfl, by decide, iff_of_true (by decide +kernel) (by decide), ?_⟩
    intro c recent saved d hbuild
    rw [Diagram.dangling_eq_nil_iff hbuild]
    obtain ⟨layout, routes, -, -, rfl⟩ := Diagram.build_eq_ok_iff.1 hbuild
    have hnone : (Document.ofText "\n".toList).relationships = [] := by decide +kernel
    exact fun e he => absurd (hnone ▸ he) List.not_mem_nil
  · obtain ⟨text, htext, hlist⟩ := schemaText_eq hne h.printable
    refine ⟨text, htext, ?_⟩
    rw [hlist]
    exact ⟨carriageReturn_not_mem_databaseItems h.printable, h.issues_iff hne,
      fun c recent saved d hbuild => h.dangling_eq_nil hne hbuild⟩

/-- **The schema text of a database** gives no dangling relationship in any diagram, and no issue
unless a relationship mentions the word that opens a table block.  So a check of it, where it can be
drawn and the console can show the notice of success, finds it clean exactly when no relationship
mentions that word. -/
theorem schemaText_clean_iff {tables : List DatabaseTable} (h : Consistent tables) :
    ∃ text, schemaText tables = .ok text ∧
      ((Document.ofText text.toList).issues = [] ↔
        ∀ e ∈ tables.flatMap DatabaseTable.edges, ¬ e.Mentions "Table") ∧
      (∀ (c : Config) (recent : Registry (Point Quantity))
        (saved : Registry (Point Quantity) LooseText) (d : Diagram Quantity),
        Diagram.build c text.toList recent saved = .ok d → d.dangling = []) ∧
      ∀ (console : Console) (files : Files) (description : Option (List DatabaseTable))
        (schema : Location) (verbose : Bool) (d : Diagram Quantity),
        console.shows (Telling.successText (cleanText schema)) = true →
        files schema = some text.toList →
        Diagram.build Config.default text.toList .empty .empty = .ok d →
        Request.exitCode console files description (.check schema verbose) =
          if ∀ e ∈ tables.flatMap DatabaseTable.edges, ¬ e.Mentions "Table" then 0 else 1 := by
  obtain ⟨text, htext, hreturn, hissues, hdangling⟩ := h.exists_schemaText
  refine ⟨text, htext, hissues, hdangling, ?_⟩
  intro console files description schema verbose d hshows hfile hbuild
  have hlines := universalNewlines_eq_self hreturn
  have hclean : (d.issues = [] ∧ d.dangling = []) ↔
      ∀ e ∈ tables.flatMap DatabaseTable.edges, ¬ e.Mentions "Table" := by
    rw [Diagram.issues_of_build hbuild, ← hissues]
    exact and_iff_left (hdangling _ _ _ _ hbuild)
  rw [exitCode_check console description verbose hfile (hlines.symm ▸ hbuild)]
  exact if_congr ((and_iff_left hshows).trans hclean) rfl rfl

/-- Tables whose names, columns and types look like keywords and remarks. -/
def keywordTables : List DatabaseTable := [
  ⟨"Ref", [⟨"Ref", "[not null]", false⟩, ⟨"Table", "x \x7b", true⟩], ["Ref"],
    [⟨["Ref"], "nullable", ["id"]⟩]⟩,
  ⟨"nullable", [⟨"id", "", false⟩], ["id"], []⟩]

theorem schemaText_clean_keywords :
    Consistent keywordTables ∧
      ∃ text, schemaText keywordTables = .ok text ∧
        (Document.ofText text.toList).issues = [] ∧
        ∃ d : Diagram Quantity,
          Diagram.build Config.default text.toList .empty .empty = .ok d ∧ d.dangling = [] ∧
          Request.exitCode Terminal.console (fun _ => some text.toList) none
            (.check ⟨"a.dbml"⟩ true) = 0 := by
  have hconsistent : Consistent keywordTables := by decide +kernel
  have hplain : ∀ e ∈ keywordTables.flatMap DatabaseTable.edges, ¬ e.Mentions "Table" := by
    decide +kernel
  obtain ⟨text, htext, hissues, hdangling, hcheck⟩ := schemaText_clean_iff hconsistent
  have hok : ((schemaText keywordTables).toOption.all fun text =>
      (Diagram.build (α := Quantity) Config.default text.toList .empty .empty).isOk) = true := by
    decide +kernel
  rw [htext] at hok
  obtain ⟨d, hbuild⟩ := exists_of_isOk hok
  have hcode := hcheck Terminal.console (fun _ => some text.toList) none ⟨"a.dbml"⟩ true d
    (by decide +kernel) rfl hbuild
  rw [if_pos hplain] at hcode
  exact ⟨hconsistent, text, htext, hissues.2 hplain, d, hbuild, hdangling _ _ _ _ hbuild, hcode⟩

/-- A table with the name of the word that opens a block, which refers to itself. -/
def selfReferring : List DatabaseTable :=
  [⟨"Table", [⟨"id", "INT", false⟩, ⟨"up", "INT", true⟩], ["id"], [⟨["up"], "Table", ["id"]⟩]⟩]

/-- Not every database gives a schema text without issues. -/
theorem not_all_clean :
    ¬ ∀ tables : List DatabaseTable, Consistent tables →
      ∃ text, schemaText tables = .ok text ∧ (Document.ofText text.toList).issues = [] := by
  intro h
  obtain ⟨text, htext, hissues⟩ := h selfReferring (by decide +kernel)
  have hlist : Except.ok ("Table Table \x7b\n  id INT [primary key] [not null]\n" ++
      "  up INT [nullable]\n\x7d\n\nRef: Table.up > Table.id\n") = Except.ok text :=
    (show _ = schemaText _ by decide +kernel).trans htext
  obtain rfl := Except.ok.inj hlist
  exact absurd (Document.clean_of_issues hissues).1 (by decide +kernel)

end SchemaDiagram
