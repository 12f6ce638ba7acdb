/-
# Appending to a document

A document without issues has nothing that a text behind it could complete or change, so another
document may be appended on a new line.  The tables of the two are then entered one after the
other, their relationships are put together, and the issues are those of the second one at later
lines.

* `Document.scanTables_append`, `Document.referencesOf_append` : what the two passes find;
* `mergeSort_cons_eq`, `filter_mergeSort` : sorting keeps the order of what is left in;
* `Document.ofText_append` : the parse of the two texts.
-/
import SchemaDiagram.Proofs.Schema.Ahead
import SchemaDiagram.Proofs.Schema.Parts
import SchemaDiagram.Proofs.Schema.Tables

namespace SchemaDiagram

open Text

/-! ## The order of issues -/

section

variable {α : Type} {le : α → α → Bool}

/-- Sorting puts a new first element behind those that are less than it. -/
theorem mergeSort_cons_eq (htrans : ∀ a b c, le a b = true → le b c = true → le a c = true)
    (htotal : ∀ a b, (le a b || le b a) = true) (a : α) (l : List α) :
    (a :: l).mergeSort le =
      (l.mergeSort le).filter (fun b => !le a b) ++ a :: (l.mergeSort le).filter (le a) := by
  obtain ⟨before, after, hcons, hl, hbefore⟩ := List.mergeSort_cons htrans htotal a l
  have hsorted := List.pairwise_mergeSort htrans htotal (a :: l)
  rw [hcons, List.pairwise_append, List.pairwise_cons] at hsorted
  have hafter : ∀ b ∈ after, le a b = true := hsorted.2.1.1
  have hless : (before ++ after).filter (fun b => !le a b) = before := by
    rw [List.filter_append, List.filter_eq_self.2 hbefore, List.filter_eq_nil_iff.2,
      List.append_nil]
    intro b hb
    simp [hafter b hb]
  have hrest : (before ++ after).filter (le a) = after := by
    rw [List.filter_append, List.filter_eq_self.2 hafter, List.filter_eq_nil_iff.2, List.nil_append]
    intro b hb
    simpa using hbefore b hb
  rw [hcons, hl, hless, hrest]

/-- **Leaving out elements** of a list leaves the order of the others as it is when they are
sorted. -/
theorem filter_mergeSort (htrans : ∀ a b c, le a b = true → le b c = true → le a c = true)
    (htotal : ∀ a b, (le a b || le b a) = true) (p : α → Bool) (l : List α) :
    (l.mergeSort le).filter p = (l.filter p).mergeSort le := by
  induction l with
  | nil => rw [List.filter_nil, List.mergeSort_nil, List.filter_nil]
  | cons a l ih =>
    by_cases ha : p a = true
    · have hswap : ∀ q : α → Bool, ((l.mergeSort le).filter q).filter p =
          ((l.filter p).mergeSort le).filter q := by
        intro q
        rw [← ih, List.filter_filter, List.filter_filter]
        exact List.filter_congr fun b _ => Bool.and_comm _ _
      rw [mergeSort_cons_eq htrans htotal, List.filter_append, List.filter_cons_of_pos ha,
        List.filter_cons_of_pos ha, hswap, hswap, mergeSort_cons_eq htrans htotal]
    · obtain ⟨before, after, hcons, hl, -⟩ := List.mergeSort_cons htrans htotal a l
      rw [List.filter_cons_of_neg ha, ← ih, hcons, hl, List.filter_append, List.filter_append,
        List.filter_cons_of_neg ha]

end

/-- An issue that a table replaces an earlier definition. -/
def Issue.isRedefinition (i : Issue) : Bool :=
  match i.cause with
  | .redefinition _ => true
  | _ => false

/-- The issues that stay when redefinitions are left aside. -/
def Issue.otherThanRedefinition (issues : List Issue) : List Issue :=
  issues.filter fun i => !i.isRedefinition

theorem Issue.otherThanRedefinition_append (first later : List Issue) :
    Issue.otherThanRedefinition (first ++ later) =
      Issue.otherThanRedefinition first ++ Issue.otherThanRedefinition later :=
  List.filter_append first later

theorem Issue.otherThanRedefinition_below (lines : Nat) (issues : List Issue) :
    Issue.otherThanRedefinition (issues.map (Issue.below lines)) =
      (Issue.otherThanRedefinition issues).map (Issue.below lines) :=
  List.filter_map

namespace Document

theorem line_le_trans (a b c : Issue) (hab : decide (a.line ≤ b.line) = true)
    (hbc : decide (b.line ≤ c.line) = true) : decide (a.line ≤ c.line) = true := by
  rw [decide_eq_true_eq] at hab hbc ⊢
  exact Nat.le_trans hab hbc

theorem line_le_total (a b : Issue) :
    (decide (a.line ≤ b.line) || decide (b.line ≤ a.line)) = true := by
  rw [Bool.or_eq_true, decide_eq_true_eq, decide_eq_true_eq]
  exact Nat.le_total a.line b.line

/-- Leaving out issues leaves the order of the other ones as it is. -/
theorem filter_issues (p : Issue → Bool) (d : Document) :
    d.issues.filter p = (d.found.filter p).mergeSort fun a b => a.line ≤ b.line :=
  filter_mergeSort line_le_trans line_le_total p d.found

/-- Leaving redefinitions aside leaves the order of the other issues as it is. -/
theorem otherThanRedefinition_issues (d : Document) :
    Issue.otherThanRedefinition d.issues =
      (Issue.otherThanRedefinition d.found).mergeSort fun a b => a.line ≤ b.line :=
  filter_issues _ d

/-- Issues that are found some lines below are in the same order. -/
theorem mergeSort_below (lines : Nat) (issues : List Issue) :
    (issues.map (Issue.below lines)).mergeSort (fun a b => a.line ≤ b.line) =
      (issues.mergeSort fun a b => a.line ≤ b.line).map (Issue.below lines) := by
  refine (List.map_mergeSort ?_).symm
  intro a _ b _
  simp [Issue.below]

/-! ## The issues of fragments -/

theorem tableIssues_append (defined : List String) (first : List TableFragment) :
    ∃ defined', ∀ later, tableIssues defined (first ++ later) =
      tableIssues defined first ++ tableIssues defined' later := by
  induction first generalizing defined with
  | nil => exact ⟨defined, fun later => rfl⟩
  | cons f first ih =>
    cases f with
    | skipped issue =>
      obtain ⟨defined', hlater⟩ := ih defined
      exact ⟨defined', fun later => congrArg (issue :: ·) (hlater later)⟩
    | block b =>
      obtain ⟨defined', hlater⟩ := ih (b.name :: defined)
      refine ⟨defined', fun later => ?_⟩
      simp only [List.cons_append, tableIssues, hlater, List.append_assoc]

/-- Which names are defined already is told by redefinitions only. -/
theorem otherThanRedefinition_tableIssues (defined defined' : List String)
    (fragments : List TableFragment) :
    Issue.otherThanRedefinition (tableIssues defined fragments) =
      Issue.otherThanRedefinition (tableIssues defined' fragments) := by
  unfold Issue.otherThanRedefinition
  induction fragments generalizing defined defined' with
  | nil => rfl
  | cons f fragments ih =>
    cases f with
    | skipped issue =>
      rw [tableIssues, tableIssues, List.filter_cons, List.filter_cons, ih defined defined']
    | block b =>
      have hnone : ∀ names : List String, (if b.name ∈ names then
          [(⟨b.line, .redefinition b.name⟩ : Issue)] else []).filter
            (fun i => !i.isRedefinition) = [] := by
        intro names
        split <;> rfl
      rw [tableIssues, tableIssues, List.filter_append, List.filter_append, List.filter_append,
        List.filter_append, hnone, hnone, ih (b.name :: defined) (b.name :: defined')]

/-- Fragments some lines below have their issues there. -/
theorem tableIssues_below (chars lines : Nat) (defined : List String)
    (fragments : List TableFragment) :
    tableIssues defined (fragments.map (TableFragment.below chars lines)) =
      (tableIssues defined fragments).map (Issue.below lines) := by
  induction fragments generalizing defined with
  | nil => rfl
  | cons f fragments ih =>
    cases f with
    | skipped issue => exact congrArg (issue.below lines :: ·) (ih defined)
    | block b =>
      have hrest := ih (b.name :: defined)
      rw [List.map_cons, TableFragment.below, tableIssues, tableIssues, List.map_append,
        List.map_append, ← hrest]
      by_cases hmem : b.name ∈ defined <;> simp [TableBlock.below, Issue.below, hmem]

/-- Fragments without issues are blocks. -/
theorem exists_block_of_tableIssues {defined : List String} {fragments : List TableFragment}
    (h : tableIssues defined fragments = []) : ∀ f ∈ fragments, ∃ b, f = .block b := by
  induction fragments generalizing defined with
  | nil =>
    intro f hf
    cases hf
  | cons f fragments ih =>
    cases f with
    | skipped issue => cases h
    | block b =>
      obtain ⟨-, hrest⟩ := List.append_eq_nil_iff.1 h
      intro f hf
      rcases List.mem_cons.1 hf with rfl | hf
      · exact ⟨b, rfl⟩
      · exact ih hrest f hf

/-- Reference fragments without issues are relationships. -/
theorem exists_relationship_of_issue? {fragments : List ReferenceFragment}
    (h : fragments.filterMap ReferenceFragment.issue? = []) :
    ∀ f ∈ fragments, ∃ e, f = .relationship e := by
  intro f hf
  cases f with
  | relationship e => exact ⟨e, rfl⟩
  | skipped issue =>
    have hissue := List.filterMap_eq_nil_iff.1 h _ hf
    cases hissue

/-! ## What the passes find -/

section

variable {s : List Char}

theorem freshFrom_newline (s r : List Char) : FreshFrom (s ++ ['\n']) r 0 := by
  refine Or.inl fun c hc => ?_
  rw [List.getLast?_concat] at hc
  exact (Option.some.inj hc).symm

/-- **The table pass** finds the blocks of a first text, and behind them those of the next one. -/
theorem scanTables_append (h : ∀ f ∈ scanTables s, ∃ b, f = .block b) (r : List Char) :
    scanTables (s ++ '\n' :: r) = scanTables s ++
      (scanTables r).map (TableFragment.below (s.length + 1) (s.count '\n' + 1)) := by
  have hnewline := head?_not_nameChar (x := '\n') (by decide) r
  have hblank : ∀ c ∈ ['\n'], isBlank c = true := by decide
  have hover : tablesFrom (s ++ '\n' :: r) s.length =
      tablesFrom (s ++ '\n' :: r) (s.length + 1) :=
    tablesFrom_congr (Cursor.keywordFrom?_blanks (by decide) (by decide) hblank)
  have hright := tablesFrom_append_right (freshFrom_newline s r)
  rw [List.append_assoc, List.length_append, List.count_append] at hright
  rw [scanTables_eq, tablesFrom_append_left hnewline (Nat.zero_le _) h, hover]
  exact congrArg (scanTables s ++ ·) hright

theorem blocksOf_append (h : ∀ f ∈ scanTables s, ∃ b, f = .block b) (r : List Char) :
    blocksOf (s ++ '\n' :: r) = blocksOf s ++
      (blocksOf r).map (TableBlock.below (s.length + 1) (s.count '\n' + 1)) := by
  unfold blocksOf
  rw [scanTables_append h, List.filterMap_append, filterMap_block?_below]

/-- **The reference pass** finds the relationships of a first text, and behind them what it finds
in the next one. -/
theorem referencesOf_append (h : ∀ f ∈ scanTables s, ∃ b, f = .block b)
    (hreferences : ∀ f ∈ referencesOf s, ∃ e, f = .relationship e) (r : List Char) :
    referencesOf (s ++ '\n' :: r) = referencesOf s ++
      (referencesOf r).map (ReferenceFragment.below (s.count '\n' + 1)) := by
  have hspans : (blocksOf (s ++ '\n' :: r)).map TableBlock.span =
      (blocksOf s).map TableBlock.span ++ ((blocksOf r).map TableBlock.span).map
        fun span => (s.length + 1 + span.1, s.length + 1 + span.2) := by
    rw [blocksOf_append h, List.map_append, List.map_map, List.map_map]
    rfl
  have hblank : ∀ c ∈ ['\n'], isBlank c = true := by decide
  have hlater : ∀ span ∈ ((blocksOf r).map TableBlock.span).map
      (fun span => (s.length + 1 + span.1, s.length + 1 + span.2)), s.length ≤ span.1 := by
    intro span hspan
    obtain ⟨inner, -, rfl⟩ := List.mem_map.1 hspan
    dsimp only
    omega
  have hpassed : ∀ span ∈ (blocksOf s).map TableBlock.span,
      span.2 ≤ (s ++ ['\n']).length + 0 := by
    intro span hspan
    obtain ⟨b, hb, rfl⟩ := List.mem_map.1 hspan
    have hle := (span_of_mem_blocksOf hb).2
    rw [List.length_append]
    omega
  have hover : ∀ spans, referencesFrom spans (s ++ '\n' :: r) s.length =
      referencesFrom spans (s ++ '\n' :: r) (s.length + 1) := fun spans =>
    referencesFrom_congr (Cursor.keywordFrom?_blanks (by decide) (by decide) hblank)
  have hright := @referencesFrom_append_right _ _ _ _ ((blocksOf r).map TableBlock.span)
    (freshFrom_newline s r) hpassed
  rw [List.append_assoc, List.length_append, List.count_append] at hright
  rw [referencesOf, hspans, scanReferences_eq,
    referencesFrom_append_left (Nat.zero_le _) hlater hreferences, hover]
  exact congrArg (referencesOf s ++ ·) hright

theorem lineRelationships_append (h : ∀ f ∈ scanTables s, ∃ b, f = .block b)
    (hreferences : ∀ f ∈ referencesOf s, ∃ e, f = .relationship e) (r : List Char) :
    lineRelationships (s ++ '\n' :: r) = lineRelationships s ++ lineRelationships r := by
  unfold lineRelationships
  rw [referencesOf_append h hreferences, List.filterMap_append, filterMap_relationship?_below]

theorem fieldRelationships_append (h : ∀ f ∈ scanTables s, ∃ b, f = .block b) (r : List Char) :
    fieldRelationships (s ++ '\n' :: r) = fieldRelationships s ++ fieldRelationships r := by
  unfold fieldRelationships
  rw [blocksOf_append h, List.flatMap_append, List.flatMap_map]
  rfl

end

/-! ## The two documents -/

/-- A document without issues is made of blocks and relationships. -/
theorem clean_of_issues {s : List Char} (h : (ofText s).issues = []) :
    tableIssues [] (scanTables s) = [] ∧
      (referencesOf s).filterMap ReferenceFragment.issue? = [] := by
  have hperm := List.mergeSort_perm (ofText s).found fun a b => a.line ≤ b.line
  have hsorted : (ofText s).found.mergeSort (fun a b => a.line ≤ b.line) = [] := h
  rw [hsorted] at hperm
  exact List.append_eq_nil_iff.1 hperm.symm.eq_nil

/-- **Appending to a document without issues** puts the tables, the relationships and the issues
of the two documents together. -/
theorem ofText_append {s : List Char} (h : (ofText s).issues = []) (r : List Char) :
    (ofText (s ++ '\n' :: r)).tables.keys =
        (ofText s).tables.keys ++
          (ofText r).tables.keys.filter (fun name => name ∉ (ofText s).tables.keys) ∧
      (∀ name, (ofText (s ++ '\n' :: r)).tables.get? name =
        ((ofText r).tables.get? name).or ((ofText s).tables.get? name)) ∧
      (ofText (s ++ '\n' :: r)).relationships =
        lineRelationships s ++ lineRelationships r ++ fieldRelationships s ++
          fieldRelationships r ∧
      Issue.otherThanRedefinition (ofText (s ++ '\n' :: r)).issues =
        (Issue.otherThanRedefinition (ofText r).issues).map (Issue.below (1 + s.count '\n')) := by
  obtain ⟨htables, hreferences⟩ := clean_of_issues h
  have hblocks := exists_block_of_tableIssues htables
  have hlines := exists_relationship_of_issue? hreferences
  have hentries : (blocksOf (s ++ '\n' :: r)).map (fun b => (b.name, b.entity)) =
      (blocksOf s).map (fun b => (b.name, b.entity)) ++
        (blocksOf r).map (fun b => (b.name, b.entity)) := by
    rw [blocksOf_append hblocks, List.map_append, List.map_map]
    rfl
  refine ⟨?_, ?_, ?_, ?_⟩
  · rw [tables_ofText, tablesOf, hentries, Registry.keys_ofList_append]
    rfl
  · intro name
    rw [tables_ofText, tablesOf, hentries, Registry.get?_ofList_append]
    rfl
  · rw [relationships_ofText, lineRelationships_append hblocks hlines,
      fieldRelationships_append hblocks, List.append_assoc (_ ++ _)]
  · obtain ⟨defined, hlater⟩ := tableIssues_append [] (scanTables s)
    have hfound : (ofText (s ++ '\n' :: r)).found =
        (tableIssues defined (scanTables r) ++
          (referencesOf r).filterMap ReferenceFragment.issue?).map
            (Issue.below (1 + s.count '\n')) := by
      rw [found_ofText, scanTables_append hblocks, hlater, htables,
        referencesOf_append hblocks hlines, List.filterMap_append, hreferences,
        tableIssues_below, filterMap_issue?_below, List.map_append, Nat.add_comm]
      rfl
    -- which names are defined by the first text does not matter for the other issues
    have hother : Issue.otherThanRedefinition (ofText (s ++ '\n' :: r)).found =
        (Issue.otherThanRedefinition (ofText r).found).map
          (Issue.below (1 + s.count '\n')) := by
      rw [hfound, Issue.otherThanRedefinition_below, found_ofText,
        Issue.otherThanRedefinition_append, Issue.otherThanRedefinition_append,
        otherThanRedefinition_tableIssues defined []]
    rw [otherThanRedefinition_issues, otherThanRedefinition_issues, hother, mergeSort_below]

/-- A text without issues: a table and a reference line that the text ends in. -/
def finishedText : List Char :=
  "Table a \x7b\n  x int [ref: > b.y]\n\x7d\nRef: a.x > b.y".toList

/-- A text with issues: a table that is defined again, one without a name, and a reference line
without a colon. -/
def unfinishedText : List Char :=
  "\x7d Table a \x7b\n  z [ref: b]\n\x7d\nTable\x7b\nRef z\nRef: b.y <> a.z\nTable b\x7b\x7d".toList

theorem ofText_append_unfinished :
    (ofText finishedText).issues = [] ∧
      (ofText (finishedText ++ '\n' :: unfinishedText)).tables.keys =
        (ofText finishedText).tables.keys ++
          (ofText unfinishedText).tables.keys.filter
            (fun name => name ∉ (ofText finishedText).tables.keys) ∧
      (∀ name, (ofText (finishedText ++ '\n' :: unfinishedText)).tables.get? name =
        ((ofText unfinishedText).tables.get? name).or ((ofText finishedText).tables.get? name)) ∧
      (ofText (finishedText ++ '\n' :: unfinishedText)).relationships =
        lineRelationships finishedText ++ lineRelationships unfinishedText ++
          fieldRelationships finishedText ++ fieldRelationships unfinishedText ∧
      Issue.otherThanRedefinition (ofText (finishedText ++ '\n' :: unfinishedText)).issues =
        (Issue.otherThanRedefinition (ofText unfinishedText).issues).map
          (Issue.below (1 + finishedText.count '\n')) := by
  have hclean : (ofText finishedText).issues = [] := by decide +kernel
  exact ⟨hclean, ofText_append hclean unfinishedText⟩

end Document

end SchemaDiagram
