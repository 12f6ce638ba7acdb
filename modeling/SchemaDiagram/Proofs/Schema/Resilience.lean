/-
# What a malformed text takes with it

A construct is sought behind its keyword over any number of lines.  So one that a text leaves
unfinished at its end reads on into the next text, and takes away with it what stands there.  This
is all that can be lost: behind any other malformed text, a text keeps its tables and
relationships.

* `ReadsOn` : a construct at the end of a text reads on into the next one;
* `StopsBefore` : where the reading of any other construct stops;
* `tablesFrom_behind`, `referencesFrom_behind` : both passes come to the start of the next text;
* `Document.ofText_append_of_malformed` : what a text keeps behind a malformed one;
* `Document.not_all_kept` : a table is lost when the one before it lacks its name.
-/
import SchemaDiagram.Proofs.Schema.Parts

namespace SchemaDiagram

open Text

variable {keyword s r : List Char} {opener : Char} {k p : Nat}

/-- A construct at the end of a text reads on into the next text: only blanks stand behind its
keyword, so that its name is sought there, or only a name, and the next text starts with the
character that opens the construct. -/
def ReadsOn (keyword : List Char) (opener : Char) (s r : List Char) : Prop :=
  ∃ k, Cursor.StandsAt keyword s k ∧ (opening (s.drop (k + keyword.length))).2 = [] ∧
    ((opening (s.drop (k + keyword.length))).1 = [] ∨ (r.dropWhile isBlank).head? = some opener)

/-- Whether a construct reads on can be told from the offsets of the first text. -/
theorem readsOn_iff (hkeyword : keyword ≠ []) :
    ReadsOn keyword opener s r ↔ ∃ k < s.length,
      (keyword <+: s.drop k ∧ Cursor.standsAlone s k (k + keyword.length) = true) ∧
      (opening (s.drop (k + keyword.length))).2 = [] ∧
      ((opening (s.drop (k + keyword.length))).1 = [] ∨
        (r.dropWhile isBlank).head? = some opener) := by
  constructor
  · rintro ⟨k, hstands, hrest⟩
    have hlen := hstands.length_le
    have hpos := List.length_pos_iff.2 hkeyword
    exact ⟨k, by omega, (Cursor.standsAt_iff hkeyword).1 hstands, hrest⟩
  · rintro ⟨k, -, hstands, hrest⟩
    exact ⟨k, (Cursor.standsAt_iff hkeyword).2 hstands, hrest⟩

/-- A reading stops in the first text, or behind the blanks at the front of the next one. -/
def StopsBefore (s r rest : List Char) : Prop :=
  (∃ own, own ≠ [] ∧ own <:+ s ∧ rest = own ++ r) ∨ rest = r.dropWhile isBlank

/-! ## Where readings stop -/

/-- The opening of a construct that does not read on stops before the next text, or it comes to
another character than the one that opens the construct. -/
theorem opening_cases (hline : s.getLast? = some '\n') (hstands : Cursor.StandsAt keyword s k)
    (h : ¬ ReadsOn keyword opener s r) :
    (∃ name own, own ≠ [] ∧ own <:+ s ∧
      opening ((s ++ r).drop (k + keyword.length)) = (name, own ++ r)) ∨
    (∃ name, (r.dropWhile isBlank).head? ≠ some opener ∧
      opening ((s ++ r).drop (k + keyword.length)) = (name, r.dropWhile isBlank)) := by
  rw [List.drop_append_of_le_length hstands.length_le]
  have hsuffix : s.drop (k + keyword.length) <:+ s := List.drop_suffix _ _
  by_cases hrest : (opening (s.drop (k + keyword.length))).2 = []
  · have hlast : ∀ c ∈ (s.drop (k + keyword.length)).getLast?, isBlank c = true := by
      intro c hc
      rw [List.getLast?_drop] at hc
      split at hc
      · cases hc
      · rw [hline] at hc
        cases hc
        decide
    have hname : (opening (s.drop (k + keyword.length))).1 ≠ [] := fun hnil =>
      h ⟨k, hstands, hrest, Or.inl hnil⟩
    exact Or.inr ⟨_, fun hhead => h ⟨k, hstands, hrest, Or.inr hhead⟩,
      opening_append_of_name hlast hname hrest r⟩
  · exact Or.inl ⟨_, _, hrest, (opening_suffix _).trans hsuffix, opening_append hrest r⟩

/-- Without the brace that opens it there is no block. -/
theorem readBlock_of_unopened {text name rest : List Char} (hopening : opening text = (name, rest))
    (h : rest.head? ≠ some '\x7b') : ∃ fault, readBlock text = (.error fault, rest) := by
  by_cases hname : name = []
  · subst hname
    exact ⟨_, (BlockRead.nameless hopening).eq⟩
  · exact ⟨_, (BlockRead.unopened hopening hname h).eq⟩

/-- In a text without braces a block is not read, unless it reads on. -/
theorem readBlock_stopsBefore (hline : s.getLast? = some '\n') (hbrace : '\x7b' ∉ s)
    (hstands : Cursor.StandsAt tableKeyword s k) (h : ¬ ReadsOn tableKeyword '\x7b' s r) :
    ∃ fault rest, readBlock ((s ++ r).drop (k + tableKeyword.length)) = (.error fault, rest) ∧
      StopsBefore s r rest := by
  rcases opening_cases hline hstands h with ⟨name, own, hne, hown, hopening⟩ |
    ⟨name, hhead, hopening⟩
  · have hhead : (own ++ r).head? ≠ some '\x7b' := by
      rw [List.head?_append_of_ne_nil own hne]
      intro hmem
      exact hbrace (hown.subset (List.mem_of_mem_head? hmem))
    obtain ⟨fault, hread⟩ := readBlock_of_unopened hopening hhead
    exact ⟨fault, _, hread, Or.inl ⟨own, hne, hown, rfl⟩⟩
  · obtain ⟨fault, hread⟩ := readBlock_of_unopened hopening hhead
    exact ⟨fault, _, hread, Or.inr rfl⟩

/-- A reference line stops in its text, unless it reads on. -/
theorem readReference_stopsBefore (hline : s.getLast? = some '\n')
    (hstands : Cursor.StandsAt referenceKeyword s k) (h : ¬ ReadsOn referenceKeyword ':' s r) :
    StopsBefore s r (readReference ((s ++ r).drop (k + referenceKeyword.length))).2 := by
  rcases opening_cases hline hstands h with ⟨name, own, hne, hown, hopening⟩ |
    ⟨name, hhead, hopening⟩
  · by_cases hcolon : own.head? = some ':'
    · obtain ⟨line, rfl⟩ := List.head?_eq_some_iff.1 hcolon
      -- the first text ends with a newline, so the line ends in it
      have hnewline : '\n' ∈ line := by
        obtain ⟨before, rfl⟩ := hown
        rw [List.getLast?_append, List.getLast?_eq_some_getLast hne] at hline
        have hmem : '\n' ∈ ':' :: line := Option.some.inj hline ▸ List.getLast_mem hne
        simpa using hmem
      have hstop : line.dropWhile (· ≠ '\n') ≠ [] := dropWhile_ne_nil_of_mem (by simp) hnewline
      have hline' : line.dropWhile (· ≠ '\n') <:+ s :=
        (List.dropWhile_suffix _).trans ((List.suffix_cons _ _).trans hown)
      rw [readReference_of_colon hopening]
      exact Or.inl ⟨_, hstop, hline', dropWhile_append_of_ne_nil hstop r⟩
    · have hhead : (own ++ r).head? ≠ some ':' := by
        rwa [List.head?_append_of_ne_nil own hne]
      rw [readReference_of_no_colon hopening hhead]
      exact Or.inl ⟨own, hne, hown, rfl⟩
  · rw [readReference_of_no_colon hopening hhead]
    exact Or.inr rfl

/-- A reading that stops in the first text ends before an offset of it, and one that stops behind
the blanks of the next text ends there. -/
theorem StopsBefore.offsetOf {rest : List Char} (h : StopsBefore s r rest) :
    Cursor.offsetOf (s ++ r) rest < s.length ∨
      Cursor.offsetOf (s ++ r) rest = s.length + (r.takeWhile isBlank).length := by
  unfold Cursor.offsetOf
  rw [List.length_append]
  rcases h with ⟨own, hne, hown, rfl⟩ | rfl
  · have hpos := List.length_pos_iff.2 hne
    have hle := hown.length_le
    rw [List.length_append]
    omega
  · have hsum := length_takeWhile_add_dropWhile isBlank r
    omega

/-! ## The passes -/

/-- A search that starts behind the blanks at the front of the next text might start before
them. -/
theorem keywordFrom?_front (hkeyword : keyword ≠ []) (hname : ∀ c ∈ keyword, isNameChar c = true)
    (s r : List Char) :
    Cursor.keywordFrom? keyword (s ++ r) (s.length + (r.takeWhile isBlank).length) =
      Cursor.keywordFrom? keyword (s ++ r) s.length := by
  have hblanks : ∀ c ∈ r.takeWhile isBlank, isBlank c = true := fun c hc =>
    List.mem_takeWhile_imp hc
  have hskip := Cursor.keywordFrom?_blanks (s := s) (r := r.dropWhile isBlank) hkeyword hname
    hblanks
  rw [List.takeWhile_append_dropWhile] at hskip
  exact hskip.symm

/-- A search from an offset of the first text finds a keyword of this text, or it finds what a
search from the start of the next text does. -/
theorem keywordFrom?_cases (keyword : List Char) (hkeyword : keyword ≠ [])
    (hname : ∀ c ∈ keyword, isNameChar c = true) (hline : s.getLast? = some '\n')
    (hp : p ≤ s.length) (r : List Char) :
    (∃ k, Cursor.keywordFrom? keyword (s ++ r) p = some k ∧ p ≤ k ∧
      Cursor.StandsAt keyword s k) ∨
    Cursor.keywordFrom? keyword (s ++ r) p = Cursor.keywordFrom? keyword (s ++ r) s.length := by
  by_cases hown : ∃ k ∈ Cursor.keywordFrom? keyword (s ++ r) p, k < s.length
  · obtain ⟨k, hk, hlt⟩ := hown
    obtain ⟨hle, hstands, -⟩ := (Cursor.keywordFrom?_eq_some_iff hkeyword hname).1 hk
    exact Or.inl ⟨k, hk, hle,
      (Cursor.standsAt_append_of_line hkeyword hname hline hlt).1 hstands⟩
  · refine Or.inr (Cursor.keywordFrom?_congr hkeyword hname hp ?_)
    intro k hk
    exact Nat.le_of_not_lt fun hlt => hown ⟨k, hk, hlt⟩

/-- **The table pass** comes to the start of the next text without a block, if the first text has
no brace and no construct that reads on. -/
theorem tablesFrom_behind (hline : s.getLast? = some '\n') (hbrace : '\x7b' ∉ s)
    (h : ¬ ReadsOn tableKeyword '\x7b' s r) (hp : p ≤ s.length) :
    (tablesFrom (s ++ r) p).filterMap TableFragment.block? =
      (tablesFrom (s ++ r) s.length).filterMap TableFragment.block? := by
  induction hn : s.length + 1 - p using Nat.strongRecOn generalizing p with
  | _ n ih =>
    subst hn
    rcases keywordFrom?_cases tableKeyword (by decide) (by decide) hline hp r with
      ⟨k, hfind, hle, hstands⟩ | hsame
    · obtain ⟨fault, rest, hread, hstops⟩ := readBlock_stopsBefore hline hbrace hstands h
      have hskip : tablesFrom (s ++ r) p =
          .skipped ⟨Cursor.lineAt (s ++ r) k, .table fault⟩ ::
            tablesFrom (s ++ r) (Cursor.offsetOf (s ++ r) rest) := by
        rw [tablesFrom_of_some hfind, tableAt_of_error hread, tableEnd, hread]
      have hend := lt_tableEnd hfind
      rw [tableEnd, hread] at hend
      rw [hskip]
      show (tablesFrom (s ++ r) (Cursor.offsetOf (s ++ r) rest)).filterMap TableFragment.block? = _
      rcases hstops.offsetOf with hlt | heq
      · dsimp only at hend
        exact ih _ (by omega) (Nat.le_of_lt hlt) rfl
      · rw [heq, tablesFrom_congr (keywordFrom?_front (by decide) (by decide) s r)]
    · rw [tablesFrom_congr hsame]

/-- **The reference pass** comes to the start of the next text, if no construct reads on. -/
theorem referencesFrom_behind (hline : s.getLast? = some '\n')
    (h : ¬ ReadsOn referenceKeyword ':' s r) (hp : p ≤ s.length) (spans : List (Nat × Nat)) :
    referencesFrom spans (s ++ r) s.length <:+ referencesFrom spans (s ++ r) p := by
  induction hn : s.length + 1 - p using Nat.strongRecOn generalizing p with
  | _ n ih =>
    subst hn
    have hkeyword : referenceKeyword.length = 3 := rfl
    rcases keywordFrom?_cases referenceKeyword (by decide) (by decide) hline hp r with
      ⟨k, hfind, hle, hstands⟩ | hsame
    · by_cases hover : PassedOver spans (s ++ r) k
      · rw [referencesFrom_of_passedOver hfind hover]
        have hlen := hstands.length_le
        exact ih _ (by omega) hlen rfl
      · have hend := lt_referenceEnd hfind
        rw [referencesFrom_of_some hfind hover]
        refine List.IsSuffix.trans ?_ (List.suffix_cons _ _)
        rcases (readReference_stopsBefore hline hstands h).offsetOf with hlt | heq
        · have hlt : referenceEnd (s ++ r) k < s.length := hlt
          exact ih _ (by omega) (Nat.le_of_lt hlt) rfl
        · have heq : referenceEnd (s ++ r) k = s.length + (r.takeWhile isBlank).length := heq
          have hfront : referencesFrom spans (s ++ r) (s.length + (r.takeWhile isBlank).length) =
              referencesFrom spans (s ++ r) s.length :=
            referencesFrom_congr (keywordFrom?_front (by decide) (by decide) s r)
          exact heq ▸ hfront ▸ List.suffix_rfl
    · exact referencesFrom_congr hsame ▸ List.suffix_rfl

/-! ## The document -/

namespace Document

variable {u t : List Char}

theorem blocksOf_append_of_malformed (hline : u.getLast? = some '\n') (hbrace : '\x7b' ∉ u)
    (htable : ¬ ReadsOn tableKeyword '\x7b' u t) :
    blocksOf (u ++ t) = (blocksOf t).map (TableBlock.below u.length (u.count '\n')) := by
  have hfresh : FreshFrom u t 0 := Or.inl fun c hc => Option.some.inj (hc.symm.trans hline)
  unfold blocksOf
  rw [scanTables_eq, tablesFrom_behind hline hbrace htable (Nat.zero_le _), ← Nat.add_zero u.length,
    tablesFrom_append_right hfresh, filterMap_block?_below]
  rfl

/-- **Behind a malformed text** that has no brace, ends with its line and leaves nothing that reads
on, a text keeps its tables, and its relationships come last and in their order. -/
theorem ofText_append_of_malformed (hline : u.getLast? = some '\n') (hbrace : '\x7b' ∉ u)
    (htable : ¬ ReadsOn tableKeyword '\x7b' u t) (hreference : ¬ ReadsOn referenceKeyword ':' u t) :
    (ofText (u ++ t)).tables = (ofText t).tables ∧
      (ofText t).relationships <:+ (ofText (u ++ t)).relationships := by
  have hfresh : FreshFrom u t 0 := Or.inl fun c hc => Option.some.inj (hc.symm.trans hline)
  have hblocks := blocksOf_append_of_malformed hline hbrace htable
  constructor
  · rw [tables_ofText, tables_ofText, tablesOf, tablesOf, hblocks, List.map_map]
    rfl
  · have hfields : fieldRelationships (u ++ t) = fieldRelationships t := by
      unfold fieldRelationships
      rw [hblocks, List.flatMap_map]
      rfl
    have hspans : (blocksOf (u ++ t)).map TableBlock.span = [] ++
        ((blocksOf t).map TableBlock.span).map fun span =>
          (u.length + span.1, u.length + span.2) := by
      rw [hblocks, List.map_map, List.nil_append, List.map_map]
      rfl
    have hnone : ∀ span ∈ ([] : List (Nat × Nat)), span.2 ≤ u.length + 0 := by
      intro span hspan
      cases hspan
    have hright : referencesFrom ((blocksOf (u ++ t)).map TableBlock.span) (u ++ t) u.length =
        (referencesOf t).map (ReferenceFragment.below (u.count '\n')) := by
      rw [hspans]
      exact referencesFrom_append_right hfresh hnone
    have hlines : lineRelationships t <:+ lineRelationships (u ++ t) := by
      have hkept := (referencesFrom_behind hline hreference (Nat.zero_le _)
        ((blocksOf (u ++ t)).map TableBlock.span)).filterMap ReferenceFragment.relationship?
      rw [hright, filterMap_relationship?_below] at hkept
      exact hkept
    obtain ⟨before, hbefore⟩ := hlines
    rw [relationships_ofText, relationships_ofText, hfields, ← hbefore, List.append_assoc]
    exact List.suffix_append _ _

/-- A malformed text: a table with a mark for a name, a reference line without operator, a table
without body, and a reference line that ends behind its name. -/
def malformedText : List Char :=
  "Table (x\nTable Table\nRef: Table Ref\nRef Table\nTable\nz\nRef z\n".toList

/-- A table and a reference line. -/
def referringText : List Char :=
  "Table a \x7b\n  x int [ref: < b.y]\n\x7d\nRef: a.x > b.y".toList

theorem ofText_append_of_malformed_referring :
    malformedText.getLast? = some '\n' ∧ '\x7b' ∉ malformedText ∧
      ¬ ReadsOn tableKeyword '\x7b' malformedText referringText ∧
      ¬ ReadsOn referenceKeyword ':' malformedText referringText ∧
      (ofText (malformedText ++ referringText)).tables = (ofText referringText).tables ∧
      (ofText referringText).relationships <:+
        (ofText (malformedText ++ referringText)).relationships := by
  have hline : malformedText.getLast? = some '\n' := by decide +kernel
  have hbrace : '\x7b' ∉ malformedText := by decide +kernel
  have htable : ¬ ReadsOn tableKeyword '\x7b' malformedText referringText := by
    rw [readsOn_iff (by decide)]
    decide +kernel
  have hreference : ¬ ReadsOn referenceKeyword ':' malformedText referringText := by
    rw [readsOn_iff (by decide)]
    decide +kernel
  exact ⟨hline, hbrace, htable, hreference,
    ofText_append_of_malformed hline hbrace htable hreference⟩

/-- Not every text keeps its tables behind a malformed one: the word that opens a table is read as
the name that the table before it lacks. -/
theorem not_all_kept :
    ¬ ∀ u t : List Char, '\x7b' ∉ u → u.getLast? = some '\n' → (ofText t).issues = [] →
      (∀ name e, (ofText t).tables.get? name = some e →
        (ofText (u ++ t)).tables.get? name = some e) ∧
      List.Sublist (ofText t).relationships (ofText (u ++ t)).relationships := by
  intro hall
  let nameless : List Char := "Table\n".toList
  let table : List Char := "Table a \x7b\n\x7d\n".toList
  have hclean : (ofText table).issues = [] := by decide +kernel
  have halone : (ofText table).tables.get? "a" = some ⟨"a", []⟩ := by decide +kernel
  have hlost : (ofText (nameless ++ table)).tables.get? "a" = none := by decide +kernel
  have hkept := (hall nameless table (by decide +kernel) (by decide +kernel) hclean).1 _ _ halone
  rw [hlost] at hkept
  cases hkept

end Document

end SchemaDiagram
