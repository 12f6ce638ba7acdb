/-
# The lines of issues

Every issue is about a place of the text that is read, which is a malformed fragment or a block
with a name that is defined already, and no two issues are about the same place.  The line of an
issue is the line on which the fragment at its place begins.

* `IssueSite`, `IssueSite.Shows` : the places that call for an issue, and where their fragments
  begin;
* `TableBlock.Written.setting_offset` : where the text of a field begins, and on which line;
* `exists_sites_readLines`, `exists_sites_tableIssues` : the places of the issues that the lines of
  a body and the table pass give.

Main statement: `Document.issues_on_their_lines` : the issues of a text have the lines of their
places, in order, and those of one line stay in the order in which they are found.
-/
import Mathlib.Data.List.Nodup
import Mathlib.Data.List.Perm.Basic
import SchemaDiagram.Proofs.Schema.Appending
import SchemaDiagram.Proofs.Schema.Written
import SchemaDiagram.Proofs.Text.Lines

namespace SchemaDiagram

open Text

variable {text : List Char} {k : Nat} {b : TableBlock}

/-! ## Places -/

/-- A place that calls for an issue: a block at a table keyword, which is malformed or has a name
that is defined already, one of the malformed settings on a line of its body, or a malformed
reference line at its keyword. -/
inductive IssueSite where
  | table (start : Nat)
  | redefinition (start : Nat)
  | setting (start line place : Nat)
  | reference (start : Nat)
deriving DecidableEq, Repr

/-- The keyword of a place, and its offset. -/
def IssueSite.keyword : IssueSite → List Char × Nat
  | .table start => (tableKeyword, start)
  | .redefinition start => (tableKeyword, start)
  | .setting start _ _ => (tableKeyword, start)
  | .reference start => (referenceKeyword, start)

/-- What is wrong at a place, and where the fragment begins that it is about. -/
inductive IssueSite.Shows (text : List Char) : IssueSite → IssueCause → Nat → Prop
  /-- What stands behind a table keyword is no block. -/
  | table {k : Nat} {fault : ParseFault} (hstands : Cursor.StandsAt tableKeyword text k)
    (hread : ∀ line,
      (tableFragment k line (Cursor.startAt text (k + tableKeyword.length))).1 =
        .skipped ⟨line, .table fault⟩) :
    Shows text (.table k) (.table fault) k
  /-- An earlier block has the name of a block. -/
  | redefinition {earlier later : List TableBlock} {b : TableBlock}
    (hblocks : Document.blocksOf text = earlier ++ b :: later)
    (hname : b.name ∈ earlier.map TableBlock.name)
    (hstands : Cursor.StandsAt tableKeyword text b.span.1) :
    Shows text (.redefinition b.span.1) (.redefinition b.name) b.span.1
  /-- A line in the body of a block has malformed settings.  The text of the line begins behind the
  lines before it and the blanks at its front. -/
  | setting {b : TableBlock} {blanks gap body line : List Char} {earlier later : List (List Char)}
    {f : Field} {issues : List Issue} {number place offset : Nat} {fault : ParseFault}
    (hb : b ∈ Document.blocksOf text) (hwritten : b.Written text blanks gap body)
    (hlines : body.splitOn '\n' = earlier ++ line :: later)
    (hread : Field.ofLine? number (trim line) = some (f, issues))
    (hissue : issues[place]? = some ⟨number, .field f.name fault⟩)
    (hoffset : offset =
      b.bodyStart body + (endLines earlier).length + (line.takeWhile isBlank).length)
    (htext : trim line <+: text.drop offset) :
    Shows text (.setting b.span.1 earlier.length place) (.field f.name fault) offset
  /-- What stands behind a reference keyword is no reference line. -/
  | reference {k : Nat} {fault : ParseFault} (hstands : Cursor.StandsAt referenceKeyword text k)
    (hpassed : ¬ PassedOver ((Document.blocksOf text).map TableBlock.span) text k)
    (hread : ∀ line, (referenceFragment line
      (Cursor.startAt text (k + referenceKeyword.length))).1 = .skipped ⟨line, .reference fault⟩) :
    Shows text (.reference k) (.reference fault) k

/-- An issue is about a place, and its line is the one on which the fragment begins. -/
def Issue.About (text : List Char) (i : Issue) (s : IssueSite) : Prop :=
  ∃ offset, s.Shows text i.cause offset ∧ i.line = Cursor.lineAt text offset

/-! ## Fragments that are skipped -/

theorem Cursor.StandsAt.followedBy {keyword : List Char} (h : StandsAt keyword text k) :
    (startAt text (k + keyword.length)).FollowedBy (text.drop (k + keyword.length)) :=
  ⟨h.length_le, rfl⟩

/-- A fragment that is no block is noted on its line, whatever this line is. -/
theorem tableFragment_of_skipped {start number : Nat} {c : Cursor text} {i : Issue}
    (h : (tableFragment start number c).1 = .skipped i) :
    ∃ fault, i = ⟨number, .table fault⟩ ∧
      ∀ line, (tableFragment start line c).1 = .skipped ⟨line, .table fault⟩ := by
  unfold tableFragment at h ⊢
  cases hscan : scanBlock c with
  | ok read c' =>
    rw [hscan] at h
    cases h
  | error fault c' =>
    rw [hscan] at h
    cases h
    exact ⟨fault, rfl, fun line => rfl⟩

/-- A fragment that is no reference line is noted on its line, whatever this line is. -/
theorem referenceFragment_of_skipped {number : Nat} {c : Cursor text} {i : Issue}
    (h : (referenceFragment number c).1 = .skipped i) :
    ∃ fault, i = ⟨number, .reference fault⟩ ∧
      ∀ line, (referenceFragment line c).1 = .skipped ⟨line, .reference fault⟩ := by
  unfold referenceFragment at h ⊢
  cases hscan : scanReferenceLine c with
  | ok expression c' =>
    rw [hscan] at h
    dsimp only at h ⊢
    cases hsaid : Relationship.ofExpression expression with
    | ok r =>
      rw [hsaid] at h
      cases h
    | error fault =>
      rw [hsaid] at h
      cases h
      exact ⟨fault, rfl, fun line => rfl⟩
  | error fault c' =>
    rw [hscan] at h
    cases h
    exact ⟨fault, rfl, fun line => rfl⟩

/-- The issue of a block that is skipped is about its keyword. -/
theorem about_of_tableAt {i : Issue} (hstands : Cursor.StandsAt tableKeyword text k)
    (h : tableAt text k = .skipped i) : i.About text (.table k) := by
  obtain ⟨c', hfragment, -, -⟩ :=
    tableFragment_spec hstands.followedBy (Cursor.startAt_counted _)
  have hskipped := (congrArg Prod.fst hfragment).trans h
  obtain ⟨fault, rfl, hread⟩ := tableFragment_of_skipped hskipped
  exact ⟨k, .table hstands hread, rfl⟩

/-- The issue of a reference line that is skipped is about its keyword. -/
theorem about_of_referenceAt {i : Issue} (hstands : Cursor.StandsAt referenceKeyword text k)
    (hpassed : ¬ PassedOver ((Document.blocksOf text).map TableBlock.span) text k)
    (h : referenceAt text k = .skipped i) : i.About text (.reference k) := by
  obtain ⟨c', hfragment, -, -⟩ :=
    referenceFragment_spec hstands.followedBy (Cursor.startAt_counted _)
  have hskipped := (congrArg Prod.fst hfragment).trans h
  obtain ⟨fault, rfl, hread⟩ := referenceFragment_of_skipped hskipped
  exact ⟨k, .reference hstands hpassed hread, rfl⟩

/-! ## Lines of bodies -/

theorem Cursor.lineAt_length (s r : List Char) : lineAt (s ++ r) s.length = 1 + s.count '\n' := by
  rw [lineAt, List.take_left]

/-- The body of a block stands in the text before a closing brace. -/
theorem TableBlock.Written.exists_body {blanks gap body : List Char}
    (h : b.Written text blanks gap body) :
    ∃ before after, text = before ++ (body ++ '\x7d' :: after) ∧
      before.length = b.bodyStart body := by
  obtain ⟨before, after, htext, hspan⟩ := h.spelled
  refine ⟨before ++ (tableKeyword ++ (blanks ++ (b.name.toList ++ (gap ++ ['\x7b'])))), after,
    ?_, ?_⟩
  · rw [htext, spelling]
    simp
  · rw [bodyStart, hspan, spelling]
    simp only [List.length_append, List.length_cons, List.length_nil]
    omega

/-- **The text of a field** begins behind the lines before it and the blanks at its front, on the
line that is counted from the start of the body. -/
theorem TableBlock.Written.setting_offset {blanks gap body line : List Char}
    {earlier later : List (List Char)} (h : b.Written text blanks gap body)
    (hlines : body.splitOn '\n' = earlier ++ line :: later) :
    let offset := b.bodyStart body + (endLines earlier).length + (line.takeWhile isBlank).length
    trim line <+: text.drop offset ∧
      Cursor.lineAt text offset = Cursor.lineAt text (b.bodyStart body) + earlier.length := by
  obtain ⟨before, after, rfl, hstart⟩ := h.exists_body
  obtain ⟨rest, hbody⟩ := exists_of_splitOn_eq hlines
  obtain ⟨trail, -, htrim⟩ := dropWhile_eq_trim_append line
  have hnewline : ∀ part ∈ earlier ++ line :: later, '\n' ∉ part := fun part hpart =>
    not_mem_of_mem_splitOn (hlines ▸ hpart)
  have hearlier : ∀ part ∈ earlier, '\n' ∉ part := fun part hpart =>
    hnewline part (List.mem_append_left _ hpart)
  have hindent : '\n' ∉ line.takeWhile isBlank := fun hmem =>
    hnewline line (by simp) ((List.takeWhile_sublist _).mem hmem)
  have hbody : body =
      endLines earlier ++ ((line.takeWhile isBlank ++ (trim line ++ trail)) ++ rest) := by
    rw [← htrim, List.takeWhile_append_dropWhile]
    exact hbody
  have htext : before ++ (body ++ '\x7d' :: after) =
      (before ++ (endLines earlier ++ line.takeWhile isBlank)) ++
        (trim line ++ (trail ++ (rest ++ '\x7d' :: after))) := by
    rw [hbody]
    simp
  have hlength : b.bodyStart body + (endLines earlier).length + (line.takeWhile isBlank).length =
      (before ++ (endLines earlier ++ line.takeWhile isBlank)).length := by
    rw [List.length_append, List.length_append, hstart, Nat.add_assoc]
  dsimp only
  constructor
  · rw [hlength, htext, List.drop_left]
    exact List.prefix_append _ _
  · rw [← hstart, Cursor.lineAt_length, hstart, hlength, htext, Cursor.lineAt_length,
      List.count_append, List.count_append, count_endLines hearlier, List.count_eq_zero.2 hindent]
    omega

section

variable {blanks gap body line : List Char} {earlier later lines : List (List Char)} {f : Field}
  {issues : List Issue}

/-- An issue of a line in a body is about a setting on this line. -/
theorem about_of_ofLine? (hb : b ∈ Document.blocksOf text)
    (hwritten : b.Written text blanks gap body)
    (hlines : body.splitOn '\n' = earlier ++ line :: later)
    (hread : Field.ofLine? (Cursor.lineAt text (b.bodyStart body) + earlier.length) line =
      some (f, issues)) {i : Issue} {place : Nat} (hi : issues[place]? = some i) :
    i.About text (.setting b.span.1 earlier.length place) := by
  obtain ⟨htext, hline⟩ := hwritten.setting_offset hlines
  obtain ⟨fault, rfl⟩ := Field.exists_of_mem_issues hread (List.mem_of_getElem? hi)
  rw [← Field.ofLine?_trim] at hread
  exact ⟨_, .setting hb hwritten hlines hread hi rfl htext, hline.symm⟩

/-- The issues of a line in a body are about the settings on it, in order. -/
theorem forall₂_about_of_ofLine? (hb : b ∈ Document.blocksOf text)
    (hwritten : b.Written text blanks gap body)
    (hlines : body.splitOn '\n' = earlier ++ line :: later)
    (hread : Field.ofLine? (Cursor.lineAt text (b.bodyStart body) + earlier.length) line =
      some (f, issues)) :
    List.Forall₂ (Issue.About text) issues
      ((List.range issues.length).map (IssueSite.setting b.span.1 earlier.length)) := by
  refine List.forall₂_iff_get.2 ⟨by simp, fun place hplace _ => ?_⟩
  rw [List.get_eq_getElem, List.get_eq_getElem, List.getElem_map, List.getElem_range]
  exact about_of_ofLine? hb hwritten hlines hread (List.getElem?_eq_getElem hplace)

/-- **The issues of the lines of a body** are about different settings on these lines. -/
theorem exists_sites_readLines (hb : b ∈ Document.blocksOf text)
    (hwritten : b.Written text blanks gap body) (hlines : body.splitOn '\n' = earlier ++ lines) :
    ∃ sites : List IssueSite, sites.Nodup ∧
      (∀ s ∈ sites, ∃ line place, earlier.length ≤ line ∧ s = .setting b.span.1 line place) ∧
      List.Forall₂ (Issue.About text)
        ((readLines (Cursor.lineAt text (b.bodyStart body) + earlier.length) lines).flatMap
          Prod.snd) sites := by
  induction lines generalizing earlier with
  | nil => exact ⟨[], .nil, by simp, .nil⟩
  | cons line later ih =>
    obtain ⟨sites, hnodup, hsites, habout⟩ := ih (hlines.trans (List.append_cons _ _ _))
    rw [List.length_append, List.length_singleton] at hsites habout
    cases hblank : line.all isBlank with
    | true =>
      rw [readLines_cons_of_blank hblank]
      refine ⟨sites, hnodup, fun s hs => ?_, habout⟩
      obtain ⟨line, place, hle, rfl⟩ := hsites s hs
      exact ⟨line, place, by omega, rfl⟩
    | false =>
      obtain ⟨f, hf⟩ := Field.exists_ofLine? hblank
      obtain ⟨issues, hread⟩ := hf (Cursor.lineAt text (b.bodyStart body) + earlier.length)
      have hown := forall₂_about_of_ofLine? hb hwritten hlines hread
      rw [readLines_cons_of_some hread, List.flatMap_cons]
      refine ⟨_, ?_, ?_, List.rel_append hown habout⟩
      · refine List.nodup_append.2 ⟨List.nodup_range.map ?_, hnodup, ?_⟩
        · intro place place' h
          injection h
        · rintro s hs s' hs' rfl
          obtain ⟨place, -, rfl⟩ := List.mem_map.1 hs
          obtain ⟨line, place', hle, heq⟩ := hsites _ hs'
          injection heq
          omega
      · intro s hs
        rcases List.mem_append.1 hs with hs | hs
        · obtain ⟨place, -, rfl⟩ := List.mem_map.1 hs
          exact ⟨earlier.length, place, Nat.le_refl _, rfl⟩
        · obtain ⟨line, place, hle, rfl⟩ := hsites s hs
          exact ⟨line, place, by omega, rfl⟩

end

/-! ## The two passes -/

/-- Places at different keywords are different. -/
theorem nodup_append_of_keyword {sites later : List IssueSite} (h : sites.Nodup)
    (hlater : later.Nodup) (hne : ∀ s ∈ sites, ∀ s' ∈ later, s.keyword ≠ s'.keyword) :
    (sites ++ later).Nodup :=
  List.nodup_append.2 ⟨h, hlater, fun s hs s' hs' heq => hne s hs s' hs' (congrArg _ heq)⟩

/-- The issues that a fragment gives where some names are defined already. -/
def TableFragment.issuesAmong (defined : List String) : TableFragment → List Issue
  | .skipped issue => [issue]
  | .block b => b.issues ++ if b.name ∈ defined then [⟨b.line, .redefinition b.name⟩] else []

/-- The names that are defined behind a fragment. -/
def TableFragment.definedBehind (defined : List String) : TableFragment → List String
  | .skipped _ => defined
  | .block b => b.name :: defined

theorem Document.tableIssues_cons (defined : List String) (f : TableFragment)
    (fragments : List TableFragment) :
    tableIssues defined (f :: fragments) =
      f.issuesAmong defined ++ tableIssues (f.definedBehind defined) fragments := by
  cases f <;> rfl

/-- The issues that a block gives are about different places at its keyword. -/
theorem exists_sites_of_block {earlier later : List TableBlock} {defined : List String}
    (hstands : Cursor.StandsAt tableKeyword text k) (hat : tableAt text k = .block b)
    (hblocks : Document.blocksOf text = earlier ++ b :: later)
    (hdefined : ∀ name ∈ defined, name ∈ earlier.map TableBlock.name) :
    ∃ sites : List IssueSite, sites.Nodup ∧ (∀ s ∈ sites, s.keyword = (tableKeyword, k)) ∧
      List.Forall₂ (Issue.About text)
        (b.issues ++ if b.name ∈ defined then [⟨b.line, .redefinition b.name⟩] else []) sites := by
  obtain ⟨blanks, gap, body, hwritten, hissues⟩ :=
    TableBlock.exists_written_of_tableAt hstands hat
  have hb : b ∈ Document.blocksOf text := by
    rw [hblocks]
    simp
  have hstart : b.span.1 = k := congrArg Prod.fst (span_of_tableAt hat)
  obtain ⟨sites, hnodup, hsites, habout⟩ :=
    exists_sites_readLines hb hwritten (List.nil_append (body.splitOn '\n')).symm
  have hissues : b.issues = (readLines (Cursor.lineAt text (b.bodyStart body) + 0)
      (body.splitOn '\n')).flatMap Prod.snd := hissues
  rw [List.length_nil, ← hissues] at habout
  have hkeyword : ∀ s ∈ sites, s.keyword = (tableKeyword, k) := by
    intro s hs
    obtain ⟨line, place, -, rfl⟩ := hsites s hs
    rw [← hstart]
    rfl
  by_cases hname : b.name ∈ defined
  · rw [if_pos hname]
    refine ⟨sites ++ [.redefinition b.span.1], ?_, ?_, List.rel_append habout ?_⟩
    · refine List.nodup_append.2 ⟨hnodup, List.nodup_singleton _, ?_⟩
      rintro s hs s' hs' rfl
      obtain ⟨line, place, -, rfl⟩ := hsites s hs
      simp at hs'
    · intro s hs
      rcases List.mem_append.1 hs with hs | hs
      · exact hkeyword s hs
      · rw [List.mem_singleton.1 hs, ← hstart]
        rfl
    · refine .cons ⟨b.span.1, .redefinition hblocks (hdefined _ hname) hwritten.keyword, ?_⟩ .nil
      rw [hstart]
      exact line_of_tableAt hat
  · rw [if_neg hname, List.append_nil]
    exact ⟨sites, hnodup, hkeyword, habout⟩

/-- **The issues of a fragment** are about different places at its keyword. -/
theorem exists_sites_of_fragment {earlier later : List TableBlock} {defined : List String}
    (hstands : Cursor.StandsAt tableKeyword text k)
    (hblocks : Document.blocksOf text = earlier ++ ((tableAt text k).block?.toList ++ later))
    (hdefined : ∀ name ∈ defined, name ∈ earlier.map TableBlock.name) :
    ∃ sites : List IssueSite, sites.Nodup ∧ (∀ s ∈ sites, s.keyword = (tableKeyword, k)) ∧
      List.Forall₂ (Issue.About text) ((tableAt text k).issuesAmong defined) sites := by
  cases hat : tableAt text k with
  | skipped issue =>
    refine ⟨[.table k], List.nodup_singleton _, fun s hs => ?_, .cons ?_ .nil⟩
    · rw [List.mem_singleton.1 hs]
      rfl
    · exact about_of_tableAt hstands hat
  | block b =>
    rw [hat] at hblocks
    exact exists_sites_of_block hstands hat hblocks hdefined

/-- The blocks among the fragments at some table keywords. -/
def blocksAt (text : List Char) (starts : List Nat) : List TableBlock :=
  (starts.map (tableAt text)).filterMap TableFragment.block?

theorem blocksAt_append (text : List Char) (starts later : List Nat) :
    blocksAt text (starts ++ later) = blocksAt text starts ++ blocksAt text later := by
  rw [blocksAt, List.map_append, List.filterMap_append]
  rfl

theorem blocksAt_singleton (text : List Char) (k : Nat) :
    blocksAt text [k] = (tableAt text k).block?.toList := by
  rw [blocksAt, List.map_singleton]
  cases hat : (tableAt text k).block? with
  | none => exact List.filterMap_cons_none hat
  | some b => exact List.filterMap_cons_some hat

/-- The names that are defined behind a fragment are those of the blocks up to it. -/
theorem mem_names_of_definedBehind {passed : List Nat} {defined : List String}
    (hdefined : ∀ name ∈ defined, name ∈ (blocksAt text passed).map TableBlock.name) :
    ∀ name ∈ (tableAt text k).definedBehind defined,
      name ∈ (blocksAt text (passed ++ [k])).map TableBlock.name := by
  intro name hname
  rw [blocksAt_append, List.map_append, List.mem_append, blocksAt_singleton]
  cases hat : tableAt text k with
  | skipped issue =>
    rw [hat] at hname
    exact Or.inl (hdefined name hname)
  | block b =>
    rw [hat] at hname
    rcases List.mem_cons.1 hname with rfl | hname
    · exact Or.inr (List.mem_singleton_self _)
    · exact Or.inl (hdefined name hname)

/-- **The issues of the table pass** from some fragment on are about different places at the table
keywords from there on. -/
theorem exists_sites_tableIssues {starts passed rest : List Nat} {defined : List String}
    (hscan : scanTables text = starts.map (tableAt text))
    (hstands : ∀ k ∈ starts, Cursor.StandsAt tableKeyword text k) (hnodup : starts.Nodup)
    (hstarts : starts = passed ++ rest)
    (hdefined : ∀ name ∈ defined, name ∈ (blocksAt text passed).map TableBlock.name) :
    ∃ sites : List IssueSite, sites.Nodup ∧
      (∀ s ∈ sites, ∃ k ∈ rest, s.keyword = (tableKeyword, k)) ∧
      List.Forall₂ (Issue.About text)
        (Document.tableIssues defined (rest.map (tableAt text))) sites := by
  induction rest generalizing passed defined with
  | nil => exact ⟨[], .nil, by simp, .nil⟩
  | cons k rest ih =>
    have hnext : starts = (passed ++ [k]) ++ rest := hstarts.trans (List.append_cons _ _ _)
    have hblocks : Document.blocksOf text =
        blocksAt text passed ++ ((tableAt text k).block?.toList ++ blocksAt text rest) := by
      have hall : Document.blocksOf text = blocksAt text starts :=
        congrArg (List.filterMap TableFragment.block?) hscan
      rw [hall, hnext, blocksAt_append, blocksAt_append, blocksAt_singleton, List.append_assoc]
    obtain ⟨own, hownNodup, hown, hownAbout⟩ :=
      exists_sites_of_fragment (hstands k (by simp [hstarts])) hblocks hdefined
    obtain ⟨sites, hsitesNodup, hsites, habout⟩ :=
      ih hnext (mem_names_of_definedBehind hdefined)
    have hdistinct : k ∉ rest := by
      rw [hstarts] at hnodup
      exact (List.nodup_cons.1 hnodup.of_append_right).1
    refine ⟨own ++ sites, nodup_append_of_keyword hownNodup hsitesNodup ?_, ?_, ?_⟩
    · intro s hs s' hs' heq
      obtain ⟨k', hk', hkeyword⟩ := hsites s' hs'
      rw [hown s hs, hkeyword] at heq
      exact hdistinct ((Prod.mk.inj heq).2 ▸ hk')
    · intro s hs
      rcases List.mem_append.1 hs with hs | hs
      · exact ⟨k, List.mem_cons_self, hown s hs⟩
      · obtain ⟨k', hk', hkeyword⟩ := hsites s hs
        exact ⟨k', List.mem_cons_of_mem k hk', hkeyword⟩
    · rw [List.map_cons, Document.tableIssues_cons]
      exact List.rel_append hownAbout habout

/-- **The issues of the reference pass** are about different places at reference keywords. -/
theorem exists_sites_references {starts : List Nat}
    (hstands : ∀ k ∈ starts, Cursor.StandsAt referenceKeyword text k ∧
      ¬ PassedOver ((Document.blocksOf text).map TableBlock.span) text k)
    (hnodup : starts.Nodup) :
    ∃ sites : List IssueSite, sites.Nodup ∧
      (∀ s ∈ sites, ∃ k, s.keyword = (referenceKeyword, k)) ∧
      List.Forall₂ (Issue.About text)
        ((starts.map (referenceAt text)).filterMap ReferenceFragment.issue?) sites := by
  let faulty := starts.filter fun k => (referenceAt text k).issue?.isSome
  refine ⟨faulty.map .reference, (hnodup.filter _).map fun k k' h => ?_, ?_, ?_⟩
  · injection h
  · intro s hs
    obtain ⟨k, -, rfl⟩ := List.mem_map.1 hs
    exact ⟨k, rfl⟩
  · rw [List.filterMap_map, List.forall₂_map_right_iff]
    refine forall₂_filterMap_filter fun k hk i hi => ?_
    obtain ⟨hstandsAt, hpassed⟩ := hstands k hk
    exact about_of_referenceAt hstandsAt hpassed (ReferenceFragment.issue?_eq_some_iff.1 hi)

namespace Document

/-- **The issues of a text**, in the order in which they are found, are about different places. -/
theorem exists_sites_found (text : List Char) :
    ∃ sites : List IssueSite, sites.Nodup ∧
      List.Forall₂ (Issue.About text) (ofText text).found sites := by
  obtain ⟨tables, htables, hstands, hpairwise⟩ := exists_tablesFrom_eq_map text 0
  have hstands : ∀ k ∈ tables, Cursor.StandsAt tableKeyword text k := fun k hk => (hstands k hk).2
  obtain ⟨own, hownNodup, hown, hownAbout⟩ := exists_sites_tableIssues htables hstands
    ((pairwise_lt_of_tableEnd hstands hpairwise).imp Nat.ne_of_lt) (List.nil_append tables).symm
    (List.forall_mem_nil _)
  obtain ⟨lines, hlines, hopens, hpairwise'⟩ :=
    exists_referencesFrom_eq_map ((blocksOf text).map TableBlock.span) text 0
  have hnodup := (pairwise_lt_of_referenceEnd (fun k hk => (hopens k hk).2.1) hpairwise').imp
    Nat.ne_of_lt
  obtain ⟨sites, hsitesNodup, hsites, habout⟩ :=
    exists_sites_references (fun k hk => (hopens k hk).2) hnodup
  refine ⟨own ++ sites, nodup_append_of_keyword hownNodup hsitesNodup ?_, ?_⟩
  · intro s hs s' hs' heq
    obtain ⟨k, -, hkeyword⟩ := hown s hs
    obtain ⟨k', hkeyword'⟩ := hsites s' hs'
    rw [hkeyword, hkeyword'] at heq
    exact absurd (Prod.mk.inj heq).1 (by decide)
  · rw [found_ofText, referencesOf, scanReferences_eq, scanTables_eq, htables, hlines]
    exact List.rel_append hownAbout habout

/-- **Issues are on their lines.** Every issue of a text is about a place of its own, and its line
is the one on which the fragment at this place begins.  The issues are in the order of their lines,
and those of one line in the order in which they are found: first those of the table pass and then
those of the reference pass. -/
theorem issues_on_their_lines (text : List Char) :
    (∃ sites : List IssueSite, sites.Nodup ∧
      List.Forall₂ (Issue.About text) (ofText text).issues sites) ∧
    (ofText text).issues.Pairwise (fun i j => i.line ≤ j.line) ∧
    ∀ line, (ofText text).issues.filter (fun i => i.line = line) =
      (tableIssues [] (scanTables text)).filter (fun i => i.line = line) ++
        ((referencesOf text).filterMap ReferenceFragment.issue?).filter fun i => i.line = line := by
  refine ⟨?_, (List.pairwise_mergeSort line_le_trans line_le_total _).imp of_decide_eq_true, ?_⟩
  · obtain ⟨sites, hnodup, hfound⟩ := exists_sites_found text
    obtain ⟨ordered, hordered, hperm⟩ := List.perm_comp_forall₂ (List.mergeSort_perm _ _) hfound
    exact ⟨ordered, hperm.nodup_iff.2 hnodup, hordered⟩
  · intro line
    rw [filter_issues, found_ofText, ← List.filter_append]
    -- among issues of one line none has to move
    refine List.mergeSort_of_pairwise (List.pairwise_of_forall_mem_list fun i hi j hj => ?_)
    have hi := of_decide_eq_true (List.mem_filter.1 hi).2
    have hj := of_decide_eq_true (List.mem_filter.1 hj).2
    rw [decide_eq_true_eq, hi, hj]

-- A setting, a redefinition, a block and a reference line, before they are put in order.
example :
    (ofText ("Table a\x7b\n\n x int [ref: y]\x7d\nRef ?\nTable a \x7b\x7d " ++
      "Table Ref:").toList).found.map Issue.line = [3, 5, 5, 4] := by
  decide +kernel

end Document

end SchemaDiagram
