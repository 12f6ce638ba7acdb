/-
# Documents with carriage returns

A document whose lines end with a carriage return and a newline says what it says without the
carriage returns.  Both passes find at the later offsets what they find at the offsets of the text
itself: the same blocks, and the same relationships.  An expression ends with a carriage return
there, so a malformed one may have the carriage return as the character found.

* `opening_withReturns`, `readBlock_withReturns`, `readReference_withReturns_cases` : what stands
  behind a keyword;
* `readBody_withReturns` : the fields of a body;
* `Cursor.keywordFrom?_withReturns` : the searches for keywords;
* `tablesFrom_withReturns`, `referencesFrom_withReturns` : the two passes.

Main statement: `Document.ofText_withReturns` : the tables, the relationships and the lines of the
issues do not depend on the line ends.
-/
import SchemaDiagram.Proofs.Schema.Parts
import SchemaDiagram.Proofs.Schema.TrailingBlanks
import SchemaDiagram.Proofs.Schema.Written
import SchemaDiagram.Proofs.Text.LineEnds

namespace SchemaDiagram

open Text

variable {text : List Char} {k p : Nat}

/-! ## Behind keywords -/

/-- A name behind a keyword is the same, and so is where it ends. -/
theorem opening_withReturns (s : List Char) :
    opening (withReturns s) = ((opening s).1, withReturns (opening s).2) := by
  have hblank : isBlank '\r' = isBlank '\n' := by decide
  have hnewline : isNameChar '\n' = false := by decide
  have hreturn : isNameChar '\r' = false := by decide
  unfold opening
  dsimp only
  rw [dropWhile_withReturns hblank, takeWhile_withReturns hnewline hreturn,
    dropWhile_withReturns (hreturn.trans hnewline.symm), dropWhile_withReturns hblank]

/-- What follows an opening starts with the same character, which is not a blank. -/
theorem head?_withReturns_opening {s name rest : List Char} (h : opening s = (name, rest)) :
    (withReturns rest).head? = rest.head? := by
  refine head?_withReturns fun hnewline => ?_
  have hrest : rest = ((s.dropWhile isBlank).dropWhile isNameChar).dropWhile isBlank :=
    (congrArg Prod.snd h).symm
  have hno := head?_dropWhile isBlank _ '\n' (hrest ▸ hnewline)
  exact absurd hno (by decide)

/-- **A block** is read with the same name, and with carriage returns in its body, or it has the
same fault. -/
theorem readBlock_withReturns (s : List Char) :
    readBlock (withReturns s) =
      ((readBlock s).1.map fun read => (read.1, withReturns read.2),
        withReturns (readBlock s).2) := by
  have hread := blockRead_readBlock s
  have hopening' := opening_withReturns s
  generalize (readBlock s).1 = read, (readBlock s).2 = rest at hread ⊢
  refine BlockRead.eq ?_
  cases hread with
  | nameless hopening =>
    rw [hopening] at hopening'
    rw [← head?_withReturns_opening hopening]
    exact .nameless hopening'
  | unopened hopening hname hrest =>
    rw [hopening] at hopening'
    rw [← head?_withReturns_opening hopening] at hrest ⊢
    exact .unopened hopening' hname hrest
  | unclosed hopening hname hrest =>
    rw [hopening, withReturns_cons (by decide)] at hopening'
    exact .unclosed hopening' hname (mt (mem_withReturns_iff (by decide)).1 hrest)
  | block hopening hname hbody =>
    rw [hopening, withReturns_cons (by decide), withReturns_append,
      withReturns_cons (by decide)] at hopening'
    exact .block hopening' hname (mt (mem_withReturns_iff (by decide)).1 hbody)

/-- **A reference line** is read as the same, or its expression ends with a carriage return that
stands before the end of the line. -/
theorem readReference_withReturns_cases (s : List Char) :
    readReference (withReturns s) = ((readReference s).1, withReturns (readReference s).2) ∨
    ∃ line rest, readReference s = (.ok line, '\n' :: rest) ∧
      readReference (withReturns s) = (.ok (line ++ ['\r']), '\n' :: withReturns rest) := by
  rcases hopening : opening s with ⟨name, behind⟩
  have hopening' := opening_withReturns s
  rw [hopening] at hopening'
  by_cases hcolon : behind.head? = some ':'
  · obtain ⟨behind, rfl⟩ := List.head?_eq_some_iff.1 hcolon
    rw [withReturns_cons (by decide)] at hopening'
    rw [readReference_of_colon hopening, readReference_of_colon hopening']
    by_cases hnewline : '\n' ∈ behind
    · obtain ⟨line, rest, rfl, hline⟩ := List.eq_append_cons_of_mem hnewline
      have hline' : '\n' ∉ line ++ ['\r'] := by simpa using hline
      obtain ⟨htake, hdrop⟩ := takeWhile_dropWhile_ne hline rest
      obtain ⟨htake', hdrop'⟩ := takeWhile_dropWhile_ne hline' (withReturns rest)
      refine Or.inr ⟨line, rest, by rw [htake, hdrop], ?_⟩
      rw [withReturns_append, withReturns_eq_self hline, withReturns_cons_newline,
        List.append_cons, htake', hdrop']
    · have hall := decide_ne_of_not_mem hnewline
      left
      rw [withReturns_eq_self hnewline, List.dropWhile_eq_nil_iff.2 hall]
      rfl
  · have hhead := head?_withReturns_opening hopening
    left
    rw [readReference_of_no_colon hopening hcolon,
      readReference_of_no_colon hopening' (by rwa [hhead]), hhead]

/-! ## Bodies -/

/-- A carriage return at the end of a line belongs to no word. -/
theorem Field.ofLine?_append_return (number : Nat) (line : List Char) :
    Field.ofLine? number (line ++ ['\r']) = Field.ofLine? number line := by
  rw [Field.ofLine?, Field.ofLine?, words_append_blanks (by decide)]

/-- Lines that are read in the same way, one by one. -/
theorem readLines_cons_congr {number : Nat} {line line' : List Char}
    {lines lines' : List (List Char)}
    (hline : Field.ofLine? number line = Field.ofLine? number line')
    (hlines : readLines (number + 1) lines = readLines (number + 1) lines') :
    readLines number (line :: lines) = readLines number (line' :: lines') := by
  unfold readLines at hlines ⊢
  rw [List.zipIdx_cons, List.zipIdx_cons, List.filterMap_cons, List.filterMap_cons, hlines]
  dsimp only
  rw [hline]

/-- **The fields of a body** and their issues are the same. -/
theorem readBody_withReturns (number : Nat) (body : List Char) :
    readBody number (withReturns body) = readBody number body := by
  show readLines number ((withReturns body).splitOn '\n') = readLines number (body.splitOn '\n')
  -- on the length of the body, which starts with a line
  induction hn : body.length using Nat.strongRecOn generalizing body number with
  | _ n ih =>
    subst hn
    by_cases hnewline : '\n' ∈ body
    · obtain ⟨line, rest, rfl, hline⟩ := List.eq_append_cons_of_mem hnewline
      have hline' : '\n' ∉ line ++ ['\r'] := by simpa using hline
      have hlt : rest.length < (line ++ '\n' :: rest).length := by
        rw [List.length_append, List.length_cons]
        omega
      have hrest := ih rest.length hlt (number + 1) rest rfl
      rw [withReturns_append, withReturns_eq_self hline, withReturns_cons_newline,
        List.append_cons, splitOn_append_cons, splitOn_append_cons,
        List.splitOn_eq_singleton hline, List.splitOn_eq_singleton hline']
      exact readLines_cons_congr (Field.ofLine?_append_return number line) hrest
    · rw [withReturns_eq_self hnewline]

/-! ## Places -/

namespace Cursor

/-- The offset of a rest of the text. -/
theorem offsetOf_withReturns {rest : List Char} (h : rest <:+ text) :
    offsetOf (withReturns text) (withReturns rest) =
      returnedOffset text (offsetOf text rest) := by
  obtain ⟨front, rfl⟩ := h
  rw [withReturns_append, offsetOf_append, offsetOf_append, returnedOffset_append]

/-- The line of an offset. -/
theorem lineAt_withReturns (text : List Char) (k : Nat) :
    lineAt (withReturns text) (returnedOffset text k) = lineAt text k := by
  rw [lineAt, lineAt, take_returnedOffset, count_newline_withReturns]

/-- Where a line starts. -/
theorem atLineStart_withReturns (text : List Char) (k : Nat) :
    atLineStart (withReturns text) (returnedOffset text k) = atLineStart text k := by
  rw [atLineStart, atLineStart, take_returnedOffset, takeWhile_reverse_withReturns]

section

variable {keyword : List Char}

/-- A keyword stands where it stands in the text itself. -/
theorem standsAt_withReturns_iff (hkeyword : keyword ≠ [])
    (hname : ∀ c ∈ keyword, isNameChar c = true) {j : Nat} :
    StandsAt keyword (withReturns text) j ↔
      ∃ k, StandsAt keyword text k ∧ j = returnedOffset text k := by
  have hlineEnd : isNameChar '\r' = isNameChar '\n' := by decide
  have hno : ∀ c, isNameChar c = false → c ∉ keyword := by
    intro c hc hmem
    rw [hname c hmem] at hc
    cases hc
  constructor
  · rintro ⟨before, after, htext, rfl, hbefore, hafter⟩
    have hhead : (keyword ++ after).head? ≠ some '\n' := by
      obtain ⟨c, tail, rfl⟩ := List.exists_cons_of_ne_nil hkeyword
      intro hc
      exact hno '\n' (by decide) (Option.some.inj hc ▸ List.mem_cons_self)
    obtain ⟨s, r, rfl, rfl, hr⟩ := exists_of_withReturns_eq_append htext hhead
    obtain ⟨t, rfl, rfl⟩ :=
      exists_of_withReturns_eq_plain hr (hno '\n' (by decide)) (hno '\r' (by decide))
    rw [getLast?_withReturns] at hbefore
    rw [forall_mem_head?_withReturns hlineEnd] at hafter
    exact ⟨s.length, ⟨s, t, rfl, rfl, hbefore, hafter⟩, (returnedOffset_append s _).symm⟩
  · rintro ⟨k, ⟨before, after, rfl, rfl, hbefore, hafter⟩, rfl⟩
    refine ⟨withReturns before, withReturns after, ?_, (returnedOffset_append before _).symm, ?_,
      (forall_mem_head?_withReturns hlineEnd after).2 hafter⟩
    · rw [withReturns_append, withReturns_append, withReturns_eq_self (hno '\n' (by decide))]
    · rwa [getLast?_withReturns]

/-- **A search for a keyword** finds what it finds in the text itself. -/
theorem keywordFrom?_withReturns (hkeyword : keyword ≠ [])
    (hname : ∀ c ∈ keyword, isNameChar c = true) (hp : p ≤ text.length) :
    keywordFrom? keyword (withReturns text) (returnedOffset text p) =
      (keywordFrom? keyword text p).map (returnedOffset text) := by
  have hle : ∀ k, StandsAt keyword text k → k ≤ text.length := fun k hk =>
    Nat.le_trans (Nat.le_add_right _ _) hk.length_le
  cases hfound : keywordFrom? keyword text p with
  | none =>
    rw [keywordFrom?_eq_none_iff hkeyword hname] at hfound
    rw [Option.map_none, keywordFrom?_eq_none_iff hkeyword hname]
    intro j hj hstands
    obtain ⟨k, hk, rfl⟩ := (standsAt_withReturns_iff hkeyword hname).1 hstands
    exact hfound k ((returnedOffset_le_iff hp (hle k hk)).1 hj) hk
  | some found =>
    obtain ⟨hstart, hstands, hleast⟩ := (keywordFrom?_eq_some_iff hkeyword hname).1 hfound
    rw [Option.map_some, keywordFrom?_eq_some_iff hkeyword hname]
    refine ⟨(returnedOffset_le_iff hp (hle found hstands)).2 hstart,
      (standsAt_withReturns_iff hkeyword hname).2 ⟨found, hstands, rfl⟩, ?_⟩
    intro j hj hlt hstands'
    obtain ⟨k, hk, rfl⟩ := (standsAt_withReturns_iff hkeyword hname).1 hstands'
    refine hleast k ((returnedOffset_le_iff hp (hle k hk)).1 hj) ?_ hk
    refine Nat.lt_of_not_le fun hback => Nat.not_le_of_lt hlt ?_
    exact (returnedOffset_le_iff (hle found hstands) (hle k hk)).2 hback

/-- What stands behind a keyword. -/
theorem StandsAt.drop_withReturns (hname : ∀ c ∈ keyword, isNameChar c = true)
    (h : StandsAt keyword text k) :
    (withReturns text).drop (returnedOffset text k + keyword.length) =
      withReturns (text.drop (k + keyword.length)) := by
  obtain ⟨before, after, rfl, rfl, -, -⟩ := h
  have hnewline : '\n' ∉ keyword := fun hmem => absurd (hname '\n' hmem) (by decide)
  rw [← returnedOffset_add ⟨after, (List.drop_left ..).symm⟩ hnewline, drop_returnedOffset]

end

end Cursor

/-! ## The table pass -/

/-- A span in the text with carriage returns. -/
def returnedSpan (text : List Char) (span : Nat × Nat) : Nat × Nat :=
  (returnedOffset text span.1, returnedOffset text span.2)

/-- The same block at its place in the text with carriage returns. -/
def TableBlock.withReturns (text : List Char) (b : TableBlock) : TableBlock :=
  { b with span := returnedSpan text b.span }

/-- The same fragment at its place in the text with carriage returns. -/
def TableFragment.withReturns (text : List Char) : TableFragment → TableFragment
  | .block b => .block (b.withReturns text)
  | .skipped issue => .skipped issue

theorem TableFragment.block?_withReturns (text : List Char) (f : TableFragment) :
    (f.withReturns text).block? = f.block?.map (TableBlock.withReturns text) := by
  cases f <;> rfl

theorem tableEnd_withReturns (h : Cursor.StandsAt tableKeyword text k) :
    tableEnd (withReturns text) (returnedOffset text k) =
      returnedOffset text (tableEnd text k) := by
  rw [tableEnd, h.drop_withReturns (by decide), readBlock_withReturns,
    Cursor.offsetOf_withReturns ((readBlock_suffix _).trans (List.drop_suffix _ _)), tableEnd]

/-- A table keyword begins the fragment that it begins in the text itself. -/
theorem tableAt_withReturns (h : Cursor.StandsAt tableKeyword text k) :
    tableAt (withReturns text) (returnedOffset text k) = (tableAt text k).withReturns text := by
  have hline := Cursor.lineAt_withReturns text k
  have hread' := readBlock_withReturns (text.drop (k + tableKeyword.length))
  rw [← h.drop_withReturns (by decide)] at hread'
  rcases hread : readBlock (text.drop (k + tableKeyword.length)) with ⟨fault | ⟨name, body⟩, rest⟩
  · rw [hread] at hread'
    rw [tableAt_of_error hread, tableAt_of_error hread', hline]
    rfl
  · rw [hread] at hread'
    have hbody : body ++ '\x7d' :: rest <:+ text := by
      have hsuffix := opening_suffix (text.drop (k + tableKeyword.length))
      rw [(opening_of_readBlock hread).1] at hsuffix
      exact ((List.suffix_cons _ _).trans hsuffix).trans (List.drop_suffix _ _)
    have hoffset := Cursor.offsetOf_withReturns hbody
    rw [withReturns_append, withReturns_cons (by decide)] at hoffset
    rw [tableAt_of_ok hread, tableAt_of_ok hread', hline, hoffset, Cursor.lineAt_withReturns,
      readBody_withReturns, tableEnd_withReturns h]
    rfl

/-- **The table pass** finds what it finds in the text itself. -/
theorem tablesFrom_withReturns (hp : p ≤ text.length) :
    tablesFrom (withReturns text) (returnedOffset text p) =
      (tablesFrom text p).map (TableFragment.withReturns text) := by
  have hshift : ∀ p, p ≤ text.length →
      Cursor.keywordFrom? tableKeyword (withReturns text) (returnedOffset text p) =
        (Cursor.keywordFrom? tableKeyword text p).map (returnedOffset text) := fun p =>
    Cursor.keywordFrom?_withReturns (by decide) (by decide)
  induction p using Cursor.keywordFrom?_induction tableKeyword text with
  | none p hfound =>
    have hfind := hshift p hp
    rw [hfound] at hfind
    rw [tablesFrom_of_none hfound, tablesFrom_of_none hfind]
    rfl
  | some p k hfound ih =>
    have hfind := hshift p hp
    rw [hfound] at hfind
    obtain ⟨-, hstands, -⟩ := (Cursor.keywordFrom?_eq_some_iff (by decide) (by decide)).1 hfound
    rw [tablesFrom_of_some hfound, tablesFrom_of_some hfind, List.map_cons,
      tableAt_withReturns hstands, tableEnd_withReturns hstands,
      ih _ (lt_tableEnd hfound) (tableEnd_bounds hstands.length_le).2]

/-! ## The reference pass -/

/-- The same fragment with the character found left out. -/
def ReferenceFragment.withoutFound : ReferenceFragment → ReferenceFragment
  | .relationship r => .relationship r
  | .skipped issue => .skipped issue.withoutFound

theorem ReferenceFragment.relationship?_withoutFound (f : ReferenceFragment) :
    f.withoutFound.relationship? = f.relationship? := by
  cases f <;> rfl

theorem ReferenceFragment.issue?_withoutFound (f : ReferenceFragment) :
    f.withoutFound.issue? = f.issue?.map Issue.withoutFound := by
  cases f <;> rfl

/-- A reference keyword begins the fragment that it begins in the text itself. -/
theorem referenceAt_withReturns (h : Cursor.StandsAt referenceKeyword text k) :
    (referenceAt (withReturns text) (returnedOffset text k)).withoutFound =
      (referenceAt text k).withoutFound := by
  unfold referenceAt
  rw [h.drop_withReturns (by decide), Cursor.lineAt_withReturns]
  rcases readReference_withReturns_cases (text.drop (k + referenceKeyword.length)) with
    hsame | ⟨line, rest, hread, hread'⟩
  · rw [hsame]
  · rw [hread, hread']
    dsimp only
    have hblank : ∀ x ∈ ['\r'], isBlank x = true := by decide
    have hsaid := Relationship.ofExpression_append_blanks hblank line
    rcases hline : Relationship.ofExpression line with fault | r <;>
      rcases hline' : Relationship.ofExpression (line ++ ['\r']) with fault' | r' <;>
      rw [hline, hline'] at hsaid
    · have hfault : fault'.withoutFound = fault.withoutFound := Except.error.inj hsaid
      simp [ReferenceFragment.withoutFound, Issue.withoutFound, IssueCause.withoutFound, hfault]
    · cases hsaid
    · cases hsaid
    · cases hsaid
      rfl

/-- Behind a fragment, the pass goes on as it does at the offset where the fragment ends in the text
itself. -/
theorem referencesFrom_referenceEnd_withReturns (spans : List (Nat × Nat))
    (h : Cursor.StandsAt referenceKeyword text k) :
    referencesFrom spans (withReturns text)
        (referenceEnd (withReturns text) (returnedOffset text k)) =
      referencesFrom spans (withReturns text) (returnedOffset text (referenceEnd text k)) := by
  have hsuffix := (readReference_suffix (text.drop (k + referenceKeyword.length))).trans
    (List.drop_suffix _ _)
  have hoffset := Cursor.offsetOf_withReturns hsuffix
  unfold referenceEnd
  rw [h.drop_withReturns (by decide), ← hoffset]
  rcases readReference_withReturns_cases (text.drop (k + referenceKeyword.length)) with
    hsame | ⟨line, rest, hread, hread'⟩
  · rw [hsame]
  · -- the reading ends behind the carriage return, where no keyword stands
    rw [hread] at hsuffix ⊢
    rw [hread']
    obtain ⟨front, rfl⟩ := hsuffix
    have hnot : ∀ i, i < 1 → ¬ Cursor.StandsAt referenceKeyword
        (withReturns front ++ '\r' :: '\n' :: withReturns rest)
        ((withReturns front).length + i) := by
      intro i hi
      obtain rfl : i = 0 := by omega
      exact Cursor.not_standsAt_of_not_nameChar (c := '\r') (by decide) (by decide) (by simp)
        (by decide)
    rw [withReturns_append, withReturns_cons_newline, Cursor.offsetOf_append, List.append_cons,
      Cursor.offsetOf_append, ← List.append_cons, List.length_append, List.length_singleton]
    exact (referencesFrom_congr (Cursor.keywordFrom?_skip (by decide) (by decide) hnot)).symm

section

variable {spans : List (Nat × Nat)}

/-- An offset lies in the spans in which it lies in the text itself. -/
theorem insideAny_withReturns
    (hspans : ∀ span ∈ spans, span.1 ≤ text.length ∧ span.2 ≤ text.length)
    (hk : k ≤ text.length) :
    insideAny (spans.map (returnedSpan text)) (returnedOffset text k) = insideAny spans k := by
  rw [Bool.eq_iff_iff, insideAny, insideAny, List.any_map, List.any_eq_true, List.any_eq_true]
  refine exists_congr fun span => and_congr_right fun hspan => ?_
  obtain ⟨hstart, hstop⟩ := hspans span hspan
  have hlt : returnedOffset text k < returnedOffset text span.2 ↔ k < span.2 := by
    rw [← Nat.not_le, returnedOffset_le_iff hstop hk, Nat.not_le]
  simp only [Function.comp_apply, returnedSpan, Bool.and_eq_true, decide_eq_true_eq,
    returnedOffset_le_iff hstart hk, hlt]

/-- A keyword is passed over where it is passed over in the text itself. -/
theorem passedOver_withReturns_iff
    (hspans : ∀ span ∈ spans, span.1 ≤ text.length ∧ span.2 ≤ text.length)
    (hk : k ≤ text.length) :
    PassedOver (spans.map (returnedSpan text)) (withReturns text) (returnedOffset text k) ↔
      PassedOver spans text k := by
  unfold PassedOver
  rw [Cursor.atLineStart_withReturns, insideAny_withReturns hspans hk]

/-- **The reference pass** finds what it finds in the text itself, but for the characters found. -/
theorem referencesFrom_withReturns
    (hspans : ∀ span ∈ spans, span.1 ≤ text.length ∧ span.2 ≤ text.length)
    (hp : p ≤ text.length) :
    (referencesFrom (spans.map (returnedSpan text)) (withReturns text)
        (returnedOffset text p)).map ReferenceFragment.withoutFound =
      (referencesFrom spans text p).map ReferenceFragment.withoutFound := by
  have hshift : ∀ p, p ≤ text.length →
      Cursor.keywordFrom? referenceKeyword (withReturns text) (returnedOffset text p) =
        (Cursor.keywordFrom? referenceKeyword text p).map (returnedOffset text) := fun p =>
    Cursor.keywordFrom?_withReturns (by decide) (by decide)
  induction p using Cursor.keywordFrom?_induction referenceKeyword text with
  | none p hfound =>
    have hfind := hshift p hp
    rw [hfound] at hfind
    rw [referencesFrom_of_none hfound, referencesFrom_of_none hfind]
  | some p k hfound ih =>
    have hfind := hshift p hp
    rw [hfound] at hfind
    obtain ⟨-, hstands, -⟩ := (Cursor.keywordFrom?_eq_some_iff (by decide) (by decide)).1 hfound
    have hbehind := hstands.length_le
    have hkeyword : referenceKeyword.length = 3 := rfl
    have hsame := passedOver_withReturns_iff (k := k) hspans (by omega)
    by_cases hover : PassedOver spans text k
    · have hnewline : '\n' ∉ referenceKeyword := by decide
      obtain ⟨hoccurs, -⟩ := (Cursor.standsAt_iff (by decide)).1 hstands
      rw [referencesFrom_of_passedOver hfound hover,
        referencesFrom_of_passedOver hfind (hsame.2 hover),
        ← returnedOffset_add hoccurs hnewline, ih _ (by omega) hbehind]
    · rw [referencesFrom_of_some hfound hover, referencesFrom_of_some hfind (mt hsame.1 hover),
        List.map_cons, List.map_cons, referenceAt_withReturns hstands,
        referencesFrom_referenceEnd_withReturns _ hstands,
        ih _ (lt_referenceEnd hfound) (referenceEnd_bounds hbehind).2]

end

/-! ## Documents -/

namespace Document

theorem scanTables_withReturns (text : List Char) :
    scanTables (withReturns text) = (scanTables text).map (TableFragment.withReturns text) := by
  have hpass := tablesFrom_withReturns (Nat.zero_le text.length)
  rwa [returnedOffset_zero] at hpass

/-- The blocks are the same, each at its place. -/
theorem blocksOf_withReturns (text : List Char) :
    blocksOf (withReturns text) = (blocksOf text).map (TableBlock.withReturns text) := by
  rw [blocksOf, blocksOf, scanTables_withReturns, List.filterMap_map, List.map_filterMap]
  exact List.filterMap_congr fun f _ => f.block?_withReturns text

/-- The fragments outside the blocks are the same, but for the characters found. -/
theorem referencesOf_withReturns (text : List Char) :
    (referencesOf (withReturns text)).map ReferenceFragment.withoutFound =
      (referencesOf text).map ReferenceFragment.withoutFound := by
  have hspans : ∀ span ∈ (blocksOf text).map TableBlock.span,
      span.1 ≤ text.length ∧ span.2 ≤ text.length := by
    intro span hspan
    obtain ⟨b, hb, rfl⟩ := List.mem_map.1 hspan
    obtain ⟨hstands, hstop⟩ := span_of_mem_blocksOf hb
    exact ⟨Nat.le_trans (Nat.le_add_right _ _) hstands.length_le, hstop⟩
  have hpass := referencesFrom_withReturns hspans (Nat.zero_le text.length)
  rw [returnedOffset_zero, List.map_map] at hpass
  rw [referencesOf, blocksOf_withReturns, List.map_map]
  exact hpass

/-- The issues of the table pass do not depend on where the fragments are. -/
theorem tableIssues_withReturns (text : List Char) (defined : List String)
    (fragments : List TableFragment) :
    tableIssues defined (fragments.map (TableFragment.withReturns text)) =
      tableIssues defined fragments := by
  induction fragments generalizing defined with
  | nil => rfl
  | cons f rest ih =>
    cases f with
    | block b =>
      rw [List.map_cons, TableFragment.withReturns, tableIssues, ih]
      rfl
    | skipped issue =>
      rw [List.map_cons, TableFragment.withReturns, tableIssues, ih]
      rfl

/-- The relationships of fragments do not depend on the characters found. -/
theorem filterMap_relationship?_withoutFound (fragments : List ReferenceFragment) :
    (fragments.map ReferenceFragment.withoutFound).filterMap ReferenceFragment.relationship? =
      fragments.filterMap ReferenceFragment.relationship? := by
  rw [List.filterMap_map]
  exact List.filterMap_congr fun f _ => f.relationship?_withoutFound

/-- The issues of fragments are the same, but for the characters found. -/
theorem filterMap_issue?_withoutFound (fragments : List ReferenceFragment) :
    (fragments.map ReferenceFragment.withoutFound).filterMap ReferenceFragment.issue? =
      (fragments.filterMap ReferenceFragment.issue?).map Issue.withoutFound := by
  rw [List.filterMap_map, List.map_filterMap]
  exact List.filterMap_congr fun f _ => f.issue?_withoutFound

/-- The same issues are found, but for the characters found, in the same order. -/
theorem found_withReturns (text : List Char) :
    (ofText (withReturns text)).found.map Issue.withoutFound =
      (ofText text).found.map Issue.withoutFound := by
  rw [found_ofText, found_ofText, List.map_append, List.map_append, scanTables_withReturns,
    tableIssues_withReturns, ← filterMap_issue?_withoutFound, ← filterMap_issue?_withoutFound,
    referencesOf_withReturns]

/-- The line order of issues does not depend on the characters found. -/
theorem map_withoutFound_issues (d : Document) :
    d.issues.map Issue.withoutFound =
      (d.found.map Issue.withoutFound).mergeSort fun a b => a.line ≤ b.line :=
  List.map_mergeSort fun _ _ _ _ => rfl

/-- **Line ends** with carriage returns do not matter: with a carriage return before each of its
newlines, a text gives the same tables, the same relationships, and the same issues but for the
character that a fault may have found, all in the same order.  So the issues are on the same
lines. -/
theorem ofText_withReturns (text : List Char) :
    (ofText (withReturns text)).tables = (ofText text).tables ∧
      (ofText (withReturns text)).relationships = (ofText text).relationships ∧
      (ofText (withReturns text)).issues.map Issue.line = (ofText text).issues.map Issue.line ∧
      (ofText (withReturns text)).issues.map Issue.withoutFound =
        (ofText text).issues.map Issue.withoutFound := by
  have hissues : (ofText (withReturns text)).issues.map Issue.withoutFound =
      (ofText text).issues.map Issue.withoutFound := by
    rw [map_withoutFound_issues, map_withoutFound_issues, found_withReturns]
  refine ⟨?_, ?_, ?_, hissues⟩
  · rw [tables_ofText, tables_ofText, blocksOf_withReturns, tablesOf, tablesOf, List.map_map]
    rfl
  · have hlines : lineRelationships (withReturns text) = lineRelationships text := by
      rw [lineRelationships, ← filterMap_relationship?_withoutFound, referencesOf_withReturns,
        filterMap_relationship?_withoutFound, lineRelationships]
    have hfields : fieldRelationships (withReturns text) = fieldRelationships text := by
      rw [fieldRelationships, blocksOf_withReturns, List.flatMap_map]
      rfl
    rw [relationships_ofText, relationships_ofText, hlines, hfields]
  · have hlines := congrArg (List.map Issue.line) hissues
    rwa [List.map_map, List.map_map] at hlines

/-- At the end of a line the carriage return may be found where the line ended. -/
example :
    (ofText "Ref: a\n".toList).issues = [⟨1, .reference (.expected ['.'] none)⟩] ∧
      (ofText (withReturns "Ref: a\n".toList)).issues =
        [⟨1, .reference (.expected ['.'] (some '\r'))⟩] := by
  decide +kernel

end Document

end SchemaDiagram
