/-
# What is found is written there

Whatever a text holds, the blocks and the relationships that are found in it are written at the
places where they are found.  After a malformed fragment the search goes on in the middle of the
text, but every later fragment begins at a keyword again and behind the fragments before it.

* `TableBlock.Written`, `TableBlock.exists_written` : how a block is written in its span;
* `Relationship.SaidAt`, `Relationship.exists_saidAt` : how a reference line is written.

Main statement: `Document.blocks_and_references_written` : the spans of the blocks follow each
other, and each block is written in its span, and each relationship of a reference line at a
keyword that opens its line outside the spans.
-/
import Mathlib.Data.List.Forall2
import SchemaDiagram.Proofs.Schema.Parts

namespace SchemaDiagram

open Text

variable {text : List Char} {k : Nat} {b : TableBlock} {r : Relationship}

/-! ## Blocks -/

/-- The text of a block with given blanks behind its keyword, blanks behind its name, and body. -/
def TableBlock.spelling (b : TableBlock) (blanks gap body : List Char) : List Char :=
  tableKeyword ++ (blanks ++ (b.name.toList ++ (gap ++ '\x7b' :: (body ++ ['\x7d']))))

/-- The offset where a given body of a block starts. -/
def TableBlock.bodyStart (b : TableBlock) (body : List Char) : Nat := b.span.2 - (body.length + 1)

/-- A block is written in its span: a keyword that stands alone, blanks, a name that stands alone,
blanks, and a body in braces, which has a line for each field. -/
structure TableBlock.Written (text : List Char) (b : TableBlock) (blanks gap body : List Char) :
    Prop where
  /-- The text has the spelling of the block in its span. -/
  spelled : ∃ before after, text = before ++ (b.spelling blanks gap body ++ after) ∧
    b.span = (before.length, before.length + (b.spelling blanks gap body).length)
  keyword : Cursor.StandsAt tableKeyword text b.span.1
  blanks_ne_nil : blanks ≠ []
  isBlank_blanks : ∀ c ∈ blanks, isBlank c = true
  isName : IsName b.name
  /-- No name character touches the name. -/
  name : Cursor.StandsAt b.name.toList text (b.span.1 + (tableKeyword.length + blanks.length))
  isBlank_gap : ∀ c ∈ gap, isBlank c = true
  /-- The body ends at the first closing brace. -/
  not_mem_body : '\x7d' ∉ body
  /-- The lines of the body that are not blank are read as the fields, in order. -/
  fields : List.Forall₂
    (fun line f => ∀ number, ∃ issues, Field.ofLine? number (trim line) = some (f, issues))
    ((body.splitOn '\n').filter fun line => !line.all isBlank) b.fields

/-- A line is read as it is when it is trimmed. -/
theorem Field.ofLine?_trim (number : Nat) (line : List Char) :
    Field.ofLine? number (trim line) = Field.ofLine? number line := by
  rw [Field.ofLine?, Field.ofLine?, words_trim]

/-- A line of blanks has no field. -/
theorem Field.ofLine?_of_blank {line : List Char} (h : line.all isBlank = true) (number : Nat) :
    Field.ofLine? number line = none := by
  rw [Field.ofLine?, words_eq_nil (List.all_eq_true.1 h)]

/-- A line that is not blank has the same field whatever its number is. -/
theorem Field.exists_ofLine? {line : List Char} (h : line.all isBlank = false) :
    ∃ f, ∀ number, ∃ issues, Field.ofLine? number line = some (f, issues) := by
  obtain ⟨c, hc, hblank⟩ := List.all_eq_false.1 h
  have hwords : words line ≠ [] := words_ne_nil hc (Bool.eq_false_iff.2 hblank)
  obtain ⟨name, rest, hcons⟩ := List.exists_cons_of_ne_nil hwords
  refine ⟨(Field.ofWords 0 name rest).1, fun number => ⟨(Field.ofWords number name rest).2, ?_⟩⟩
  rw [Field.ofLine?, hcons]
  rfl

/-- The issues of a field line name its field and have the number of the line. -/
theorem Field.exists_of_mem_issues {number : Nat} {line : List Char} {f : Field}
    {issues : List Issue} (h : Field.ofLine? number line = some (f, issues)) {i : Issue}
    (hi : i ∈ issues) : ∃ fault, i = ⟨number, .field f.name fault⟩ := by
  unfold Field.ofLine? at h
  split at h
  · cases h
  · next name rest =>
    obtain ⟨rfl, rfl⟩ := Prod.mk.inj (Option.some.inj h)
    obtain ⟨fault, -, rfl⟩ := List.mem_map.1 hi
    exact ⟨fault, rfl⟩

/-- Reads the lines of a body, the first of which has the given number. -/
def readLines (number : Nat) (lines : List (List Char)) : List (Field × List Issue) :=
  (lines.zipIdx number).filterMap fun (text, number) => Field.ofLine? number text

theorem readLines_cons_of_blank {line : List Char} (h : line.all isBlank = true) (number : Nat)
    (lines : List (List Char)) :
    readLines number (line :: lines) = readLines (number + 1) lines :=
  List.filterMap_cons_none (Field.ofLine?_of_blank h number)

theorem readLines_cons_of_some {number : Nat} {line : List Char} {read : Field × List Issue}
    (h : Field.ofLine? number line = some read) (lines : List (List Char)) :
    readLines number (line :: lines) = read :: readLines (number + 1) lines :=
  List.filterMap_cons_some h

/-- **The lines of a body** have a field for each line that is not blank. -/
theorem forall₂_readLines (number : Nat) (lines : List (List Char)) :
    List.Forall₂
      (fun line f => ∀ number, ∃ issues, Field.ofLine? number (trim line) = some (f, issues))
      (lines.filter fun line => !line.all isBlank) ((readLines number lines).map Prod.fst) := by
  induction lines generalizing number with
  | nil => exact .nil
  | cons line lines ih =>
    cases hblank : line.all isBlank with
    | true =>
      rw [List.filter_cons_of_neg (by simp [hblank]), readLines_cons_of_blank hblank]
      exact ih (number + 1)
    | false =>
      obtain ⟨f, hf⟩ := Field.exists_ofLine? hblank
      obtain ⟨issues, hread⟩ := hf number
      rw [List.filter_cons_of_pos (by simp [hblank]), readLines_cons_of_some hread, List.map_cons]
      refine .cons (fun number => ?_) (ih (number + 1))
      rw [Field.ofLine?_trim]
      exact hf number

/-- Behind a keyword that stands alone there are blanks before the name and the body that are read
there. -/
theorem exists_of_readBlock {name body rest : List Char}
    (hstands : Cursor.StandsAt tableKeyword text k)
    (h : readBlock (text.drop (k + tableKeyword.length)) = (.ok (name, body), rest)) :
    ∃ before blanks gap,
      text = before ++ (tableKeyword ++ (blanks ++ (name ++
        (gap ++ '\x7b' :: (body ++ '\x7d' :: rest))))) ∧
      before.length = k ∧ blanks ≠ [] ∧ (∀ c ∈ blanks, isBlank c = true) ∧
      (∀ c ∈ name, isNameChar c = true) ∧ (∀ c ∈ gap, isBlank c = true) ∧
      ∀ c ∈ (gap ++ '\x7b' :: (body ++ '\x7d' :: rest)).head?, isNameChar c = false := by
  obtain ⟨hopening, hne, -⟩ := opening_of_readBlock h
  obtain ⟨blanks, gap, hopened, hblanks, hname, hgap, hstop⟩ := exists_of_opening hopening
  obtain ⟨before, after, htext, rfl, -, hafter⟩ := hstands
  have hdrop : text.drop (before.length + tableKeyword.length) = after := by
    rw [htext, ← List.append_assoc, ← List.length_append, List.drop_left]
  rw [hdrop] at hopened
  refine ⟨before, blanks, gap, hopened ▸ htext, rfl, ?_, hblanks, hname, hgap, hstop⟩
  -- the keyword stands alone, so the name does not follow it directly
  rintro rfl
  obtain ⟨c, others, rfl⟩ := List.exists_cons_of_ne_nil hne
  have hc := hafter c (by rw [hopened]; rfl)
  rw [hname c List.mem_cons_self] at hc
  cases hc

/-- **A block at a keyword** is written from there on, and its issues are those of its body. -/
theorem TableBlock.exists_written_of_tableAt (hstands : Cursor.StandsAt tableKeyword text k)
    (h : tableAt text k = .block b) :
    ∃ blanks gap body, b.Written text blanks gap body ∧
      b.issues = (readBody (Cursor.lineAt text (b.bodyStart body)) body).flatMap Prod.snd := by
  obtain ⟨name, body, rest, hread, rfl⟩ := exists_of_tableAt h
  obtain ⟨-, hne, hbody⟩ := opening_of_readBlock hread
  obtain ⟨before, blanks, gap, htext, rfl, hblanks_ne, hblanks, hname, hgap, hstop⟩ :=
    exists_of_readBlock hstands hread
  have hend : tableEnd text before.length = Cursor.offsetOf text rest := by
    rw [tableEnd, hread]
  have hspelled : text = before ++ ((tableKeyword ++ (blanks ++ (name ++
      (gap ++ '\x7b' :: (body ++ ['\x7d']))))) ++ rest) := by
    rw [htext]
    simp
  refine ⟨blanks, gap, body, ⟨⟨before, rest, ?_, ?_⟩, hstands, hblanks_ne, hblanks,
    isName_ofList hne hname, ?_, hgap, hbody, forall₂_readLines _ _⟩, ?_⟩
  · rw [TableBlock.spelling, String.toList_ofList]
    exact hspelled
  · rw [TableBlock.spelling, String.toList_ofList]
    refine Prod.ext rfl (hend.trans ?_)
    rw [hspelled, ← List.append_assoc, Cursor.offsetOf_append, List.length_append]
  · refine ⟨before ++ (tableKeyword ++ blanks), gap ++ '\x7b' :: (body ++ '\x7d' :: rest), ?_, ?_,
      ?_, hstop⟩
    · rw [htext, String.toList_ofList]
      simp
    · rw [List.length_append, List.length_append]
    · intro c hc
      rw [← List.append_assoc, List.getLast?_append_of_ne_nil _ hblanks_ne] at hc
      exact isNameChar_eq_false_of_isBlank (hblanks c (List.mem_of_getLast? hc))
  · have hbodyAt : Cursor.offsetOf text (body ++ '\x7d' :: rest) =
        tableEnd text before.length - (body.length + 1) := by
      rw [hend]
      simp only [Cursor.offsetOf, List.length_append, List.length_cons]
      omega
    rw [TableBlock.bodyStart, hbodyAt]

/-- **A block of a text** is written in its span. -/
theorem TableBlock.exists_written (h : b ∈ Document.blocksOf text) :
    ∃ blanks gap body, b.Written text blanks gap body := by
  obtain ⟨k, -, hstands, hat⟩ := exists_of_mem_tablesFrom (Document.mem_filterMap_block?.1 h)
  obtain ⟨blanks, gap, body, hwritten, -⟩ := exists_written_of_tableAt hstands hat.symm
  exact ⟨blanks, gap, body, hwritten⟩

theorem TableBlock.Written.span_lt {blanks gap body : List Char}
    (h : b.Written text blanks gap body) : b.span.1 < b.span.2 := by
  obtain ⟨before, after, -, hspan⟩ := h.spelled
  rw [hspan]
  refine Nat.lt_add_of_pos_right ?_
  rw [TableBlock.spelling, List.length_append]
  exact Nat.add_pos_left (by decide) _

/-- **The spans of blocks** follow each other. -/
theorem Document.pairwise_span (text : List Char) :
    (blocksOf text).Pairwise fun a b => a.span.2 ≤ b.span.1 := by
  obtain ⟨starts, hstarts, -, hpairwise⟩ := exists_tablesFrom_eq_map text 0
  rw [blocksOf, scanTables_eq, hstarts, List.filterMap_map, List.pairwise_filterMap]
  refine hpairwise.imp ?_
  intro j k hjk a ha b hb
  rw [span_of_tableAt (TableFragment.block?_eq_some_iff.1 ha),
    span_of_tableAt (TableFragment.block?_eq_some_iff.1 hb)]
  exact hjk

/-! ## Reference lines -/

/-- A relationship is said by the reference line with its keyword at an offset: the keyword stands
alone and opens its line, and behind it there are blanks, a name, which may be missing, blanks, a
colon, and a rest of the line that says the relationship. -/
structure Relationship.SaidAt (text : List Char) (r : Relationship) (k : Nat) : Prop where
  keyword : Cursor.StandsAt referenceKeyword text k
  /-- Only blanks stand before the keyword on its line. -/
  opens : ∃ before indent, text.take k = before ++ indent ∧ (∀ c ∈ before.getLast?, c = '\n') ∧
    '\n' ∉ indent ∧ ∀ c ∈ indent, isBlank c = true
  expression : ∃ blanks name gap line rest,
    text.drop (k + referenceKeyword.length) =
      blanks ++ (name ++ (gap ++ ':' :: (line ++ rest))) ∧
    (∀ c ∈ blanks, isBlank c = true) ∧ (∀ c ∈ name, isNameChar c = true) ∧
    (∀ c ∈ gap, isBlank c = true) ∧ '\n' ∉ line ∧ (∀ c ∈ rest.head?, c = '\n') ∧
    Relationship.ofExpression line = .ok r

/-- Where a line starts, it has blanks only. -/
theorem Cursor.exists_of_atLineStart (h : atLineStart text k = true) :
    ∃ before indent, text.take k = before ++ indent ∧ (∀ c ∈ before.getLast?, c = '\n') ∧
      '\n' ∉ indent ∧ ∀ c ∈ indent, isBlank c = true := by
  unfold atLineStart at h
  generalize hs : (text.take k).reverse = s at h
  refine ⟨(s.dropWhile (· ≠ '\n')).reverse, (s.takeWhile (· ≠ '\n')).reverse, ?_, ?_, ?_, ?_⟩
  · rw [← List.reverse_append, List.takeWhile_append_dropWhile, ← hs, List.reverse_reverse]
  · intro c hc
    rw [List.getLast?_reverse] at hc
    simpa using head?_dropWhile (· ≠ '\n') s c hc
  · intro hmem
    simpa using List.mem_takeWhile_imp (List.mem_reverse.1 hmem)
  · intro c hc
    exact List.all_eq_true.1 h c (List.mem_reverse.1 hc)

/-- **A relationship at a keyword** that opens its line is said there. -/
theorem Relationship.saidAt_of_referenceAt (hstands : Cursor.StandsAt referenceKeyword text k)
    (hline : Cursor.atLineStart text k = true) (h : referenceAt text k = .relationship r) :
    r.SaidAt text k := by
  refine ⟨hstands, Cursor.exists_of_atLineStart hline, ?_⟩
  rcases hopening : opening (text.drop (k + referenceKeyword.length)) with ⟨name, rest⟩
  unfold referenceAt at h
  by_cases hcolon : rest.head? = some ':'
  · obtain ⟨behind, rfl⟩ := List.head?_eq_some_iff.1 hcolon
    rw [readReference_of_colon hopening] at h
    dsimp only at h
    have hsaid : Relationship.ofExpression (behind.takeWhile (· ≠ '\n')) = .ok r := by
      split at h
      · next r' hr =>
        cases h
        exact hr
      · cases h
    obtain ⟨blanks, gap, hopened, hblanks, hname, hgap, -⟩ := exists_of_opening hopening
    refine ⟨blanks, name, gap, behind.takeWhile (· ≠ '\n'), behind.dropWhile (· ≠ '\n'), ?_,
      hblanks, hname, hgap, ?_, ?_, hsaid⟩
    · rw [List.takeWhile_append_dropWhile]
      exact hopened
    · intro hmem
      simpa using List.mem_takeWhile_imp hmem
    · intro c hc
      simpa using head?_dropWhile (· ≠ '\n') behind c hc
  · rw [readReference_of_no_colon hopening hcolon] at h
    cases h

/-- The elements that have a value, each with its value. -/
theorem forall₂_filterMap_filter {α β : Type} {f : α → Option β} {p : β → α → Prop} {l : List α}
    (h : ∀ a ∈ l, ∀ b ∈ f a, p b a) :
    List.Forall₂ p (l.filterMap f) (l.filter fun a => (f a).isSome) := by
  induction l with
  | nil => exact .nil
  | cons a l ih =>
    obtain ⟨hhead, htail⟩ := List.forall_mem_cons.1 h
    cases ha : f a with
    | none =>
      rw [List.filterMap_cons_none ha, List.filter_cons_of_neg (by simp [ha])]
      exact ih htail
    | some b =>
      rw [List.filterMap_cons_some ha, List.filter_cons_of_pos (by simp [ha])]
      exact .cons (hhead b ha) (ih htail)

namespace Document

/-- **The relationships of reference lines** are said at keywords that open their lines outside the
blocks, one behind the other. -/
theorem exists_starts_of_lineRelationships (text : List Char) :
    ∃ starts : List Nat, starts.Pairwise (· < ·) ∧
      (∀ k ∈ starts, ∀ b ∈ blocksOf text, k < b.span.1 ∨ b.span.2 ≤ k) ∧
      List.Forall₂ (fun r k => r.SaidAt text k) (lineRelationships text) starts := by
  obtain ⟨starts, hstarts, hstands, hpairwise⟩ :=
    exists_referencesFrom_eq_map ((blocksOf text).map TableBlock.span) text 0
  have hsaid : lineRelationships text =
      starts.filterMap fun k => (referenceAt text k).relationship? := by
    rw [lineRelationships, referencesOf, scanReferences_eq, hstarts, List.filterMap_map]
    rfl
  refine ⟨starts.filter fun k => (referenceAt text k).relationship?.isSome, ?_, ?_, ?_⟩
  · exact (pairwise_lt_of_referenceEnd (fun k hk => (hstands k hk).2.1) hpairwise).filter _
  · intro k hk b hb
    have hpassed := (hstands k (List.mem_of_mem_filter hk)).2.2
    by_contra hinside
    refine hpassed (Or.inr (insideAny_of_mem (List.mem_map_of_mem hb) ?_ ?_)) <;> omega
  · rw [hsaid]
    refine forall₂_filterMap_filter ?_
    intro k hk r hr
    obtain ⟨-, hstandsAt, hpassed⟩ := hstands k hk
    have hline : Cursor.atLineStart text k = true := by
      rw [← Bool.not_eq_false]
      exact fun hline => hpassed (Or.inl hline)
    exact Relationship.saidAt_of_referenceAt hstandsAt hline
      (ReferenceFragment.relationship?_eq_some_iff.1 hr)

/-- **What is found is written there.** The spans of the blocks follow each other, and each block
is written in its span.  The relationships of reference lines are said at keywords that open their
lines outside the spans, one behind the other. -/
theorem blocks_and_references_written (text : List Char) :
    (blocksOf text).Pairwise (fun a b => a.span.2 ≤ b.span.1) ∧
    (∀ b ∈ blocksOf text, b.span.1 < b.span.2 ∧
      ∃ blanks gap body, b.Written text blanks gap body) ∧
    ∃ starts : List Nat, starts.Pairwise (· < ·) ∧
      (∀ k ∈ starts, ∀ b ∈ blocksOf text, k < b.span.1 ∨ b.span.2 ≤ k) ∧
      List.Forall₂ (fun r k => r.SaidAt text k) (lineRelationships text) starts := by
  refine ⟨pairwise_span text, fun b hb => ?_, exists_starts_of_lineRelationships text⟩
  obtain ⟨blanks, gap, body, hwritten⟩ := TableBlock.exists_written hb
  exact ⟨hwritten.span_lt, blanks, gap, body, hwritten⟩

-- Behind a name that is no block the search goes on, and `Tables` is a name of its own.
example :
    (blocksOf ("Table Table Table a\x7bx\x7dTables b\x7by\x7d\n Table\n_ \x7b\nz\n\n " ++
      "w int\x7d").toList).map (fun b => (b.name, b.span)) =
        [("a", (12, 22)), ("_", (35, 55))] := by
  decide +kernel

end Document

end SchemaDiagram
