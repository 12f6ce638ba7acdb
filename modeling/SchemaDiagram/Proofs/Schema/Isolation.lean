/-
# Blocks are isolated

Nothing inside the braces of a block reaches out of them.  What stands before the block cannot
read beyond its opening brace, and a reference line that runs into the block is cut off there;
inside the block the reference pass passes over all keywords, and behind it both passes go on as
if they started there.

* `withBody` : a text with a block of a given body;
* `blocksOf_withBody` : its blocks, of which one depends on the body;
* `referenceAt_cases` : a reference line before an opening brace;
* `lineRelationships_withBody` : its reference lines do not depend on the body.

Main statement: `Document.isolated` : two bodies make a difference for the fields of their block
only.
-/
import SchemaDiagram.Proofs.Schema.Ahead
import SchemaDiagram.Proofs.Schema.Barrier
import SchemaDiagram.Proofs.Schema.Parts

namespace SchemaDiagram

open Text

variable {s r before after name body : List Char} {k p q : Nat}

/-! ## The block -/

/-- A text up to the name of a block, with a blank behind it. -/
def untilBrace (before : List Char) (name : String) : List Char :=
  before ++ (tableKeyword ++ ' ' :: (name.toList ++ [' ']))

/-- A text up to the end of the body of a block. -/
def untilClosing (before : List Char) (name : String) (body : List Char) : List Char :=
  untilBrace before name ++ '\x7b' :: body

/-- A text with a block of a given body. -/
def withBody (before : List Char) (name : String) (body after : List Char) : List Char :=
  before ++ (tableKeyword ++ ' ' :: (name.toList ++ ' ' :: '\x7b' :: (body ++ '\x7d' :: after)))

theorem withBody_eq_untilBrace (before : List Char) (name : String) (body after : List Char) :
    withBody before name body after =
      untilBrace before name ++ '\x7b' :: (body ++ '\x7d' :: after) := by
  simp [withBody, untilBrace]

theorem withBody_eq_untilClosing (before : List Char) (name : String) (body after : List Char) :
    withBody before name body after = untilClosing before name body ++ '\x7d' :: after := by
  simp [withBody, untilClosing, untilBrace]

/-- Whether the keyword of the block stands there is told by the text before its brace. -/
theorem standsAt_withBody (before : List Char) (name : String) (body after : List Char) :
    Cursor.StandsAt tableKeyword (withBody before name body after) before.length ↔
      Cursor.StandsAt tableKeyword (untilBrace before name) before.length := by
  have hlen : before.length < (untilBrace before name).length := by
    rw [untilBrace, List.length_append, List.length_append, List.length_cons]
    omega
  rw [withBody_eq_untilBrace]
  exact Cursor.standsAt_append_left (by decide) (head?_not_nameChar (by decide) _) hlen

/-- Behind a name and a blank an opening brace is next. -/
theorem opening_name {name : String} (hname : IsName name) (r : List Char) :
    opening (' ' :: (name.toList ++ ' ' :: '\x7b' :: r)) = (name.toList, '\x7b' :: r) := by
  have hblanks : (' ' :: (name.toList ++ ' ' :: '\x7b' :: r)).dropWhile isBlank =
      name.toList ++ ' ' :: '\x7b' :: r := by
    rw [List.dropWhile_cons_of_pos (by decide)]
    exact dropWhile_eq_self (hname.head_not_blank _)
  have htake : (name.toList ++ ' ' :: '\x7b' :: r).takeWhile isNameChar = name.toList := by
    rw [takeWhile_append_stop (by decide), List.takeWhile_eq_self_iff.2 hname.nameChars]
  have hdrop : (name.toList ++ ' ' :: '\x7b' :: r).dropWhile isNameChar = ' ' :: '\x7b' :: r := by
    rw [dropWhile_append_stop (by decide), List.dropWhile_eq_nil_iff.2 hname.nameChars,
      List.nil_append]
  have hbrace : (' ' :: '\x7b' :: r).dropWhile isBlank = '\x7b' :: r := by
    rw [List.dropWhile_cons_of_pos (by decide), List.dropWhile_cons_of_neg (by decide)]
  rw [opening, hblanks, htake, hdrop, hbrace]

/-- The block is read up to its closing brace. -/
theorem readBlock_withBody {name : String} (hname : IsName name) (hbody : '\x7d' ∉ body)
    (before after : List Char) :
    readBlock ((withBody before name body after).drop (before.length + tableKeyword.length)) =
      (.ok (name.toList, body), after) := by
  have hdrop : (withBody before name body after).drop (before.length + tableKeyword.length) =
      ' ' :: (name.toList ++ ' ' :: '\x7b' :: (body ++ '\x7d' :: after)) := by
    rw [withBody, ← List.append_assoc, ← List.length_append, List.drop_left]
  rw [hdrop]
  exact (BlockRead.block (opening_name hname _) hname.ne_nil hbody).eq

/-! ## The table pass up to the block -/

/-- A fragment that ends before an opening brace is not cut off there. -/
theorem not_blockCutOff_of_tableEnd (hk : k + tableKeyword.length ≤ s.length) (hr : '\x7d' ∈ r)
    (hend : tableEnd (s ++ '\x7b' :: r) k < s.length) :
    ¬ BlockCutOff (s.drop (k + tableKeyword.length)) := by
  intro hcut
  have hsuffix := (readBlock_append_of_cutOff hcut hr).length_le
  rw [← List.drop_append_of_le_length hk, List.length_cons] at hsuffix
  rw [tableEnd, Cursor.offsetOf, List.length_append, List.length_cons] at hend
  omega

/-- **The table pass up to a block** finds the same fragments, whatever stands behind the opening
brace of the block. -/
theorem tablesFrom_upTo (hq : Cursor.StandsAt tableKeyword s q) (hp : p ≤ q) (hr : '\x7d' ∈ r)
    (h : ∃ b, .block b ∈ tablesFrom (s ++ '\x7b' :: r) p ∧ b.span.1 = q) :
    ∃ head : List TableFragment, (∀ b, .block b ∈ head → b.span.2 ≤ q) ∧
      ∀ r', tablesFrom (s ++ '\x7b' :: r') p = head ++ tablesFrom (s ++ '\x7b' :: r') q := by
  have hbrace := head?_not_nameChar (x := '\x7b') (by decide)
  have hlen := hq.length_le
  have hkeyword : tableKeyword.length = 5 := rfl
  induction p using Cursor.keywordFrom?_induction tableKeyword s with
  | none p hfind =>
    exact absurd hq ((Cursor.keywordFrom?_eq_none_iff (by decide) (by decide)).1 hfind q hp)
  | some p k hfind ih =>
    obtain ⟨-, -, hleast⟩ := (Cursor.keywordFrom?_eq_some_iff (by decide) (by decide)).1 hfind
    have hle : k ≤ q := Nat.le_of_not_lt fun hlt => hleast q hp hlt hq
    have hbounds := Cursor.keywordFrom?_bounds hfind
    rcases Nat.eq_or_lt_of_le hle with rfl | hlt
    · -- the block is next
      have hnone : ∀ b, TableFragment.block b ∈ [] → b.span.2 ≤ k := by
        intro b hb
        cases hb
      refine ⟨[], hnone, fun r' => tablesFrom_congr ?_⟩
      have hhere := Cursor.keywordFrom?_here (by decide) (by decide) hq
      rw [Cursor.keywordFrom?_append_of_some (by decide) (by decide) (hbrace r') hfind,
        Cursor.keywordFrom?_append_of_some (by decide) (by decide) (hbrace r') hhere]
    · obtain ⟨b, hb, hspan⟩ := h
      have hfind' := Cursor.keywordFrom?_append_of_some (by decide) (by decide) (hbrace r) hfind
      -- the block is not this fragment, so it is found behind it
      have hrest : .block b ∈ tablesFrom (s ++ '\x7b' :: r) (tableEnd (s ++ '\x7b' :: r) k) := by
        rw [tablesFrom_of_some hfind', List.mem_cons] at hb
        rcases hb with hb | hb
        · rw [span_of_tableAt hb.symm] at hspan
          omega
        · exact hb
      have hend : tableEnd (s ++ '\x7b' :: r) k ≤ q := by
        obtain ⟨j, hj, -, hat⟩ := exists_of_mem_tablesFrom hrest
        rw [span_of_tableAt hat.symm] at hspan
        omega
      have hcut := not_blockCutOff_of_tableEnd hbounds.2 hr (by omega)
      rw [tableEnd_append_left hbounds.2 hcut] at hrest hend
      obtain ⟨head, hhead, htail⟩ := ih _ (lt_tableEnd hfind) hend ⟨b, hrest, hspan⟩
      refine ⟨tableAt s k :: head, ?_, ?_⟩
      · intro b' hb'
        rcases List.mem_cons.1 hb' with hb' | hb'
        · rw [span_of_tableAt hb'.symm]
          exact hend
        · exact hhead b' hb'
      · intro r'
        rw [tablesFrom_append_of_some (hbrace r') hfind hcut, htail, List.cons_append]

/-! ## The blocks of the text -/

namespace Document

/-- The blocks behind the closing brace of a block, at offsets from this brace. -/
def blocksBehind (after : List Char) : List TableBlock :=
  (tablesFrom ('\x7d' :: after) 1).filterMap TableFragment.block?

end Document

theorem freshFrom_closing (s after : List Char) (hp : 0 < p) : FreshFrom s ('\x7d' :: after) p :=
  Or.inr ⟨hp, '\x7d', rfl, by decide⟩

/-- The table pass from the block on: the block, and what stands behind it. -/
theorem tablesFrom_withBody {name : String} (hname : IsName name) (hbody : '\x7d' ∉ body)
    (hstands : Cursor.StandsAt tableKeyword (untilBrace before name) before.length)
    (after : List Char) :
    ∃ b : TableBlock, b.name = name ∧
      b.span = (before.length, (untilClosing before name body).length + 1) ∧
      tablesFrom (withBody before name body after) before.length =
        .block b :: (tablesFrom ('\x7d' :: after) 1).map
          (TableFragment.below (untilClosing before name body).length
            ((untilClosing before name body).count '\n')) := by
  have hread := readBlock_withBody hname hbody before after
  have hend : tableEnd (withBody before name body after) before.length =
      (untilClosing before name body).length + 1 := by
    rw [tableEnd, hread, withBody_eq_untilClosing]
    show (untilClosing before name body ++ '\x7d' :: after).length - after.length = _
    rw [List.length_append, List.length_cons]
    omega
  have hstands' := (standsAt_withBody before name body after).2 hstands
  obtain ⟨b, hat, hbname⟩ : ∃ b : TableBlock,
      tableAt (withBody before name body after) before.length = .block b ∧ b.name = name :=
    ⟨_, tableAt_of_ok hread, String.ofList_toList⟩
  have hspan := span_of_tableAt hat
  rw [hend] at hspan
  refine ⟨b, hbname, hspan, ?_⟩
  rw [tablesFrom_of_some (Cursor.keywordFrom?_here (by decide) (by decide) hstands'), hat, hend,
    withBody_eq_untilClosing, tablesFrom_append_right (freshFrom_closing _ _ Nat.one_pos)]

/-- **The blocks of the text** depend on the body in the block that has it, and in the places of
those behind it. -/
theorem blocksOf_withBody {name : String} (hname : IsName name)
    (h : ∃ b ∈ Document.blocksOf (withBody before name body after), b.span.1 = before.length) :
    ∃ head : List TableBlock, (∀ b ∈ head, b.span.2 ≤ before.length) ∧
      ∀ body', '\x7d' ∉ body' → ∃ b : TableBlock, b.name = name ∧
        b.span = (before.length, (untilClosing before name body').length + 1) ∧
        Document.blocksOf (withBody before name body' after) =
          head ++ b :: (Document.blocksBehind after).map
            (TableBlock.below (untilClosing before name body').length
              ((untilClosing before name body').count '\n')) := by
  obtain ⟨b, hb, hspan⟩ := h
  have hstands := (standsAt_withBody before name body after).1
    (hspan ▸ (Document.span_of_mem_blocksOf hb).1)
  have hmem : .block b ∈ tablesFrom (withBody before name body after) 0 :=
    Document.mem_filterMap_block?.1 hb
  rw [withBody_eq_untilBrace] at hmem
  obtain ⟨head, hhead, hpass⟩ := tablesFrom_upTo hstands (Nat.zero_le _) (by simp) ⟨b, hmem, hspan⟩
  refine ⟨head.filterMap TableFragment.block?, ?_, ?_⟩
  · exact fun b' hb' => hhead b' (Document.mem_filterMap_block?.1 hb')
  · intro body' hbody'
    obtain ⟨b', hbname, hbspan, hfrom⟩ := tablesFrom_withBody hname hbody' hstands after
    refine ⟨b', hbname, hbspan, ?_⟩
    rw [withBody_eq_untilBrace] at hfrom
    rw [Document.blocksOf, withBody_eq_untilBrace, scanTables_eq, hpass, hfrom,
      List.filterMap_append, List.filterMap_cons, Document.filterMap_block?_below]
    rfl

/-! ## Reference lines up to the block -/

theorem relationship?_referenceAt (text : List Char) (k : Nat) :
    (referenceAt text k).relationship? =
      ((readReference (text.drop (k + referenceKeyword.length))).1.bind
        Relationship.ofExpression).toOption := by
  unfold referenceAt
  cases (readReference (text.drop (k + referenceKeyword.length))).1 with
  | error fault => rfl
  | ok expression =>
    dsimp only [Except.bind]
    cases Relationship.ofExpression expression <;> rfl

/-- **A reference line before an opening brace** says the same, whatever stands behind the brace.
It ends before the brace, or with the line of the brace. -/
theorem referenceAt_cases (hk : k + referenceKeyword.length ≤ s.length) :
    ∃ said, (∃ stop, k + referenceKeyword.length ≤ stop ∧ stop ≤ s.length ∧
      ∀ r, (referenceAt (s ++ '\x7b' :: r) k).relationship? = said ∧
        referenceEnd (s ++ '\x7b' :: r) k = stop) ∨
    ∀ r, (referenceAt (s ++ '\x7b' :: r) k).relationship? = said ∧
      referenceEnd (s ++ '\x7b' :: r) k =
        s.length + (('\x7b' :: r).takeWhile (· ≠ '\n')).length := by
  have hdrop : ∀ r, (s ++ '\x7b' :: r).drop (k + referenceKeyword.length) =
      s.drop (k + referenceKeyword.length) ++ '\x7b' :: r := fun r =>
    List.drop_append_of_le_length hk
  rcases readReference_append_brace (s.drop (k + referenceKeyword.length)) with
    ⟨read, rest, hrest, hread⟩ | ⟨line, hread⟩
  · refine ⟨(read.bind Relationship.ofExpression).toOption, Or.inl ⟨Cursor.offsetOf s rest,
      (Cursor.offsetOf_bounds hk hrest).1, Nat.sub_le _ _, fun r => ?_⟩⟩
    rw [relationship?_referenceAt, referenceEnd, hdrop, hread, Cursor.offsetOf_append_left]
    exact ⟨rfl, rfl⟩
  · -- the relationship is read before the brace
    have hsame : ∀ r : List Char,
        Relationship.ofExpression (line ++ '\x7b' :: r.takeWhile (· ≠ '\n')) =
          Relationship.ofExpression (line ++ ['\x7b']) := fun r =>
      Relationship.ofExpression_barred (by decide) (by decide) (by decide) line _ []
    refine ⟨(Relationship.ofExpression (line ++ ['\x7b'])).toOption, Or.inr fun r => ?_⟩
    constructor
    · rw [relationship?_referenceAt, hdrop, hread, ← hsame r]
      rfl
    · have hsum := length_takeWhile_add_dropWhile (· ≠ '\n') ('\x7b' :: r)
      rw [referenceEnd, hdrop, hread, Cursor.offsetOf, List.length_append]
      dsimp only
      omega

/-! ## The reference pass -/

section

variable {spans later : List (Nat × Nat)}

theorem length_takeWhile_append_le (p : Char → Bool) (s r : List Char) :
    ((s ++ r).takeWhile p).length ≤ s.length + (r.takeWhile p).length := by
  have hle := (List.takeWhile_prefix p (l := s)).length_le
  rw [List.takeWhile_append]
  split
  · rw [List.length_append]
  · omega

/-- How much of a line follows the closing brace of a block, the brace included. -/
def closingLine (after : List Char) : Nat := (('\x7d' :: after).takeWhile (· ≠ '\n')).length

theorem closingLine_pos (after : List Char) : 0 < closingLine after := by
  rw [closingLine, List.takeWhile_cons_of_pos (by decide)]
  exact Nat.succ_pos _

/-- On the line of a closing brace no line starts behind it, and a keyword ends on the line. -/
theorem passedOver_closingLine (hk : 0 < k) (hlt : k < closingLine after)
    (hstands : Cursor.StandsAt referenceKeyword ('\x7d' :: after) k) :
    Cursor.atLineStart ('\x7d' :: after) k = false ∧
      k + referenceKeyword.length ≤ closingLine after := by
  have hsplit := List.takeWhile_append_dropWhile (p := (· ≠ '\n')) (l := '\x7d' :: after)
  have hline : '\n' ∉ '\x7d' :: after.takeWhile (· ≠ '\n') := by
    intro hmem
    rcases List.mem_cons.1 hmem with hmem | hmem
    · cases hmem
    · simpa using List.mem_takeWhile_imp hmem
  have hend : ∀ c ∈ (('\x7d' :: after).dropWhile (· ≠ '\n')).head?, isNameChar c = false := by
    intro c hc
    have hc := head?_dropWhile _ _ c hc
    rw [decide_eq_false_iff_not, Decidable.not_not] at hc
    rw [hc]
    decide
  unfold closingLine at hlt ⊢
  rw [← hsplit] at hstands
  constructor
  · rw [← hsplit, Cursor.atLineStart_append_left (Nat.le_of_lt hlt),
      List.takeWhile_cons_of_pos (by decide)]
    exact Cursor.atLineStart_eq_false hline (by decide) hk
  · exact ((Cursor.standsAt_append_left (by decide) hend hlt).1 hstands).length_le

/-- **Through a block** and to the end of its last line the reference pass passes over all
keywords. -/
theorem referencesFrom_through (hspan : (q, s.length + 1) ∈ spans) (hq : q ≤ p)
    (hp : p ≤ s.length + closingLine after) :
    referencesFrom spans (s ++ '\x7d' :: after) p =
      referencesFrom spans (s ++ '\x7d' :: after) (s.length + closingLine after) := by
  have hclosing := head?_not_nameChar (x := '\x7d') (by decide) after
  have hkeyword : referenceKeyword.length = 3 := rfl
  have hpos := closingLine_pos after
  refine referencesFrom_skip hp ?_
  intro k hk hlt hstands
  rcases Nat.lt_trichotomy k s.length with hinside | rfl | hbehind
  · have hend := ((Cursor.standsAt_append_left (by decide) hclosing hinside).1 hstands).length_le
    exact ⟨Or.inr (insideAny_of_mem hspan (by omega) (by omega)), by omega⟩
  · -- the closing brace stands there
    refine absurd hstands (Cursor.not_standsAt_of_not_nameChar (by decide) (by decide)
      (c := '\x7d') (by simp) (by decide))
  · obtain ⟨i, rfl⟩ := Nat.exists_eq_add_of_lt hbehind
    rw [Nat.add_assoc] at hstands hlt ⊢
    rw [Cursor.standsAt_append_right (by omega)] at hstands
    obtain ⟨hline, hend⟩ := passedOver_closingLine (Nat.succ_pos i) (by omega) hstands
    have hlen := hstands.length_le
    refine ⟨Or.inl ?_, by omega⟩
    rw [(freshFrom_closing s after (Nat.succ_pos i)).atLineStart_append_right (Nat.le_refl _)
      (by omega), hline]

/-- The spans of a text: those before a block, the block, and those behind its closing brace. -/
def spansAround (spans : List (Nat × Nat)) (q : Nat) (s : List Char) (later : List (Nat × Nat)) :
    List (Nat × Nat) :=
  spans ++ (q, s.length + 1) :: later.map fun span => (s.length + span.1, s.length + span.2)

/-- Behind a block the reference pass finds what it finds behind its closing brace alone. -/
theorem referencesFrom_closing (hspans : ∀ span ∈ spans, span.2 ≤ q) (hq : q ≤ s.length) :
    referencesFrom (spansAround spans q s later) (s ++ '\x7d' :: after)
        (s.length + closingLine after) =
      (referencesFrom later ('\x7d' :: after) (closingLine after)).map
        (ReferenceFragment.below (s.count '\n')) := by
  have hpos := closingLine_pos after
  have hpassed : ∀ span ∈ spans ++ [(q, s.length + 1)],
      span.2 ≤ s.length + closingLine after := by
    intro span hspan
    rcases List.mem_append.1 hspan with hspan | hspan
    · have hle := hspans span hspan
      omega
    · rw [List.mem_singleton.1 hspan]
      exact Nat.add_le_add_left hpos _
  have hright := @referencesFrom_append_right _ _ _ _ later
    (freshFrom_closing s after hpos) hpassed
  rw [List.append_assoc, List.singleton_append] at hright
  exact hright

/-- Before an opening brace a keyword is passed over or not, whatever stands behind the brace. -/
theorem passedOver_iff (hk : k < s.length) (body : List Char) :
    PassedOver (spansAround spans q (s ++ '\x7b' :: body) later)
        (s ++ '\x7b' :: (body ++ '\x7d' :: after)) k ↔
      Cursor.atLineStart s k = false ∨ insideAny spans k = true ∨ q ≤ k := by
  have hlater : ∀ span ∈ later.map fun span : Nat × Nat =>
      ((s ++ '\x7b' :: body).length + span.1, (s ++ '\x7b' :: body).length + span.2),
      k < span.1 := by
    intro span hspan
    obtain ⟨inner, -, rfl⟩ := List.mem_map.1 hspan
    rw [List.length_append]
    omega
  have hown : k < s.length + (body.length + 1) + 1 := by omega
  unfold PassedOver spansAround
  rw [Cursor.atLineStart_append_left (Nat.le_of_lt hk), ← List.singleton_append,
    ← List.append_assoc, insideAny_append_left hlater]
  unfold insideAny
  simp [hown]

/-- From the opening brace of a block on, the reference pass finds what it finds behind the last
line of the block. -/
theorem relationships_throughBlock (hspans : ∀ span ∈ spans, span.2 ≤ q) (hq : q ≤ s.length)
    (hs : s.length ≤ p) (hp : p ≤ (s ++ '\x7b' :: body).length + closingLine after) :
    (referencesFrom (spansAround spans q (s ++ '\x7b' :: body) later)
      (s ++ '\x7b' :: (body ++ '\x7d' :: after)) p).filterMap ReferenceFragment.relationship? =
    (referencesFrom later ('\x7d' :: after) (closingLine after)).filterMap
      ReferenceFragment.relationship? := by
  have hspan : (q, (s ++ '\x7b' :: body).length + 1) ∈
      spansAround spans q (s ++ '\x7b' :: body) later :=
    List.mem_append_right _ List.mem_cons_self
  have hq' : q ≤ (s ++ '\x7b' :: body).length := by
    rw [List.length_append]
    omega
  have hassoc : s ++ '\x7b' :: (body ++ '\x7d' :: after) =
      (s ++ '\x7b' :: body) ++ '\x7d' :: after := by simp
  rw [hassoc, referencesFrom_through hspan (by omega) hp, referencesFrom_closing hspans hq',
    Document.filterMap_relationship?_below]

/-- **The reference pass before a block** finds relationships that do not depend on the body of
the block. -/
theorem referencesFrom_withBody (hspans : ∀ span ∈ spans, span.2 ≤ q) (hq : q ≤ s.length)
    (later : List (Nat × Nat)) (after : List Char) (hp : p ≤ s.length) :
    ∃ said, ∀ body, (referencesFrom (spansAround spans q (s ++ '\x7b' :: body) later)
      (s ++ '\x7b' :: (body ++ '\x7d' :: after)) p).filterMap
        ReferenceFragment.relationship? = said := by
  have hbrace := head?_not_nameChar (x := '\x7b') (by decide)
  have hkeyword : referenceKeyword.length = 3 := rfl
  induction p using Cursor.keywordFrom?_induction referenceKeyword s with
  | none p hfind =>
    refine ⟨(referencesFrom later ('\x7d' :: after) (closingLine after)).filterMap
      ReferenceFragment.relationship?, fun body => ?_⟩
    rw [referencesFrom_congr (Cursor.keywordFrom?_append_of_none (by decide) (by decide)
      (hbrace _) hp hfind)]
    refine relationships_throughBlock hspans hq (Nat.le_refl _) ?_
    rw [List.length_append]
    omega
  | some p k hfind ih =>
    have hbounds := Cursor.keywordFrom?_bounds hfind
    have hfind' : ∀ r, Cursor.keywordFrom? referenceKeyword (s ++ '\x7b' :: r) p = some k :=
      fun r => Cursor.keywordFrom?_append_of_some (by decide) (by decide) (hbrace r) hfind
    by_cases hover : Cursor.atLineStart s k = false ∨ insideAny spans k = true ∨ q ≤ k
    · obtain ⟨said, hsaid⟩ := ih _ (by omega) hbounds.2
      refine ⟨said, fun body => ?_⟩
      rw [referencesFrom_of_passedOver (hfind' _) ((passedOver_iff (by omega) body).2 hover)]
      exact hsaid body
    · obtain ⟨first, ⟨stop, hpast, hstop, hat⟩ | hat⟩ := referenceAt_cases hbounds.2
      · -- the line ends before the brace
        obtain ⟨said, hsaid⟩ := ih _ (by omega) hstop
        refine ⟨first.toList ++ said, fun body => ?_⟩
        obtain ⟨hfirst, hend⟩ := hat (body ++ '\x7d' :: after)
        rw [referencesFrom_of_some (hfind' _) (mt (passedOver_iff (by omega) body).1 hover), hend,
          List.filterMap_cons, hfirst, ← hsaid body]
        cases first <;> rfl
      · -- the line runs into the block
        refine ⟨first.toList ++ (referencesFrom later ('\x7d' :: after)
          (closingLine after)).filterMap ReferenceFragment.relationship?, fun body => ?_⟩
        obtain ⟨hfirst, hend⟩ := hat (body ++ '\x7d' :: after)
        have hline : s.length + (('\x7b' :: (body ++ '\x7d' :: after)).takeWhile
            (· ≠ '\n')).length ≤ (s ++ '\x7b' :: body).length + closingLine after := by
          have hle := length_takeWhile_append_le (· ≠ '\n') ('\x7b' :: body) ('\x7d' :: after)
          rw [List.length_append, Nat.add_assoc]
          exact Nat.add_le_add_left hle _
        rw [referencesFrom_of_some (hfind' _) (mt (passedOver_iff (by omega) body).1 hover), hend,
          List.filterMap_cons, hfirst, relationships_throughBlock hspans hq (by omega) hline]
        cases first <;> rfl

end

namespace Document

theorem lineRelationships_withBody {name : String} {head : List TableBlock}
    (hhead : ∀ b ∈ head, b.span.2 ≤ before.length) :
    ∃ said, ∀ body b, b.span = (before.length, (untilClosing before name body).length + 1) →
      blocksOf (withBody before name body after) = head ++ b :: (blocksBehind after).map
        (TableBlock.below (untilClosing before name body).length
          ((untilClosing before name body).count '\n')) →
      lineRelationships (withBody before name body after) = said := by
  have hspans : ∀ span ∈ head.map TableBlock.span, span.2 ≤ before.length := by
    intro span hspan
    obtain ⟨b, hb, rfl⟩ := List.mem_map.1 hspan
    exact hhead b hb
  have hlen : before.length ≤ (untilBrace before name).length := by
    rw [untilBrace, List.length_append]
    omega
  obtain ⟨said, hsaid⟩ := referencesFrom_withBody hspans hlen
    ((blocksBehind after).map TableBlock.span) after (Nat.zero_le _)
  refine ⟨said, fun body b hspan hblocks => ?_⟩
  have haround : (blocksOf (withBody before name body after)).map TableBlock.span =
      spansAround (head.map TableBlock.span) before.length (untilClosing before name body)
        ((blocksBehind after).map TableBlock.span) := by
    rw [hblocks, List.map_append, List.map_cons, hspan, List.map_map, spansAround, List.map_map]
    rfl
  rw [lineRelationships, referencesOf, haround, withBody_eq_untilBrace]
  exact hsaid body

/-- **Blocks are isolated**: two bodies of a block without closing braces make a difference for the
fields of this block only.  The other blocks are the same in the same order, and so are the
relationships of the reference lines. -/
theorem isolated {name : String} {body body' : List Char} (hname : IsName name)
    (hbody : '\x7d' ∉ body) (hbody' : '\x7d' ∉ body')
    (h : ∃ b ∈ blocksOf (withBody before name body after), b.span.1 = before.length) :
    (∃ (head : List TableBlock) (b b' : TableBlock) (behind behind' : List TableBlock),
      blocksOf (withBody before name body after) = head ++ b :: behind ∧
        blocksOf (withBody before name body' after) = head ++ b' :: behind' ∧
        b.span.1 = before.length ∧ b'.span.1 = before.length ∧ b'.name = b.name ∧
        behind'.map TableBlock.entity = behind.map TableBlock.entity) ∧
      lineRelationships (withBody before name body' after) =
        lineRelationships (withBody before name body after) := by
  obtain ⟨head, hhead, hblocks⟩ := blocksOf_withBody hname h
  obtain ⟨b, hb, hspan, hall⟩ := hblocks body hbody
  obtain ⟨b', hb', hspan', hall'⟩ := hblocks body' hbody'
  obtain ⟨said, hsaid⟩ := @lineRelationships_withBody _ after name _ hhead
  refine ⟨⟨head, b, b', _, _, hall, hall', ?_, ?_, hb'.trans hb.symm, ?_⟩, ?_⟩
  · rw [hspan]
  · rw [hspan']
  · rw [List.map_map, List.map_map]
    rfl
  · rw [hsaid body b hspan hall, hsaid body' b' hspan' hall']

/-- A text that ends in a reference line, which the block behind it continues. -/
def leadingText : List Char := "Table Table \x7b\n\x7d\nRef: a.x > b.y ".toList

/-- A text that goes on behind a block on its last line. -/
def trailingText : List Char := " Ref: a.x > b.y\nRef: b.y < a.x\nTable b\x7b\n\x7d\nTable".toList

/-- A body with keywords, braces and brackets. -/
def rousingBody : List Char := "\nRef: a.x > b.y\nTable c \x7b [ref\nTable".toList

theorem isolated_rousing :
    IsName "a" ∧ '\x7d' ∉ rousingBody ∧ '\x7d' ∉ ([] : List Char) ∧
      (∃ b ∈ blocksOf (withBody leadingText "a" rousingBody trailingText),
        b.span.1 = leadingText.length) ∧
      (∃ (head : List TableBlock) (b b' : TableBlock) (behind behind' : List TableBlock),
        blocksOf (withBody leadingText "a" rousingBody trailingText) = head ++ b :: behind ∧
          blocksOf (withBody leadingText "a" [] trailingText) = head ++ b' :: behind' ∧
          b.span.1 = leadingText.length ∧ b'.span.1 = leadingText.length ∧ b'.name = b.name ∧
          behind'.map TableBlock.entity = behind.map TableBlock.entity) ∧
      lineRelationships (withBody leadingText "a" [] trailingText) =
        lineRelationships (withBody leadingText "a" rousingBody trailingText) := by
  have hname : IsName "a" := by decide +kernel
  have hbody : '\x7d' ∉ rousingBody := by decide +kernel
  have hempty : '\x7d' ∉ ([] : List Char) := List.not_mem_nil
  have hblock : ∃ b ∈ blocksOf (withBody leadingText "a" rousingBody trailingText),
      b.span.1 = leadingText.length := by decide +kernel
  exact ⟨hname, hbody, hempty, hblock, isolated hname hbody hempty hblock⟩

end Document

end SchemaDiagram
