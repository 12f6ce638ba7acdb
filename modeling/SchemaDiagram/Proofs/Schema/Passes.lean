/-
# The two passes, offset by offset

Both passes over a text go from keyword to keyword.  As long as the counter of the cursor is right,
the fragments that are found depend on the text and on the offset where the pass goes on, so the
passes are functions of these two.

* `tableAt`, `tableEnd` : the fragment at a table keyword, and where its reading ends;
* `tablesFrom`, `tablesFrom_of_some` : the table pass from an offset on, one fragment at a time;
* `referenceAt`, `referenceEnd`, `referencesFrom`, `referencesFrom_of_some` : the same for reference
  lines.

Main statements: `exists_tablesFrom_eq_map` and `exists_referencesFrom_eq_map` : the fragments that
a pass finds are those at some offsets where its keyword stands.
-/
import SchemaDiagram.Proofs.Schema.ActionCases
import SchemaDiagram.Proofs.Schema.ReferencePass
import SchemaDiagram.Proofs.Schema.Seam

namespace SchemaDiagram

open Text

variable {text : List Char} {k p q : Nat}

namespace Cursor

/-- A rest of what stands behind an offset starts there or later. -/
theorem offsetOf_bounds {rest : List Char} (hk : k ≤ text.length) (h : rest <:+ text.drop k) :
    k ≤ offsetOf text rest ∧ offsetOf text rest ≤ text.length := by
  have hlen := h.length_le
  rw [List.length_drop] at hlen
  unfold offsetOf
  omega

end Cursor

/-! ## The table pass -/

/-- The fragment at a table keyword. -/
def tableAt (text : List Char) (k : Nat) : TableFragment :=
  let read := readBlock (text.drop (k + tableKeyword.length))
  match read.1 with
  | .ok (name, body) =>
    let fields :=
      readBody (Cursor.lineAt text (Cursor.offsetOf text (body ++ '\x7d' :: read.2))) body
    .block ⟨String.ofList name, Cursor.lineAt text k, fields.map Prod.fst,
      (k, Cursor.offsetOf text read.2), fields.flatMap Prod.snd⟩
  | .error fault => .skipped ⟨Cursor.lineAt text k, .table fault⟩

/-- The offset where the reading of a fragment ends that begins at a table keyword. -/
def tableEnd (text : List Char) (k : Nat) : Nat :=
  Cursor.offsetOf text (readBlock (text.drop (k + tableKeyword.length))).2

/-- The fragments that the table pass finds from an offset on. -/
def tablesFrom (text : List Char) (p : Nat) : List TableFragment :=
  tableFragments (Cursor.startAt text p)

theorem scanTables_eq (text : List Char) : scanTables text = tablesFrom text 0 := rfl

theorem readBlock_suffix (s : List Char) : (readBlock s).2 <:+ s := by
  have hread := blockRead_readBlock s
  have hopening := opening_suffix s
  generalize (readBlock s).1 = read, (readBlock s).2 = rest at hread ⊢
  cases hread with
  | nameless h => rwa [h] at hopening
  | unopened h => rwa [h] at hopening
  | unclosed h =>
    rw [h] at hopening
    exact (List.suffix_cons _ _).trans hopening
  | @block name body rest h =>
    rw [h] at hopening
    exact (suffix_cons_append_cons _ _ body rest).trans hopening

/-- A fragment ends within the text, behind its keyword. -/
theorem tableEnd_bounds (h : k + tableKeyword.length ≤ text.length) :
    k + tableKeyword.length ≤ tableEnd text k ∧ tableEnd text k ≤ text.length :=
  Cursor.offsetOf_bounds h (readBlock_suffix _)

/-- Behind a keyword that is found, the pass goes on later. -/
theorem lt_tableEnd (h : Cursor.keywordFrom? tableKeyword text p = some k) : k < tableEnd text k :=
  Nat.lt_of_lt_of_le (Nat.lt_add_of_pos_right (by decide))
    (tableEnd_bounds (Cursor.keywordFrom?_bounds h).2).1

/-- A name and a body at a table keyword make a block. -/
theorem tableAt_of_ok {name body rest : List Char}
    (h : readBlock (text.drop (k + tableKeyword.length)) = (.ok (name, body), rest)) :
    tableAt text k = .block
      ⟨String.ofList name, Cursor.lineAt text k,
        (readBody (Cursor.lineAt text (Cursor.offsetOf text (body ++ '\x7d' :: rest))) body).map
          Prod.fst,
        (k, tableEnd text k),
        (readBody (Cursor.lineAt text (Cursor.offsetOf text (body ++ '\x7d' :: rest))) body).flatMap
          Prod.snd⟩ := by
  simp only [tableAt, tableEnd, h]

/-- A fault at a table keyword is noted on the line of the keyword. -/
theorem tableAt_of_error {fault : ParseFault} {rest : List Char}
    (h : readBlock (text.drop (k + tableKeyword.length)) = (.error fault, rest)) :
    tableAt text k = .skipped ⟨Cursor.lineAt text k, .table fault⟩ := by
  simp only [tableAt, h]

/-- A block at a keyword is made of a name and a body behind it. -/
theorem exists_of_tableAt {b : TableBlock} (h : tableAt text k = .block b) :
    ∃ name body rest, readBlock (text.drop (k + tableKeyword.length)) = (.ok (name, body), rest) ∧
      b = ⟨String.ofList name, Cursor.lineAt text k,
        (readBody (Cursor.lineAt text (Cursor.offsetOf text (body ++ '\x7d' :: rest))) body).map
          Prod.fst,
        (k, tableEnd text k),
        (readBody (Cursor.lineAt text (Cursor.offsetOf text (body ++ '\x7d' :: rest))) body).flatMap
          Prod.snd⟩ := by
  rcases hread : readBlock (text.drop (k + tableKeyword.length)) with ⟨fault | ⟨name, body⟩, rest⟩
  · rw [tableAt_of_error hread] at h
    cases h
  · rw [tableAt_of_ok hread] at h
    cases h
    exact ⟨name, body, rest, rfl, rfl⟩

/-- The span of a block is from its keyword to where its reading ends. -/
theorem span_of_tableAt {b : TableBlock} (h : tableAt text k = .block b) :
    b.span = (k, tableEnd text k) := by
  obtain ⟨name, body, rest, -, rfl⟩ := exists_of_tableAt h
  rfl

/-- The line of a block is that of its keyword. -/
theorem line_of_tableAt {b : TableBlock} (h : tableAt text k = .block b) :
    b.line = Cursor.lineAt text k := by
  obtain ⟨name, body, rest, -, rfl⟩ := exists_of_tableAt h
  rfl

/-- With a right counter, a fragment and its end are those at the keyword. -/
theorem tableFragment_spec {c : Cursor text}
    (hc : c.FollowedBy (text.drop (k + tableKeyword.length))) (hcounted : c.Counted) :
    ∃ c', tableFragment k (Cursor.lineAt text k) c = (tableAt text k, c') ∧
      c'.pos = tableEnd text k ∧ c'.Counted := by
  obtain ⟨c', hc', hcounted', hscan⟩ := scanBlock_spec hc hcounted
  refine ⟨c', ?_, hc'.pos_eq, hcounted'⟩
  have hend : c'.pos = tableEnd text k := hc'.pos_eq
  rcases hread : readBlock (text.drop (k + tableKeyword.length)) with ⟨fault | ⟨name, body⟩, rest⟩
  · rw [hread] at hscan
    rw [tableAt_of_error hread, tableFragment, hscan]
  · rw [hread] at hscan
    rw [tableAt_of_ok hread, tableFragment, hscan, ← hend]

/-- The step of the table pass, with a right counter. -/
theorem tableFragments_step {c : Cursor text} (hcounted : c.Counted)
    (h : Cursor.keywordFrom? tableKeyword text c.pos = some k) :
    ∃ c' : Cursor text, tableFragments c = tableAt text k :: tableFragments c' ∧
      c'.pos = tableEnd text k ∧ c'.Counted ∧ c'.remaining < c.remaining := by
  have hbounds := Cursor.keywordFrom?_bounds h
  have hfind : c.findKeyword tableKeyword = (some k, c.moveTo (k + tableKeyword.length)) := by
    rw [Cursor.findKeyword, h]
  let numbered := (c.moveTo (k + tableKeyword.length)).lineNumber k
  have hline : numbered.1 = Cursor.lineAt text k := (hcounted.moveTo _).lineNumber k
  have hnumbered : numbered.2.FollowedBy (text.drop (k + tableKeyword.length)) :=
    ⟨hbounds.2, rfl⟩
  obtain ⟨c', hfragment, hpos, hcounted'⟩ :=
    tableFragment_spec hnumbered ((hcounted.moveTo _).lineNumber_counted k)
  have hend := (tableEnd_bounds hbounds.2).1
  have hkeyword : tableKeyword.length = 5 := rfl
  refine ⟨c', ?_, hpos, hcounted', ?_⟩
  · rw [tableFragments_of_some hfind]
    show (tableFragment k numbered.1 numbered.2).1 ::
      tableFragments (tableFragment k numbered.1 numbered.2).2 = _
    rw [hline, hfragment]
  · unfold Cursor.remaining
    omega

/-- **The table pass** depends on the offset where it goes on only. -/
theorem tableFragments_eq_tablesFrom {c : Cursor text} (hcounted : c.Counted) :
    tableFragments c = tablesFrom text c.pos := by
  induction hn : c.remaining using Nat.strongRecOn generalizing c with
  | _ n ih =>
    subst hn
    have hstart : (Cursor.startAt text c.pos).Counted := Cursor.startAt_counted c.pos
    cases hfind : Cursor.keywordFrom? tableKeyword text c.pos with
    | none =>
      have hnone : ∀ d : Cursor text, d.pos = c.pos → tableFragments d = [] := by
        intro d hd
        have hdone : d.findKeyword tableKeyword = (none, d.moveTo text.length) := by
          rw [Cursor.findKeyword, hd, hfind]
        exact tableFragments_of_none hdone
      exact (hnone c rfl).trans (hnone (Cursor.startAt text c.pos) rfl).symm
    | some k =>
      obtain ⟨c', hc, hpos, hcounted', hlt⟩ := tableFragments_step hcounted hfind
      obtain ⟨d', hd, hpos', hcounted'', hlt'⟩ := tableFragments_step hstart hfind
      rw [hc, tablesFrom, hd, ih _ hlt hcounted' rfl, ih _ hlt' hcounted'' rfl, hpos, hpos']

theorem tablesFrom_of_none (h : Cursor.keywordFrom? tableKeyword text p = none) :
    tablesFrom text p = [] := by
  have hfrom : Cursor.keywordFrom? tableKeyword text (Cursor.startAt text p).pos = none := h
  have hdone : (Cursor.startAt text p).findKeyword tableKeyword =
      (none, (Cursor.startAt text p).moveTo text.length) := by
    rw [Cursor.findKeyword, hfrom]
  exact tableFragments_of_none hdone

/-- **The table pass** takes the fragment at the next keyword and goes on behind it. -/
theorem tablesFrom_of_some (h : Cursor.keywordFrom? tableKeyword text p = some k) :
    tablesFrom text p = tableAt text k :: tablesFrom text (tableEnd text k) := by
  obtain ⟨c', hc, hpos, hcounted, -⟩ := tableFragments_step (Cursor.startAt_counted p) h
  rw [tablesFrom, hc, tableFragments_eq_tablesFrom hcounted, hpos]

/-- Two offsets from which the next keyword is the same begin the same table pass. -/
theorem tablesFrom_congr
    (h : Cursor.keywordFrom? tableKeyword text p = Cursor.keywordFrom? tableKeyword text q) :
    tablesFrom text p = tablesFrom text q := by
  cases hfind : Cursor.keywordFrom? tableKeyword text p with
  | none => rw [tablesFrom_of_none hfind, tablesFrom_of_none (h.symm.trans hfind)]
  | some k => rw [tablesFrom_of_some hfind, tablesFrom_of_some (h.symm.trans hfind)]

/-- **The fragments of the table pass** are those at some offsets where the keyword stands, each of
them behind the fragments before it. -/
theorem exists_tablesFrom_eq_map (text : List Char) (p : Nat) :
    ∃ starts : List Nat, tablesFrom text p = starts.map (tableAt text) ∧
      (∀ k ∈ starts, p ≤ k ∧ Cursor.StandsAt tableKeyword text k) ∧
      starts.Pairwise fun j k => tableEnd text j ≤ k := by
  induction p using Cursor.keywordFrom?_induction tableKeyword text with
  | none p hfind =>
    rw [tablesFrom_of_none hfind]
    exact ⟨[], rfl, by simp, .nil⟩
  | some p first hfind ih =>
    obtain ⟨hle, hstands, -⟩ :=
      (Cursor.keywordFrom?_eq_some_iff (by decide) (by decide)).1 hfind
    have hend := lt_tableEnd hfind
    obtain ⟨starts, hstarts, hlater, hpairwise⟩ := ih _ hend
    rw [tablesFrom_of_some hfind, hstarts]
    refine ⟨first :: starts, rfl, List.forall_mem_cons.2 ⟨⟨hle, hstands⟩, ?_⟩,
      List.pairwise_cons.2 ⟨fun k hk => (hlater k hk).1, hpairwise⟩⟩
    intro k hk
    obtain ⟨hk', hstands'⟩ := hlater k hk
    exact ⟨by omega, hstands'⟩

/-- Table keywords behind the ends of the fragments before them are at later offsets. -/
theorem pairwise_lt_of_tableEnd {starts : List Nat}
    (hstands : ∀ k ∈ starts, Cursor.StandsAt tableKeyword text k)
    (h : starts.Pairwise fun j k => tableEnd text j ≤ k) : starts.Pairwise (· < ·) := by
  refine h.imp_of_mem fun hj _ hjk => ?_
  have hkeyword : tableKeyword.length = 5 := rfl
  have hend := (tableEnd_bounds (hstands _ hj).length_le).1
  omega

/-- Every fragment of the table pass begins where a table keyword stands. -/
theorem exists_of_mem_tablesFrom {f : TableFragment} (h : f ∈ tablesFrom text p) :
    ∃ k, p ≤ k ∧ Cursor.StandsAt tableKeyword text k ∧ f = tableAt text k := by
  obtain ⟨starts, hstarts, hlater, -⟩ := exists_tablesFrom_eq_map text p
  rw [hstarts] at h
  obtain ⟨k, hk, rfl⟩ := List.mem_map.1 h
  obtain ⟨hle, hstands⟩ := hlater k hk
  exact ⟨k, hle, hstands, rfl⟩

/-! ## The reference pass -/

/-- The fragment at a reference keyword. -/
def referenceAt (text : List Char) (k : Nat) : ReferenceFragment :=
  match (readReference (text.drop (k + referenceKeyword.length))).1 with
  | .ok expression =>
    match Relationship.ofExpression expression with
    | .ok r => .relationship r
    | .error fault => .skipped ⟨Cursor.lineAt text k, .reference fault⟩
  | .error fault => .skipped ⟨Cursor.lineAt text k, .reference fault⟩

/-- The offset where the reading of a fragment ends that begins at a reference keyword. -/
def referenceEnd (text : List Char) (k : Nat) : Nat :=
  Cursor.offsetOf text (readReference (text.drop (k + referenceKeyword.length))).2

/-- The fragments that the reference pass finds from an offset on. -/
def referencesFrom (spans : List (Nat × Nat)) (text : List Char) (p : Nat) :
    List ReferenceFragment := referenceFragments spans (Cursor.startAt text p)

theorem scanReferences_eq (text : List Char) (spans : List (Nat × Nat)) :
    scanReferences text spans = referencesFrom spans text 0 := rfl

theorem readReference_suffix (s : List Char) : (readReference s).2 <:+ s := by
  have hopening := opening_suffix s
  rcases hs : opening s with ⟨name, rest⟩
  rw [hs] at hopening
  by_cases hcolon : rest.head? = some ':'
  · obtain ⟨line, rfl⟩ := List.head?_eq_some_iff.1 hcolon
    rw [readReference_of_colon hs]
    exact ((List.dropWhile_suffix _).trans (List.suffix_cons _ _)).trans hopening
  · rw [readReference_of_no_colon hs hcolon]
    exact hopening

/-- A fragment ends within the text, behind its keyword. -/
theorem referenceEnd_bounds (h : k + referenceKeyword.length ≤ text.length) :
    k + referenceKeyword.length ≤ referenceEnd text k ∧ referenceEnd text k ≤ text.length :=
  Cursor.offsetOf_bounds h (readReference_suffix _)

/-- Behind a keyword that is found, the pass goes on later. -/
theorem lt_referenceEnd (h : Cursor.keywordFrom? referenceKeyword text p = some k) :
    k < referenceEnd text k :=
  Nat.lt_of_lt_of_le (Nat.lt_add_of_pos_right (by decide))
    (referenceEnd_bounds (Cursor.keywordFrom?_bounds h).2).1

/-- A reference keyword is passed over where it does not open its line or lies in a span. -/
def PassedOver (spans : List (Nat × Nat)) (text : List Char) (k : Nat) : Prop :=
  Cursor.atLineStart text k = false ∨ insideAny spans k = true

instance (spans : List (Nat × Nat)) (text : List Char) (k : Nat) :
    Decidable (PassedOver spans text k) :=
  inferInstanceAs (Decidable (Cursor.atLineStart text k = false ∨ insideAny spans k = true))

section

variable {spans : List (Nat × Nat)}

/-- With a right counter, a fragment and its end are those at the keyword. -/
theorem referenceFragment_spec {c : Cursor text}
    (hc : c.FollowedBy (text.drop (k + referenceKeyword.length))) (hcounted : c.Counted) :
    ∃ c', referenceFragment (Cursor.lineAt text k) c = (referenceAt text k, c') ∧
      c'.pos = referenceEnd text k ∧ c'.Counted := by
  obtain ⟨c', hc', hcounted', hscan⟩ := scanReferenceLine_spec hc hcounted
  refine ⟨c', ?_, hc'.pos_eq, hcounted'⟩
  unfold referenceFragment referenceAt
  rcases hread : (readReference (text.drop (k + referenceKeyword.length))).1 with fault | line
  · rw [hread] at hscan
    rw [hscan]
  · rw [hread] at hscan
    rw [hscan]
    cases hsaid : Relationship.ofExpression line with
    | ok r => simp only [hsaid]
    | error fault => simp only [hsaid]

/-- The step of the reference pass, with a right counter. -/
theorem referenceFragments_step (spans : List (Nat × Nat)) {c : Cursor text} (hcounted : c.Counted)
    (h : Cursor.keywordFrom? referenceKeyword text c.pos = some k) :
    ∃ c' : Cursor text, c'.Counted ∧ c'.remaining < c.remaining ∧
      if PassedOver spans text k then
        referenceFragments spans c = referenceFragments spans c' ∧
          c'.pos = k + referenceKeyword.length
      else
        referenceFragments spans c = referenceAt text k :: referenceFragments spans c' ∧
          c'.pos = referenceEnd text k := by
  have hbounds := Cursor.keywordFrom?_bounds h
  have hfind : c.findKeyword referenceKeyword =
      (some k, c.moveTo (k + referenceKeyword.length)) := by
    rw [Cursor.findKeyword, h]
  have hkeyword : referenceKeyword.length = 3 := rfl
  by_cases hpassed : PassedOver spans text k
  · refine ⟨c.moveTo (k + referenceKeyword.length), hcounted.moveTo _, ?_, ?_⟩
    · unfold Cursor.remaining Cursor.moveTo
      dsimp only
      omega
    · rw [if_pos hpassed]
      exact ⟨referenceFragments_of_passed hfind hpassed, rfl⟩
  · obtain ⟨hline, houtside⟩ := not_or.1 hpassed
    rw [Bool.not_eq_false] at hline
    rw [Bool.not_eq_true] at houtside
    let numbered := (c.moveTo (k + referenceKeyword.length)).lineNumber k
    have hnumber : numbered.1 = Cursor.lineAt text k := (hcounted.moveTo _).lineNumber k
    have hnumbered : numbered.2.FollowedBy (text.drop (k + referenceKeyword.length)) :=
      ⟨hbounds.2, rfl⟩
    obtain ⟨c', hfragment, hpos, hcounted'⟩ :=
      referenceFragment_spec hnumbered ((hcounted.moveTo _).lineNumber_counted k)
    have hend := (referenceEnd_bounds hbounds.2).1
    refine ⟨c', hcounted', ?_, ?_⟩
    · unfold Cursor.remaining
      omega
    · rw [if_neg hpassed]
      refine ⟨?_, hpos⟩
      rw [referenceFragments_of_some hfind hline houtside]
      show (referenceFragment numbered.1 numbered.2).1 ::
        referenceFragments spans (referenceFragment numbered.1 numbered.2).2 = _
      rw [hnumber, hfragment]

/-- **The reference pass** depends on the offset where it goes on only. -/
theorem referenceFragments_eq_referencesFrom {c : Cursor text} (hcounted : c.Counted) :
    referenceFragments spans c = referencesFrom spans text c.pos := by
  induction hn : c.remaining using Nat.strongRecOn generalizing c with
  | _ n ih =>
    subst hn
    have hstart : (Cursor.startAt text c.pos).Counted := Cursor.startAt_counted c.pos
    cases hfind : Cursor.keywordFrom? referenceKeyword text c.pos with
    | none =>
      have hnone : ∀ d : Cursor text, d.pos = c.pos → referenceFragments spans d = [] := by
        intro d hd
        have hdone : d.findKeyword referenceKeyword = (none, d.moveTo text.length) := by
          rw [Cursor.findKeyword, hd, hfind]
        exact referenceFragments_of_none hdone
      exact (hnone c rfl).trans (hnone (Cursor.startAt text c.pos) rfl).symm
    | some k =>
      obtain ⟨c', hcounted', hlt, hc⟩ := referenceFragments_step spans hcounted hfind
      obtain ⟨d', hcounted'', hlt', hd⟩ := referenceFragments_step spans hstart hfind
      rw [referencesFrom]
      by_cases hpassed : PassedOver spans text k
      · rw [if_pos hpassed] at hc hd
        rw [hc.1, hd.1, ih _ hlt hcounted' rfl, ih _ hlt' hcounted'' rfl, hc.2, hd.2]
      · rw [if_neg hpassed] at hc hd
        rw [hc.1, hd.1, ih _ hlt hcounted' rfl, ih _ hlt' hcounted'' rfl, hc.2, hd.2]

theorem referencesFrom_of_none (h : Cursor.keywordFrom? referenceKeyword text p = none) :
    referencesFrom spans text p = [] := by
  have hfrom : Cursor.keywordFrom? referenceKeyword text (Cursor.startAt text p).pos = none := h
  have hdone : (Cursor.startAt text p).findKeyword referenceKeyword =
      (none, (Cursor.startAt text p).moveTo text.length) := by
    rw [Cursor.findKeyword, hfrom]
  exact referenceFragments_of_none hdone

/-- **The reference pass** passes over a keyword that opens no line or lies in a span. -/
theorem referencesFrom_of_passedOver
    (h : Cursor.keywordFrom? referenceKeyword text p = some k) (hpassed : PassedOver spans text k) :
    referencesFrom spans text p = referencesFrom spans text (k + referenceKeyword.length) := by
  obtain ⟨c', hcounted, -, hc⟩ := referenceFragments_step spans (Cursor.startAt_counted p) h
  rw [if_pos hpassed] at hc
  rw [referencesFrom, hc.1, referenceFragments_eq_referencesFrom hcounted, hc.2]

/-- **The reference pass** takes the fragment at any other keyword and goes on behind it. -/
theorem referencesFrom_of_some (h : Cursor.keywordFrom? referenceKeyword text p = some k)
    (hpassed : ¬ PassedOver spans text k) :
    referencesFrom spans text p =
      referenceAt text k :: referencesFrom spans text (referenceEnd text k) := by
  obtain ⟨c', hcounted, -, hc⟩ := referenceFragments_step spans (Cursor.startAt_counted p) h
  rw [if_neg hpassed] at hc
  rw [referencesFrom, hc.1, referenceFragments_eq_referencesFrom hcounted, hc.2]

/-- **The fragments of the reference pass** are those at some offsets where the keyword stands and
is not passed over, each of them behind the fragments before it. -/
theorem exists_referencesFrom_eq_map (spans : List (Nat × Nat)) (text : List Char) (p : Nat) :
    ∃ starts : List Nat, referencesFrom spans text p = starts.map (referenceAt text) ∧
      (∀ k ∈ starts, p ≤ k ∧ Cursor.StandsAt referenceKeyword text k ∧
        ¬ PassedOver spans text k) ∧
      starts.Pairwise fun j k => referenceEnd text j ≤ k := by
  induction p using Cursor.keywordFrom?_induction referenceKeyword text with
  | none p hfind =>
    rw [referencesFrom_of_none hfind]
    exact ⟨[], rfl, by simp, .nil⟩
  | some p first hfind ih =>
    obtain ⟨hle, hstands, -⟩ :=
      (Cursor.keywordFrom?_eq_some_iff (by decide) (by decide)).1 hfind
    by_cases hpassed : PassedOver spans text first
    · obtain ⟨starts, hstarts, hlater, hpairwise⟩ :=
        ih (first + referenceKeyword.length) (Nat.lt_add_of_pos_right (by decide))
      rw [referencesFrom_of_passedOver hfind hpassed]
      refine ⟨starts, hstarts, fun k hk => ⟨?_, (hlater k hk).2⟩, hpairwise⟩
      have hk' := (hlater k hk).1
      omega
    · have hend := lt_referenceEnd hfind
      obtain ⟨starts, hstarts, hlater, hpairwise⟩ := ih _ hend
      rw [referencesFrom_of_some hfind hpassed, hstarts]
      refine ⟨first :: starts, rfl, List.forall_mem_cons.2 ⟨⟨hle, hstands, hpassed⟩, ?_⟩,
        List.pairwise_cons.2 ⟨fun k hk => (hlater k hk).1, hpairwise⟩⟩
      intro k hk
      obtain ⟨hk', hstands'⟩ := hlater k hk
      exact ⟨by omega, hstands'⟩

/-- Reference keywords behind the ends of the fragments before them are at later offsets. -/
theorem pairwise_lt_of_referenceEnd {starts : List Nat}
    (hstands : ∀ k ∈ starts, Cursor.StandsAt referenceKeyword text k)
    (h : starts.Pairwise fun j k => referenceEnd text j ≤ k) : starts.Pairwise (· < ·) := by
  refine h.imp_of_mem fun hj _ hjk => ?_
  have hkeyword : referenceKeyword.length = 3 := rfl
  have hend := (referenceEnd_bounds (hstands _ hj).length_le).1
  omega

/-- Two offsets from which the next keyword is the same begin the same reference pass. -/
theorem referencesFrom_congr (h : Cursor.keywordFrom? referenceKeyword text p =
    Cursor.keywordFrom? referenceKeyword text q) :
    referencesFrom spans text p = referencesFrom spans text q := by
  cases hfind : Cursor.keywordFrom? referenceKeyword text p with
  | none => rw [referencesFrom_of_none hfind, referencesFrom_of_none (h.symm.trans hfind)]
  | some k =>
    by_cases hpassed : PassedOver spans text k
    · rw [referencesFrom_of_passedOver hfind hpassed,
        referencesFrom_of_passedOver (h.symm.trans hfind) hpassed]
    · rw [referencesFrom_of_some hfind hpassed, referencesFrom_of_some (h.symm.trans hfind) hpassed]

/-- **The reference pass** goes on behind a part in which it passes over all keywords. -/
theorem referencesFrom_skip (hpq : p ≤ q)
    (h : ∀ k, p ≤ k → k < q → Cursor.StandsAt referenceKeyword text k →
      PassedOver spans text k ∧ k + referenceKeyword.length ≤ q) :
    referencesFrom spans text p = referencesFrom spans text q := by
  induction hn : q - p using Nat.strongRecOn generalizing p with
  | _ n ih =>
    subst hn
    by_cases hown : ∃ k ∈ Cursor.keywordFrom? referenceKeyword text p, k < q
    · obtain ⟨k, hk, hlt⟩ := hown
      obtain ⟨hle, hstands, -⟩ :=
        (Cursor.keywordFrom?_eq_some_iff (by decide) (by decide)).1 hk
      obtain ⟨hpassed, hend⟩ := h k hle hlt hstands
      have hkeyword : referenceKeyword.length = 3 := rfl
      rw [referencesFrom_of_passedOver hk hpassed]
      exact ih _ (by omega) hend (fun j hj => h j (by omega)) rfl
    · refine referencesFrom_congr (Cursor.keywordFrom?_congr (by decide) (by decide) hpq ?_)
      intro k hk
      exact Nat.le_of_not_lt fun hlt => hown ⟨k, hk, hlt⟩

end

end SchemaDiagram
