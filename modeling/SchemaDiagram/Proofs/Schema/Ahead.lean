/-
# A text in front of another one

As long as the end of a text cuts nothing off, both passes find in it what they find when another
text follows, and then they go on in that one.

* `tablesFrom_append_of_some`, `tablesFrom_append_of_none` : the steps of the table pass;
* `tablesFrom_append_left`, `referencesFrom_append_left` : the two passes over a text in which
  nothing is skipped.
-/
import SchemaDiagram.Proofs.Schema.Passes

namespace SchemaDiagram

open Text

variable {s r : List Char} {k p : Nat}

theorem Cursor.offsetOf_append_left (s r rest : List Char) :
    Cursor.offsetOf (s ++ r) (rest ++ r) = Cursor.offsetOf s rest := by
  unfold Cursor.offsetOf
  rw [List.length_append, List.length_append, Nat.add_sub_add_right]

/-! ## The table pass -/

/-- A fragment ends in front of another text where it ends in its text alone. -/
theorem tableEnd_append_left (hk : k + tableKeyword.length ≤ s.length)
    (hcut : ¬ BlockCutOff (s.drop (k + tableKeyword.length))) :
    tableEnd (s ++ r) k = tableEnd s k := by
  rw [tableEnd, List.drop_append_of_le_length hk, readBlock_append hcut,
    Cursor.offsetOf_append_left]
  rfl

/-- A table keyword begins in front of another text the fragment that it begins in its text
alone. -/
theorem tableAt_append_left (hk : k + tableKeyword.length ≤ s.length)
    (hcut : ¬ BlockCutOff (s.drop (k + tableKeyword.length))) :
    tableAt (s ++ r) k = tableAt s k := by
  have hline : Cursor.lineAt (s ++ r) k = Cursor.lineAt s k :=
    Cursor.lineAt_append_left (by omega)
  have hread := readBlock_append hcut r
  rw [← List.drop_append_of_le_length hk] at hread
  rcases heq : readBlock (s.drop (k + tableKeyword.length)) with ⟨fault | ⟨name, body⟩, rest⟩
  · rw [heq] at hread
    rw [tableAt_of_error hread, tableAt_of_error heq, hline]
  · rw [heq] at hread
    -- the body starts on the same line, which is in the first text
    have hbody : Cursor.lineAt (s ++ r) (Cursor.offsetOf (s ++ r) (body ++ '\x7d' :: (rest ++ r))) =
        Cursor.lineAt s (Cursor.offsetOf s (body ++ '\x7d' :: rest)) := by
      rw [← List.cons_append, ← List.append_assoc, Cursor.offsetOf_append_left]
      exact Cursor.lineAt_append_left (Nat.sub_le _ _)
    rw [tableAt_of_ok hread, tableAt_of_ok heq, hline, hbody, tableEnd_append_left hk hcut]

/-- The table pass takes a fragment that is not cut off as it does in its text alone. -/
theorem tablesFrom_append_of_some (hr : ∀ c ∈ r.head?, isNameChar c = false)
    (hfind : Cursor.keywordFrom? tableKeyword s p = some k)
    (hcut : ¬ BlockCutOff (s.drop (k + tableKeyword.length))) :
    tablesFrom (s ++ r) p = tableAt s k :: tablesFrom (s ++ r) (tableEnd s k) := by
  have hk := (Cursor.keywordFrom?_bounds hfind).2
  have hfind' := Cursor.keywordFrom?_append_of_some (by decide) (by decide) hr hfind
  rw [tablesFrom_of_some hfind', tableAt_append_left hk hcut, tableEnd_append_left hk hcut]

/-- Where no table keyword is left in a text, the pass goes on in the next one. -/
theorem tablesFrom_append_of_none (hr : ∀ c ∈ r.head?, isNameChar c = false) (hp : p ≤ s.length)
    (hfind : Cursor.keywordFrom? tableKeyword s p = none) :
    tablesFrom (s ++ r) p = tablesFrom (s ++ r) s.length :=
  tablesFrom_congr (Cursor.keywordFrom?_append_of_none (by decide) (by decide) hr hp hfind)

theorem not_blockCutOff_of_tableAt {b : TableBlock} (h : tableAt s k = .block b) :
    ¬ BlockCutOff (s.drop (k + tableKeyword.length)) := by
  have hread := blockRead_readBlock (s.drop (k + tableKeyword.length))
  rcases heq : readBlock (s.drop (k + tableKeyword.length)) with ⟨fault | ⟨name, body⟩, rest⟩
  · rw [tableAt_of_error heq] at h
    cases h
  · unfold BlockCutOff
    rw [heq] at hread ⊢
    have hread : BlockRead _ (.ok (name, body)) rest := hread
    cases hread with
    | block hopening =>
      rw [hopening]
      simp

/-- **The table pass** finds in a text what it finds when another one follows, if all fragments
that it finds are blocks. -/
theorem tablesFrom_append_left (hr : ∀ c ∈ r.head?, isNameChar c = false) (hp : p ≤ s.length)
    (h : ∀ f ∈ tablesFrom s p, ∃ b, f = .block b) :
    tablesFrom (s ++ r) p = tablesFrom s p ++ tablesFrom (s ++ r) s.length := by
  induction p using Cursor.keywordFrom?_induction tableKeyword s with
  | none p hfind =>
    rw [tablesFrom_of_none hfind, tablesFrom_append_of_none hr hp hfind]
    rfl
  | some p k hfind ih =>
    have hend := (tableEnd_bounds (Cursor.keywordFrom?_bounds hfind).2).2
    rw [tablesFrom_of_some hfind] at h ⊢
    obtain ⟨b, hb⟩ := h _ List.mem_cons_self
    rw [tablesFrom_append_of_some hr hfind (not_blockCutOff_of_tableAt hb), List.cons_append,
      ih _ (lt_tableEnd hfind) hend fun f hf => h f (List.mem_cons_of_mem _ hf)]

/-! ## The reference pass -/

/-- A fragment ends on its line where it ends in its text alone. -/
theorem referenceEnd_append_left (hk : k + referenceKeyword.length ≤ s.length)
    (hcut : (opening (s.drop (k + referenceKeyword.length))).2 ≠ []) :
    referenceEnd (s ++ '\n' :: r) k = referenceEnd s k := by
  rw [referenceEnd, List.drop_append_of_le_length hk, readReference_append hcut,
    Cursor.offsetOf_append_left]
  rfl

/-- A reference keyword begins in front of another line the fragment that it begins in its text
alone. -/
theorem referenceAt_append_left (hk : k + referenceKeyword.length ≤ s.length)
    (hcut : (opening (s.drop (k + referenceKeyword.length))).2 ≠ []) :
    referenceAt (s ++ '\n' :: r) k = referenceAt s k := by
  have hline : Cursor.lineAt (s ++ '\n' :: r) k = Cursor.lineAt s k :=
    Cursor.lineAt_append_left (by omega)
  unfold referenceAt
  rw [List.drop_append_of_le_length hk, readReference_append hcut, hline]

/-- Spans that start later do not hold an offset. -/
theorem insideAny_append_left {spans later : List (Nat × Nat)}
    (hlater : ∀ span ∈ later, k < span.1) : insideAny (spans ++ later) k = insideAny spans k := by
  have hnone : insideAny later k = false :=
    insideAny_eq_false fun span hspan => Or.inr (hlater span hspan)
  unfold insideAny at hnone ⊢
  rw [List.any_append, hnone, Bool.or_false]

theorem opening_ne_nil_of_referenceAt {e : Relationship} (h : referenceAt s k = .relationship e) :
    (opening (s.drop (k + referenceKeyword.length))).2 ≠ [] := by
  intro hnil
  have hread := readReference_of_no_colon (Prod.ext rfl hnil :
    opening (s.drop (k + referenceKeyword.length)) = (_, [])) nofun
  unfold referenceAt at h
  rw [hread] at h
  cases h

/-- **The reference pass** finds in a text what it finds when another line follows, if all
fragments that it finds are relationships and later spans start behind the text. -/
theorem referencesFrom_append_left {spans later : List (Nat × Nat)} (hp : p ≤ s.length)
    (hlater : ∀ span ∈ later, s.length ≤ span.1)
    (h : ∀ f ∈ referencesFrom spans s p, ∃ e, f = .relationship e) :
    referencesFrom (spans ++ later) (s ++ '\n' :: r) p =
      referencesFrom spans s p ++ referencesFrom (spans ++ later) (s ++ '\n' :: r) s.length := by
  have hr := head?_not_nameChar (x := '\n') (by decide) r
  induction p using Cursor.keywordFrom?_induction referenceKeyword s with
  | none p hfind =>
    rw [referencesFrom_of_none hfind, List.nil_append]
    exact referencesFrom_congr
      (Cursor.keywordFrom?_append_of_none (by decide) (by decide) hr hp hfind)
  | some p k hfind ih =>
    have hbounds := Cursor.keywordFrom?_bounds hfind
    have hend := (referenceEnd_bounds hbounds.2).2
    have hkeyword : referenceKeyword.length = 3 := rfl
    have hfind' := Cursor.keywordFrom?_append_of_some (by decide) (by decide) hr hfind
    have hsame : PassedOver (spans ++ later) (s ++ '\n' :: r) k ↔ PassedOver spans s k := by
      have hbehind : ∀ span ∈ later, k < span.1 := by
        intro span hspan
        have hle := hlater span hspan
        omega
      unfold PassedOver
      rw [Cursor.atLineStart_append_left (by omega), insideAny_append_left hbehind]
    by_cases hover : PassedOver spans s k
    · rw [referencesFrom_of_passedOver hfind hover] at h ⊢
      rw [referencesFrom_of_passedOver hfind' (hsame.2 hover), ih _ (by omega) hbounds.2 h]
    · rw [referencesFrom_of_some hfind hover] at h ⊢
      obtain ⟨e, he⟩ := h _ List.mem_cons_self
      have hcut := opening_ne_nil_of_referenceAt he
      rw [referencesFrom_of_some hfind' (mt hsame.1 hover),
        referenceAt_append_left hbounds.2 hcut, referenceEnd_append_left hbounds.2 hcut,
        List.cons_append,
        ih _ (lt_referenceEnd hfind) hend fun f hf => h f (List.mem_cons_of_mem _ hf)]

end SchemaDiagram
