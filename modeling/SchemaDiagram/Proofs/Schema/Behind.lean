/-
# A text behind another one

From an offset on from which a text is read as if it stood alone, both passes find in it behind
another text what they find in it alone: the same fragments, at later offsets and on later lines.

* `Issue.below`, `TableFragment.below`, `ReferenceFragment.below` : the same at a later place;
* `readBody_below` : the body of a table that starts on a later line;
* `tablesFrom_append_right`, `referencesFrom_append_right` : the two passes.
-/
import SchemaDiagram.Proofs.Schema.Passes

namespace SchemaDiagram

open Text

/-! ## Later places -/

/-- The same issue some lines below. -/
def Issue.below (lines : Nat) (i : Issue) : Issue := { i with line := i.line + lines }

/-- The same block some characters and lines below. -/
def TableBlock.below (chars lines : Nat) (b : TableBlock) : TableBlock :=
  { b with
    line := b.line + lines
    span := (chars + b.span.1, chars + b.span.2)
    issues := b.issues.map (Issue.below lines) }

/-- The same fragment some characters and lines below. -/
def TableFragment.below (chars lines : Nat) : TableFragment → TableFragment
  | .block b => .block (b.below chars lines)
  | .skipped issue => .skipped (issue.below lines)

/-- The same fragment some lines below. -/
def ReferenceFragment.below (lines : Nat) : ReferenceFragment → ReferenceFragment
  | .relationship r => .relationship r
  | .skipped issue => .skipped (issue.below lines)

theorem TableFragment.block?_below (chars lines : Nat) (f : TableFragment) :
    (f.below chars lines).block? = f.block?.map (TableBlock.below chars lines) := by
  cases f <;> rfl

theorem ReferenceFragment.relationship?_below (lines : Nat) (f : ReferenceFragment) :
    (f.below lines).relationship? = f.relationship? := by
  cases f <;> rfl

theorem ReferenceFragment.issue?_below (lines : Nat) (f : ReferenceFragment) :
    (f.below lines).issue? = f.issue?.map (Issue.below lines) := by
  cases f <;> rfl

/-! ## Bodies -/

/-- A field does not depend on the number of its line, and its issues are on this line. -/
theorem Field.ofLine?_below (line lines : Nat) (text : List Char) :
    Field.ofLine? (line + lines) text =
      (Field.ofLine? line text).map fun read => (read.1, read.2.map (Issue.below lines)) := by
  unfold Field.ofLine?
  cases words text with
  | nil => rfl
  | cons name rest => simp [Field.ofWords, Issue.below, Function.comp_def]

/-- **The fields of a body** are the same when it starts some lines below. -/
theorem readBody_below (line lines : Nat) (body : List Char) :
    readBody (line + lines) body =
      (readBody line body).map fun read => (read.1, read.2.map (Issue.below lines)) := by
  unfold readBody
  induction body.splitOn '\n' generalizing line with
  | nil => rfl
  | cons text rest ih =>
    have hnext : line + lines + 1 = line + 1 + lines := by omega
    rw [List.zipIdx_cons, List.zipIdx_cons, List.filterMap_cons, List.filterMap_cons, hnext, ih]
    dsimp only
    rw [Field.ofLine?_below]
    cases Field.ofLine? line text <;> rfl

/-! ## Fragments -/

variable {s r : List Char} {k p : Nat}

theorem Cursor.offsetOf_append_right {rest : List Char} (h : rest.length ≤ r.length) :
    Cursor.offsetOf (s ++ r) rest = s.length + Cursor.offsetOf r rest := by
  unfold Cursor.offsetOf
  rw [List.length_append]
  omega

theorem drop_append_right (s r : List Char) (k n : Nat) :
    (s ++ r).drop (s.length + k + n) = r.drop (k + n) := by
  rw [Nat.add_assoc, List.drop_length_add_append]

theorem tableEnd_append_right :
    tableEnd (s ++ r) (s.length + k) = s.length + tableEnd r k := by
  have hlen := (readBlock_suffix (r.drop (k + tableKeyword.length))).length_le
  rw [List.length_drop] at hlen
  rw [tableEnd, drop_append_right, Cursor.offsetOf_append_right (by omega)]
  rfl

/-- A table keyword behind another text begins the fragment that it begins alone. -/
theorem tableAt_append_right :
    tableAt (s ++ r) (s.length + k) = (tableAt r k).below s.length (s.count '\n') := by
  have hline := Cursor.lineAt_append_right s r k
  have hdrop := drop_append_right s r k tableKeyword.length
  have hread := blockRead_readBlock (r.drop (k + tableKeyword.length))
  have hsuffix := opening_suffix (r.drop (k + tableKeyword.length))
  rcases heq : readBlock (r.drop (k + tableKeyword.length)) with ⟨fault | ⟨name, body⟩, rest⟩
  · rw [tableAt_of_error heq, tableAt_of_error (hdrop ▸ heq), hline]
    rfl
  · rw [tableAt_of_ok heq, tableAt_of_ok (hdrop ▸ heq), hline]
    have hbody : (body ++ '\x7d' :: rest).length ≤ r.length := by
      rw [heq] at hread
      have hread : BlockRead _ (.ok (name, body)) rest := hread
      cases hread with
      | block hopening =>
        have hlen : ('\x7b' :: (body ++ '\x7d' :: rest)).length ≤
            (r.drop (k + tableKeyword.length)).length := (hopening ▸ hsuffix).length_le
        rw [List.length_cons, List.length_drop] at hlen
        omega
    rw [Cursor.offsetOf_append_right hbody, Cursor.lineAt_append_right, readBody_below,
      tableEnd_append_right]
    simp [TableFragment.below, TableBlock.below, List.flatMap_map, Function.comp_def,
      List.map_flatMap]

/-- **The table pass** finds behind another text what it finds in a text alone. -/
theorem tablesFrom_append_right (h : FreshFrom s r p) :
    tablesFrom (s ++ r) (s.length + p) =
      (tablesFrom r p).map (TableFragment.below s.length (s.count '\n')) := by
  have hshift : ∀ p, FreshFrom s r p → Cursor.keywordFrom? tableKeyword (s ++ r) (s.length + p) =
      (Cursor.keywordFrom? tableKeyword r p).map (s.length + ·) := fun p h =>
    Cursor.keywordFrom?_append_right (by decide) (by decide) h.not_nameChar
  induction p using Cursor.keywordFrom?_induction tableKeyword r with
  | none p hfound =>
    have hfind := hshift p h
    rw [hfound] at hfind
    rw [tablesFrom_of_none hfound, tablesFrom_of_none hfind]
    rfl
  | some p k hfound ih =>
    have hfind := hshift p h
    rw [hfound] at hfind
    have hle := (Cursor.keywordFrom?_bounds hfound).1
    have hend := lt_tableEnd hfound
    rw [tablesFrom_of_some hfound, tablesFrom_of_some hfind, List.map_cons,
      tableAt_append_right, tableEnd_append_right, ih _ hend (h.mono (by omega))]

theorem referenceEnd_append_right :
    referenceEnd (s ++ r) (s.length + k) = s.length + referenceEnd r k := by
  have hlen := (readReference_suffix (r.drop (k + referenceKeyword.length))).length_le
  rw [List.length_drop] at hlen
  rw [referenceEnd, drop_append_right, Cursor.offsetOf_append_right (by omega)]
  rfl

/-- A reference keyword behind another text begins the fragment that it begins alone. -/
theorem referenceAt_append_right :
    referenceAt (s ++ r) (s.length + k) = (referenceAt r k).below (s.count '\n') := by
  unfold referenceAt
  rw [drop_append_right, Cursor.lineAt_append_right]
  rcases (readReference (r.drop (k + referenceKeyword.length))).1 with fault | expression
  · rfl
  · dsimp only
    cases Relationship.ofExpression expression <;> rfl

/-- Behind another text the spans of a text are later, and those that are passed lie before. -/
theorem insideAny_append_right {passed spans : List (Nat × Nat)}
    (hpassed : ∀ span ∈ passed, span.2 ≤ s.length + k) :
    insideAny (passed ++ spans.map fun span => (s.length + span.1, s.length + span.2))
      (s.length + k) = insideAny spans k := by
  have hnone : insideAny passed (s.length + k) = false := by
    exact insideAny_eq_false fun span hspan => Or.inl (hpassed span hspan)
  unfold insideAny at hnone ⊢
  rw [List.any_append, hnone, Bool.false_or, List.any_map]
  congr 1
  funext span
  simp

/-- **The reference pass** finds behind another text what it finds in a text alone. -/
theorem referencesFrom_append_right {passed spans : List (Nat × Nat)} (h : FreshFrom s r p)
    (hpassed : ∀ span ∈ passed, span.2 ≤ s.length + p) :
    referencesFrom (passed ++ spans.map fun span => (s.length + span.1, s.length + span.2))
        (s ++ r) (s.length + p) =
      (referencesFrom spans r p).map (ReferenceFragment.below (s.count '\n')) := by
  have hshift : ∀ p, FreshFrom s r p →
      Cursor.keywordFrom? referenceKeyword (s ++ r) (s.length + p) =
        (Cursor.keywordFrom? referenceKeyword r p).map (s.length + ·) := fun p h =>
    Cursor.keywordFrom?_append_right (by decide) (by decide) h.not_nameChar
  induction p using Cursor.keywordFrom?_induction referenceKeyword r with
  | none p hfound =>
    have hfind := hshift p h
    rw [hfound] at hfind
    rw [referencesFrom_of_none hfound, referencesFrom_of_none hfind]
    rfl
  | some p k hfound ih =>
    have hfind := hshift p h
    rw [hfound] at hfind
    have hbounds := Cursor.keywordFrom?_bounds hfound
    have hkeyword : referenceKeyword.length = 3 := rfl
    have hbefore : ∀ q, p ≤ q → ∀ span ∈ passed, span.2 ≤ s.length + q := by
      intro q hq span hspan
      have hle := hpassed span hspan
      omega
    have hsame : PassedOver (passed ++ spans.map fun span =>
          (s.length + span.1, s.length + span.2)) (s ++ r) (s.length + k) ↔
        PassedOver spans r k := by
      unfold PassedOver
      rw [h.atLineStart_append_right hbounds.1 (by omega),
        insideAny_append_right (hbefore k hbounds.1)]
    by_cases hover : PassedOver spans r k
    · rw [referencesFrom_of_passedOver hfound hover,
        referencesFrom_of_passedOver hfind (hsame.2 hover), Nat.add_assoc,
        ih _ (by omega) (h.mono (by omega)) (hbefore _ (by omega))]
    · have hend := lt_referenceEnd hfound
      rw [referencesFrom_of_some hfound hover, referencesFrom_of_some hfind (mt hsame.1 hover),
        List.map_cons, referenceAt_append_right, referenceEnd_append_right,
        ih _ hend (h.mono (by omega)) (hbefore _ (by omega))]

end SchemaDiagram
