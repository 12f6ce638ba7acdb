/-
# How much a document can hold

What is found in a text stands somewhere in it, so a document is no larger than its text.

* `length_readBody_le` : a body has a field at most for every line break and one more;
* `length_tablesFrom_le` : the table pass finds no more fragments than there are offsets left.

Main statements: `Document.length_keys_ofText_le` and `Document.length_fields_ofText_le` : a
document has no more tables, and a table no more fields, than the text has characters.
-/
import SchemaDiagram.Proofs.Schema.Passes
import SchemaDiagram.Proofs.Schema.Tables

namespace SchemaDiagram

open Text

variable {text : List Char} {k p : Nat}

/-- A text has no more parts than separators and one more. -/
theorem length_splitOn_le {α : Type} [BEq α] (separator : α) (s : List α) :
    (s.splitOn separator).length ≤ s.length + 1 := by
  unfold List.splitOn
  induction s with
  | nil => simp
  | cons x s ih =>
    rw [List.splitOnP_cons_eq_if_modifyHead]
    split
    · rw [List.length_cons, List.length_cons]
      omega
    · rw [List.length_modifyHead, List.length_cons]
      omega

/-- A body has a field at most for every line break and one more. -/
theorem length_readBody_le (line : Nat) (body : List Char) :
    (readBody line body).length ≤ body.length + 1 := by
  have hlines := length_splitOn_le '\n' body
  have hfields : (readBody line body).length ≤ ((body.splitOn '\n').zipIdx line).length :=
    List.length_filterMap_le _ _
  rw [List.length_zipIdx] at hfields
  omega

/-- The body of a block stands behind the keyword. -/
theorem length_body_lt {s name body rest : List Char} (h : readBlock s = (.ok (name, body), rest)) :
    body.length < s.length := by
  have hlen := (opening_suffix s).length_le
  rw [(opening_of_readBlock h).1] at hlen
  simp only [List.length_cons, List.length_append] at hlen
  omega

/-- A block has no more fields than the text has characters. -/
theorem length_fields_of_tableAt {b : TableBlock} (h : tableAt text k = .block b) :
    b.fields.length ≤ text.length := by
  obtain ⟨name, body, rest, hread, rfl⟩ := exists_of_tableAt h
  have hbody := length_body_lt hread
  have hfields := length_readBody_le
    (Cursor.lineAt text (Cursor.offsetOf text (body ++ '\x7d' :: rest))) body
  rw [List.length_drop] at hbody
  rw [List.length_map]
  omega

/-- The table pass finds no more fragments than there are offsets left. -/
theorem length_tablesFrom_le (text : List Char) (p : Nat) :
    (tablesFrom text p).length ≤ text.length - p := by
  induction p using Cursor.keywordFrom?_induction tableKeyword text with
  | none p hfind =>
    rw [tablesFrom_of_none hfind]
    exact Nat.zero_le _
  | some p found hfind ih =>
    have hbounds := Cursor.keywordFrom?_bounds hfind
    have hlater := lt_tableEnd hfind
    have hend := (tableEnd_bounds hbounds.2).2
    have hrest := ih _ hlater
    rw [tablesFrom_of_some hfind, List.length_cons]
    omega

namespace Document

/-- **A document has no more tables** than its text has characters. -/
theorem length_keys_ofText_le (text : List Char) :
    (ofText text).tables.keys.length ≤ text.length := by
  calc (ofText text).tables.keys.length
    _ ≤ (((tablesFrom text 0).filterMap TableFragment.block?).map
          fun b => (b.name, b.entity)).length := Registry.length_keys_ofList_le _
    _ = ((tablesFrom text 0).filterMap TableFragment.block?).length := List.length_map _
    _ ≤ (tablesFrom text 0).length := List.length_filterMap_le _ _
    _ ≤ text.length := length_tablesFrom_le text 0

/-- **A table of a document has no more fields** than the text has characters. -/
theorem length_fields_ofText_le {name : String} {e : Entity}
    (h : (ofText text).tables.get? name = some e) : e.fields.length ≤ text.length := by
  obtain ⟨b, hb, -, rfl⟩ := mem_of_get?_tablesOf h
  obtain ⟨fragment, hfragment, hblock⟩ := List.mem_filterMap.1 hb
  obtain ⟨k, -, -, rfl⟩ := exists_of_mem_tablesFrom hfragment
  cases htable : tableAt text k with
  | skipped issue =>
    rw [htable] at hblock
    cases hblock
  | block b' =>
    rw [htable] at hblock
    cases hblock
    exact length_fields_of_tableAt htable

end Document

end SchemaDiagram
