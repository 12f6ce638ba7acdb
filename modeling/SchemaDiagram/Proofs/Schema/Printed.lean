/-
# Printed schema texts

A schema text is printed from items that have lines of their own: table blocks, reference lines
and blank lines.

* `Item`, `Item.text`, `documentText` : the items, and what they are printed as;
* `Item.WellFormed` : an item has names where the text needs them;
* `Entity.text_eq` : a table block as its keyword, its name and its body;
* `readBody_body` : the fields of the body of a printed block.
-/
import SchemaDiagram.Proofs.Schema.Remarks

namespace SchemaDiagram

open Text

/-! ## Items -/

/-- A part of a schema text that has lines of its own. -/
inductive Item where
  | table (e : Entity)
  | reference (label : Option String) (r : Relationship)
  | blank (text : List Char)

/-- The lines of a table block. -/
def Entity.lines (e : Entity) : List (List Char) :=
  ("Table ".toList ++ e.name.toList ++ " \x7b".toList) :: e.fields.map Field.printed ++
    ["\x7d".toList]

/-- The text of an item. -/
def Item.text : Item → List Char
  | .table e => ['\n'].intercalate e.lines
  | .reference label r => referenceKeyword ++ (labelText label ++ ':' :: r.expression)
  | .blank text => text

/-- The text of a list of items. -/
def documentText (items : List Item) : List Char := ['\n'].intercalate (items.map Item.text)

/-- An item has names where the text needs them, its fields can be printed, and a blank line is
blank. -/
def Item.WellFormed : Item → Prop
  | .table e => IsName e.name ∧ ∀ f ∈ e.fields, f.Printable
  | .reference label r => (∀ n ∈ label, IsName n) ∧ r.Named
  | .blank text => ∀ c ∈ text, isBlank c = true

instance : (item : Item) → Decidable item.WellFormed
  | .table e => inferInstanceAs (Decidable (IsName e.name ∧ ∀ f ∈ e.fields, f.Printable))
  | .reference label r => inferInstanceAs (Decidable ((∀ n ∈ label, IsName n) ∧ r.Named))
  | .blank text => inferInstanceAs (Decidable (∀ c ∈ text, isBlank c = true))

/-- The entity of a table block. -/
def Item.entity? : Item → Option Entity
  | .table e => some e
  | .reference _ _ => none
  | .blank _ => none

/-- The relationship of a reference line. -/
def Item.relationship? : Item → Option Relationship
  | .table _ => none
  | .reference _ r => some r
  | .blank _ => none

/-! ## Joining -/

/-- The texts of two lists of items have a newline between them. -/
theorem documentText_append {items others : List Item} (hitems : items ≠ []) (hothers : others ≠ []) :
    documentText (items ++ others) = documentText items ++ '\n' :: documentText others := by
  rw [documentText, List.map_append, intercalate_append _ (by simpa) (by simpa),
    List.singleton_append, documentText, documentText]

theorem documentText_singleton (item : Item) : documentText [item] = item.text :=
  List.intercalate_singleton

/-! ## Table blocks -/

/-- What stands between the braces of a table block. -/
def Entity.body (e : Entity) : List Char :=
  ['\n'].intercalate ([] :: (e.fields.map Field.printed ++ [[]]))

theorem Entity.text_eq (e : Entity) :
    (Item.table e).text = tableKeyword ++ blockTail e.name e.body := by
  have hlines : ['\n'].intercalate e.lines = ("Table ".toList ++ e.name.toList ++ " \x7b".toList ++
      ['\n']) ++ (e.fields.map Field.printed).flatMap (· ++ ['\n']) ++ "\x7d".toList := by
    rw [Entity.lines, intercalate_concat, List.flatMap_cons]
  have hbody : e.body = '\n' :: (e.fields.map Field.printed).flatMap (· ++ ['\n']) := by
    rw [Entity.body, ← List.cons_append, intercalate_concat, List.flatMap_cons, List.append_nil]
    rfl
  rw [Item.text, hlines, blockTail, hbody]
  simp [tableKeyword]

/-- A character of a printed field is a space, or one of its words has it. -/
theorem Field.mem_printed {f : Field} {c : Char} (hc : c ∈ f.printed) :
    c = ' ' ∨ ∃ w ∈ f.name.toList :: f.type.toList :: f.remarkWords, c ∈ w := by
  rw [Field.printed_eq, List.mem_cons, List.mem_cons] at hc
  rcases hc with hc | hc | hc
  · exact Or.inl hc
  · exact Or.inl hc
  · exact mem_unwords hc

theorem Field.Printable.newline_not_mem {f : Field} (hf : f.Printable) : '\n' ∉ f.printed := by
  intro hc
  rcases Field.mem_printed hc with hc | ⟨w, hw, hc⟩
  · exact absurd hc (by decide)
  · exact absurd ((hf.isWord_words w hw).not_blank '\n' hc) (by decide)

theorem Field.Printable.brace_not_mem {f : Field} (hf : f.Printable) : '\x7d' ∉ f.printed := by
  intro hc
  rcases Field.mem_printed hc with hc | ⟨w, hw, hc⟩
  · exact absurd hc (by decide)
  · rcases List.mem_cons.1 hw with rfl | hw
    · exact hf.name.noBrace hc
    rcases List.mem_cons.1 hw with rfl | hw
    · exact hf.type.noBrace hc
    · exact hf.brace_not_mem_remarkWords w hw hc

theorem Entity.brace_not_mem_body {e : Entity} (he : ∀ f ∈ e.fields, f.Printable) :
    '\x7d' ∉ e.body := by
  rw [Entity.body, ← List.cons_append, intercalate_concat, List.append_nil]
  intro hc
  obtain ⟨line, hline, hc⟩ := List.mem_flatMap.1 hc
  rcases List.mem_append.1 hc with hc | hc
  · rcases List.mem_cons.1 hline with rfl | hline
    · exact nomatch hc
    · obtain ⟨f, hf, rfl⟩ := List.mem_map.1 hline
      exact (he f hf).brace_not_mem hc
  · exact absurd (List.mem_singleton.1 hc) (by decide)

/-- What the lines of a body give does not depend on their numbers where no line does. -/
theorem filterMap_zipIdx {α β : Type} {f : α → Nat → Option β} {g : α → Option β} {l : List α}
    (h : ∀ a ∈ l, ∀ n, f a n = g a) (start : Nat) :
    ((l.zipIdx start).filterMap fun p => f p.1 p.2) = l.filterMap g := by
  induction l generalizing start with
  | nil => rfl
  | cons a rest ih =>
    rw [List.zipIdx_cons, List.filterMap_cons, List.filterMap_cons, h a List.mem_cons_self,
      ih fun b hb => h b (List.mem_cons_of_mem a hb)]

theorem filterMap_ofLine?_printed {fields : List Field} (h : ∀ f ∈ fields, f.Printable) :
    (fields.map Field.printed).filterMap (Field.ofLine? 0) = fields.map fun f => (f, []) := by
  induction fields with
  | nil => rfl
  | cons f rest ih =>
    rw [List.map_cons, List.filterMap_cons, (h f List.mem_cons_self).ofLine?_printed,
      ih fun g hg => h g (List.mem_cons_of_mem f hg), List.map_cons]

/-- **The body** of a printed block has its fields, without an issue. -/
theorem readBody_body {e : Entity} (he : ∀ f ∈ e.fields, f.Printable) (line : Nat) :
    readBody line e.body = e.fields.map fun f => (f, []) := by
  have hsplit : e.body.splitOn '\n' = [] :: (e.fields.map Field.printed ++ [[]]) := by
    refine List.splitOn_intercalate '\n' ?_ (List.cons_ne_nil _ _)
    intro line hline
    simp only [List.mem_cons, List.mem_append, List.mem_map, List.not_mem_nil, or_false] at hline
    rcases hline with rfl | ⟨f, hf, rfl⟩ | rfl
    · exact List.not_mem_nil
    · exact (he f hf).newline_not_mem
    · exact List.not_mem_nil
  -- a line number shows in an issue only, and no line has one
  have hlines : ∀ text ∈ [] :: (e.fields.map Field.printed ++ [[]]), ∀ number,
      Field.ofLine? number text = Field.ofLine? 0 text := by
    intro text htext number
    simp only [List.mem_cons, List.mem_append, List.mem_map, List.not_mem_nil, or_false] at htext
    rcases htext with rfl | ⟨f, hf, rfl⟩ | rfl
    · rfl
    · rw [(he f hf).ofLine?_printed, (he f hf).ofLine?_printed]
    · rfl
  rw [readBody, hsplit, filterMap_zipIdx hlines, List.filterMap_cons, List.filterMap_append,
    filterMap_ofLine?_printed he]
  exact List.append_nil _

end SchemaDiagram
