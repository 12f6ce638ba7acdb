/-
# The table pass over a printed text

The first pass over a schema text finds the table blocks.  Over a printed text it reads the blocks
one after the other and passes over the other items, since the word that opens a block stands
nowhere in them.

* `Item.Unambiguous` : an item in which the word that opens a block does not stand by accident;
* `spansFrom`, `BlocksOf` : the blocks of items, with the spans that they have in the text;
* `tableFragments_items` : the table pass finds the printed blocks, and no others;
* `tableFragments_no_brace` : it finds no block where no brace opens.
-/
import SchemaDiagram.Proofs.Schema.Line
import SchemaDiagram.Proofs.Schema.Printed

namespace SchemaDiagram

open Text

variable {text r : List Char}

/-! ## The names of a reference line -/

theorem names_qualified {table field : String} (htable : IsName table) (hfield : IsName field) :
    names (qualified table field) = [table.toList, field.toList] := by
  rw [qualified, names_append_cons _ _ (by decide), names_of_forall htable.nameChars,
    names_of_forall hfield.nameChars]
  rfl

/-- The names in the expression of a reference line: empty ones at its blanks and signs, and those
of its two ends. -/
theorem Relationship.names_expression {e : Relationship} (he : e.Named) :
    names e.expression = [[]] ++ ([e.fromTable.toList, e.fromField.toList] ++
      (names e.cardinality.sign ++ [e.toTable.toList, e.toField.toList])) := by
  have hblank : isNameChar ' ' = false := by decide
  rw [Relationship.expression, ← List.nil_append (' ' :: _), names_append_cons _ _ hblank,
    names_append_cons _ _ hblank, names_append_cons _ _ hblank,
    names_qualified he.fromTable he.fromField, names_qualified he.toTable he.toField]
  rfl

/-- The names in the expression of a reference line, beside empty ones. -/
theorem Relationship.mem_names_expression {e : Relationship} (he : e.Named) {w : List Char}
    (hw : w ∈ names e.expression) :
    w = [] ∨ ∃ n ∈ [e.fromTable, e.fromField, e.toTable, e.toField], w = n.toList := by
  have hsign : ∀ o : Cardinality, ∀ w ∈ names o.sign, w = [] := by
    intro o
    cases o <;> decide
  rw [Relationship.names_expression he] at hw
  simp only [List.mem_append, List.mem_cons, List.not_mem_nil, or_false] at hw
  rcases hw with hw | (hw | hw) | hw | hw | hw
  · exact Or.inl hw
  · exact Or.inr ⟨_, by simp, hw⟩
  · exact Or.inr ⟨_, by simp, hw⟩
  · exact Or.inl (hsign _ w hw)
  · exact Or.inr ⟨_, by simp, hw⟩
  · exact Or.inr ⟨_, by simp, hw⟩

/-- No name on a reference line is the word that opens a table block. -/
def Item.Unambiguous : Item → Prop
  | .table _ => True
  | .reference label r =>
    label ≠ some "Table" ∧ "Table" ∉ [r.fromTable, r.fromField, r.toTable, r.toField]
  | .blank _ => True

instance : (item : Item) → Decidable item.Unambiguous
  | .table _ => .isTrue trivial
  | .reference label r => inferInstanceAs (Decidable
      (label ≠ some "Table" ∧ "Table" ∉ [r.fromTable, r.fromField, r.toTable, r.toField]))
  | .blank _ => .isTrue trivial

/-- The word that opens a table block is no name of a reference line. -/
theorem tableKeyword_not_mem_names {label : Option String} {e : Relationship}
    (hwf : (Item.reference label e).WellFormed) (hplain : (Item.reference label e).Unambiguous) :
    tableKeyword ∉ names (Item.reference label e).text := by
  have hne : ∀ n : String, n ≠ "Table" → tableKeyword ≠ n.toList := by
    rintro n hn h
    exact hn (String.toList_inj.1 h.symm)
  have hexpression : tableKeyword ∉ names e.expression := by
    intro h
    rcases Relationship.mem_names_expression hwf.2 h with h | ⟨n, hn, h⟩
    · exact absurd h (by decide)
    · exact hne n (fun heq => hplain.2 (heq ▸ hn)) h
  have hkeyword : names referenceKeyword = [referenceKeyword] := names_of_forall (by decide)
  cases label with
  | none =>
    rw [Item.text, labelText, List.nil_append, names_append_cons _ _ (by decide), hkeyword]
    intro h
    rcases List.mem_append.1 h with h | h
    · exact absurd h (by decide)
    · exact hexpression h
  | some n =>
    rw [Item.text, labelText, List.cons_append, names_append_cons _ _ (by decide), hkeyword,
      names_append_cons _ _ (by decide), names_of_forall (hwf.1 n rfl).nameChars]
    intro h
    simp only [List.mem_append, List.mem_singleton] at h
    rcases h with h | h | h
    · exact absurd h (by decide)
    · exact hne n (fun heq => hplain.1 (heq ▸ rfl)) h
    · exact hexpression h

/-! ## The table pass -/

theorem tableFragments_of_none {c c' : Cursor text} (h : c.findKeyword tableKeyword = (none, c')) :
    tableFragments c = [] := by
  rw [tableFragments]
  rw [h]

theorem tableFragments_of_some {c c' : Cursor text} {start : Nat}
    (h : c.findKeyword tableKeyword = (some start, c')) :
    tableFragments c =
      (tableFragment start (c'.lineNumber start).1 (c'.lineNumber start).2).1 ::
        tableFragments (tableFragment start (c'.lineNumber start).1 (c'.lineNumber start).2).2 := by
  rw [tableFragments]
  rw [h]

theorem tableFragments_congr {c c' : Cursor text}
    (h : c.findKeyword tableKeyword = c'.findKeyword tableKeyword) :
    tableFragments c = tableFragments c' := by
  rw [tableFragments, tableFragments]
  rw [h]

/-- The table pass passes over a part in which its keyword does not stand. -/
theorem tableFragments_skip {c : Cursor text} {n : Nat}
    (h : ∀ i, i < n → ¬ Cursor.StandsAt tableKeyword text (c.pos + i)) :
    tableFragments c = tableFragments (c.moveTo (c.pos + n)) :=
  tableFragments_congr (Cursor.findKeyword_skip (by decide) (by decide) h)

/-- The table pass reads a printed block at the start of a line. -/
theorem tableFragments_table {e : Entity} (he : (Item.table e).WellFormed) {c : Cursor text}
    (hc : c.FollowedBy ((Item.table e).text ++ r)) (hline : c.AtLine) :
    ∃ (b : TableBlock) (c' : Cursor text), tableFragments c = .block b :: tableFragments c' ∧
      c'.pos = c.pos + (Item.table e).text.length ∧ b.entity = e ∧ b.span = (c.pos, c'.pos) ∧
      b.issues = [] := by
  rw [Entity.text_eq, List.append_assoc] at hc
  have hstands := hc.standsAt hline (by rintro x ⟨⟩; decide)
  have hfind := Cursor.findKeyword_here (by decide) (by decide) hstands
  -- the line is counted before the block is read, which leaves the cursor where it was
  let numbered := (c.moveTo (c.pos + tableKeyword.length)).lineNumber c.pos
  have hnumbered : numbered.2.FollowedBy (blockTail e.name e.body ++ r) := hc.advance rfl
  obtain ⟨⟨name, line, body⟩, c', hread, ⟨hname, hbody⟩, hpos⟩ :=
    scanBlock_reads he.1 (Entity.brace_not_mem_body he.2) numbered.2 hnumbered
  have hfields : (readBody line e.body).map Prod.fst = e.fields := by
    rw [readBody_body he.2, List.map_map]
    exact List.map_id e.fields
  have hissues : (readBody line e.body).flatMap Prod.snd = [] := by
    rw [readBody_body he.2, List.flatMap_map]
    exact List.flatMap_eq_nil_iff.2 fun _ _ => rfl
  have hfragment : tableFragment c.pos numbered.1 numbered.2 =
      (.block ⟨e.name, numbered.1, e.fields, (c.pos, c'.pos), []⟩, c') := by
    rw [tableFragment, hread]
    dsimp only at hname hbody ⊢
    rw [hname, hbody, hfields, hissues]
  refine ⟨⟨e.name, numbered.1, e.fields, (c.pos, c'.pos), []⟩, c', ?_, ?_, rfl, rfl, rfl⟩
  · rw [tableFragments_of_some hfind]
    show (tableFragment c.pos numbered.1 numbered.2).1 ::
      tableFragments (tableFragment c.pos numbered.1 numbered.2).2 = _
    rw [hfragment]
  · rw [hpos, Entity.text_eq, List.length_append, ← Nat.add_assoc]
    rfl

/-- The spans of the table blocks among items that start at an offset, each with its text. -/
def spansFrom : Nat → List Item → List (Nat × Nat)
  | _, [] => []
  | offset, item :: rest =>
    (match item with
      | .table _ => [(offset, offset + item.text.length)]
      | .reference _ _ => []
      | .blank _ => []) ++ spansFrom (offset + item.text.length + 1) rest

theorem spansFrom_cons (offset : Nat) (item : Item) (rest : List Item) :
    spansFrom offset (item :: rest) =
      spansFrom offset [item] ++ spansFrom (offset + item.text.length + 1) rest := by
  cases item <;> rfl

theorem mem_spansFrom_singleton {offset : Nat} {item : Item} {span : Nat × Nat} :
    span ∈ spansFrom offset [item] ↔
      item.entity?.isSome = true ∧ span = (offset, offset + item.text.length) := by
  cases item <;> simp [spansFrom, Item.entity?]

/-- The blocks that are read from items that start at an offset. -/
structure BlocksOf (offset : Nat) (items : List Item) (blocks : List TableBlock) : Prop where
  entities : blocks.map TableBlock.entity = items.filterMap Item.entity?
  spans : blocks.map TableBlock.span = spansFrom offset items
  issues : ∀ b ∈ blocks, b.issues = []

theorem BlocksOf.cons {item : Item} {rest : List Item} {offset : Nat}
    {blocks others : List TableBlock} (h : BlocksOf offset [item] blocks)
    (hrest : BlocksOf (offset + item.text.length + 1) rest others) :
    BlocksOf offset (item :: rest) (blocks ++ others) where
  entities := by
    rw [List.map_append, h.entities, hrest.entities, ← List.filterMap_append,
      List.singleton_append]
  spans := by
    rw [List.map_append, h.spans, hrest.spans, ← spansFrom_cons]
  issues := by
    intro b hb
    rcases List.mem_append.1 hb with hb | hb
    · exact h.issues b hb
    · exact hrest.issues b hb

/-- The table pass reads a printed item as the blocks that it has. -/
theorem tableFragments_item {item : Item} (hwf : item.WellFormed) (hplain : item.Unambiguous)
    {c : Cursor text} (hc : c.FollowedBy (item.text ++ r)) (hline : c.AtLine)
    (hr : ∀ x ∈ r.head?, x = '\n') :
    ∃ (blocks : List TableBlock) (c' : Cursor text),
      tableFragments c = blocks.map .block ++ tableFragments c' ∧
      c'.pos = c.pos + item.text.length ∧ BlocksOf c.pos [item] blocks := by
  have hr' : ∀ x ∈ r.head?, isNameChar x = false := by
    intro x hx
    rw [hr x hx]
    decide
  cases item with
  | table e =>
    obtain ⟨b, c', hread, hpos, hentity, hspan, hissues⟩ := tableFragments_table hwf hc hline
    refine ⟨[b], c', hread, hpos, ?_, ?_, ?_⟩
    · rw [List.map_singleton, hentity]
      rfl
    · rw [List.map_singleton, hspan, hpos]
      rfl
    · intro b' hb'
      rw [List.mem_singleton.1 hb', hissues]
  | reference label e =>
    refine ⟨[], c.moveTo (c.pos + (Item.reference label e).text.length), ?_, rfl, rfl, rfl,
      fun _ h => nomatch h⟩
    exact tableFragments_skip (Cursor.not_standsAt_of_part (by decide) hc.drop hr'
      (tableKeyword_not_mem_names hwf hplain))
  | blank blanks =>
    refine ⟨[], c.moveTo (c.pos + (Item.blank blanks).text.length), ?_, rfl, rfl, rfl,
      fun _ h => nomatch h⟩
    exact tableFragments_skip (hc.not_standsAt_blank hwf (by decide) (by decide))

theorem documentText_cons (item : Item) {rest : List Item} (hrest : rest ≠ []) :
    documentText (item :: rest) = item.text ++ '\n' :: documentText rest := by
  rw [← List.singleton_append, documentText_append (List.cons_ne_nil _ _) hrest,
    documentText_singleton]

/-- **The table pass** over a printed text finds the blocks of its items, and no others. -/
theorem tableFragments_items {items : List Item} (hwf : ∀ item ∈ items, item.WellFormed)
    (hplain : ∀ item ∈ items, item.Unambiguous) (hr : ∀ x ∈ r.head?, x = '\n') {c : Cursor text}
    (hc : c.FollowedBy (documentText items ++ r)) (hline : c.AtLine) :
    ∃ (blocks : List TableBlock) (c' : Cursor text),
      tableFragments c = blocks.map .block ++ tableFragments c' ∧ c'.FollowedBy r ∧
      BlocksOf c.pos items blocks := by
  -- on the items, where each stands before the end of the text or of its line
  induction items generalizing c with
  | nil => exact ⟨[], c, rfl, hc, rfl, rfl, fun _ h => nomatch h⟩
  | cons item rest ih =>
    have hitem := hwf item List.mem_cons_self
    have hitem' := hplain item List.mem_cons_self
    cases rest with
    | nil =>
      rw [documentText_singleton] at hc
      obtain ⟨blocks, c', hread, hpos, hblocks⟩ := tableFragments_item hitem hitem' hc hline hr
      exact ⟨blocks, c', hread, hc.advance hpos, hblocks⟩
    | cons next rest =>
      rw [documentText_cons item (List.cons_ne_nil next rest), List.append_assoc,
        List.cons_append] at hc
      obtain ⟨blocks, c₁, hread, hpos, hblocks⟩ :=
        tableFragments_item hitem hitem' hc hline (by rintro x ⟨⟩; rfl)
      have hc₁ := hc.advance hpos
      -- behind the item, the next one starts on a line of its own
      have hskip : tableFragments c₁ = tableFragments (c₁.moveTo (c₁.pos + 1)) :=
        tableFragments_skip (Cursor.FollowedBy.not_standsAt_blank (s := ['\n']) hc₁
          (by decide) (by decide) (by decide))
      obtain ⟨others, c', hread', hc', hothers⟩ :=
        ih (fun i hi => hwf i (List.mem_cons_of_mem item hi))
          (fun i hi => hplain i (List.mem_cons_of_mem item hi))
          hc₁.nextLine hc₁.atLine
      refine ⟨blocks ++ others, c', ?_, hc', ?_⟩
      · rw [hread, hskip, hread', List.map_append, List.append_assoc]
      · exact hblocks.cons (hpos ▸ hothers)

/-! ## Parts without braces -/

/-- What follows a cursor that does not bring back text is the end of what followed before. -/
theorem Cursor.rest_suffix {c c' : Cursor text} (h : c'.remaining ≤ c.remaining) :
    c'.rest <:+ c.rest := by
  unfold remaining at h
  rcases Nat.lt_or_ge c'.pos c.pos with hlt | hle
  · -- a cursor before the other one is behind the text, and so is the other one
    rw [rest, List.drop_eq_nil_of_le (by omega)]
    exact List.nil_suffix
  · rw [rest, rest, ← Nat.add_sub_cancel' hle, ← List.drop_drop]
    exact List.drop_suffix _ _

namespace Scan

variable {α β : Type} {x : Char}

/-- An action needs a character when it succeeds only where this character follows. -/
def Needs (x : Char) (m : Scan text α) : Prop := ∀ c a c', m c = .ok a c' → x ∈ c.rest

theorem bind_ok {m : Scan text α} {f : α → Scan text β} {c c' : Cursor text} {b : β}
    (h : (m >>= f) c = .ok b c') : ∃ a c₁, m c = .ok a c₁ ∧ f a c₁ = .ok b c' := by
  have h : EStateM.bind m f c = .ok b c' := h
  rw [EStateM.bind] at h
  cases hm : m c with
  | ok a c₁ =>
    rw [hm] at h
    exact ⟨a, c₁, rfl, h⟩
  | error fault c₁ =>
    rw [hm] at h
    exact nomatch h

theorem Needs.bind {m : Scan text α} {f : α → Scan text β} (hm : Needs x m) :
    Needs x (m >>= f) := by
  intro c b c' h
  obtain ⟨a, c₁, hread, -⟩ := bind_ok h
  exact hm c a c₁ hread

/-- A sequence needs what its second part needs, as its first part brings back no text. -/
theorem Needs.bind_of_advances {m : Scan text α} {f : α → Scan text β} (hm : Advances m)
    (hf : ∀ a, Needs x (f a)) : Needs x (m >>= f) := by
  intro c b c' h
  obtain ⟨a, c₁, hread, hread'⟩ := bind_ok h
  have hle := hm c
  rw [hread] at hle
  exact (Cursor.rest_suffix hle).subset (hf a c₁ b c' hread')

theorem needs_expect (x : Char) : Needs x (expect [x] : Scan text Unit) := by
  intro c a c' h
  obtain ⟨found, c₁, haccept, hread⟩ := bind_ok h
  rw [accept] at haccept
  split at haccept
  · next hnext =>
    rw [Bool.and_eq_true, List.isPrefixOf_iff_prefix] at hnext
    exact hnext.2.subset List.mem_cons_self
  · cases haccept
    cases hread

end Scan

theorem scanBlock_needs_brace :
    Scan.Needs '\x7b' (scanBlock : Scan text (String × Nat × List Char)) := by
  refine Scan.Needs.bind_of_advances Scan.skipBlanks_advances fun _ => ?_
  refine Scan.Needs.bind_of_advances Scan.readName_advances fun _ => ?_
  refine Scan.Needs.bind_of_advances Scan.skipBlanks_advances fun _ => ?_
  exact (Scan.needs_expect '\x7b').bind

/-- The table pass finds no block where no brace opens. -/
theorem tableFragments_no_brace {c : Cursor text} (h : '\x7b' ∉ c.rest) :
    (tableFragments c).filterMap TableFragment.block? = [] := by
  induction hn : c.remaining using Nat.strongRecOn generalizing c with
  | _ n ih =>
    subst hn
    rcases hfind : c.findKeyword tableKeyword with ⟨found, c'⟩
    cases found with
    | none => rw [tableFragments_of_none hfind, List.filterMap_nil]
    | some start =>
      have hfound := Cursor.findKeyword_remaining_lt (by decide) hfind
      have hread := tableFragment_remaining start (c'.lineNumber start).1 (c'.lineNumber start).2
      rw [Cursor.lineNumber_remaining] at hread
      have hskipped : (tableFragment start (c'.lineNumber start).1
          (c'.lineNumber start).2).1.block? = none := by
        unfold tableFragment
        split
        · next hblock =>
          have hbrace := scanBlock_needs_brace _ _ _ hblock
          exact absurd ((Cursor.rest_suffix (Nat.le_of_lt hfound)).subset hbrace) h
        · rfl
      have hlt := Nat.lt_of_le_of_lt hread hfound
      rw [tableFragments_of_some hfind, List.filterMap_cons, hskipped]
      refine ih _ hlt (fun hbrace => h ?_) rfl
      exact (Cursor.rest_suffix (Nat.le_of_lt hlt)).subset hbrace

end SchemaDiagram
