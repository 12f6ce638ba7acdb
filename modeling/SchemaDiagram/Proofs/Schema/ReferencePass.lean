/-
# The reference pass over a printed text

The second pass over a schema text finds the reference lines.  Over a printed text it reads them
one after the other and passes over the other items: a word that could open a reference line
stands in a table block only, and so in a span.

* `referenceFragments_skip` : the pass goes on behind a part with all its keywords in spans;
* `referenceFragments_items` : the reference pass finds the printed lines, and no others.
-/
import SchemaDiagram.Proofs.Schema.TablePass

namespace SchemaDiagram

open Text

variable {text r : List Char}

section

variable {spans : List (Nat × Nat)} {c c' : Cursor text}

theorem referenceFragments_of_none (h : c.findKeyword referenceKeyword = (none, c')) :
    referenceFragments spans c = [] := by
  rw [referenceFragments]
  rw [h]

/-- A keyword that does not open a reference line is passed over. -/
theorem referenceFragments_of_passed {start : Nat}
    (h : c.findKeyword referenceKeyword = (some start, c'))
    (hpassed : Cursor.atLineStart text start = false ∨ insideAny spans start = true) :
    referenceFragments spans c = referenceFragments spans c' := by
  rw [referenceFragments]
  rw [h]
  dsimp only
  rw [if_pos]
  rcases hpassed with h | h
  · rw [h]
    rfl
  · rw [h, Bool.or_true]

theorem referenceFragments_of_some {start : Nat}
    (h : c.findKeyword referenceKeyword = (some start, c'))
    (hline : Cursor.atLineStart text start = true) (houtside : insideAny spans start = false) :
    referenceFragments spans c =
      (referenceFragment (c'.lineNumber start).1 (c'.lineNumber start).2).1 ::
        referenceFragments spans
          (referenceFragment (c'.lineNumber start).1 (c'.lineNumber start).2).2 := by
  rw [referenceFragments]
  rw [h]
  dsimp only
  rw [if_neg (by rw [hline, houtside]; decide)]

theorem referenceFragments_congr
    (h : c.findKeyword referenceKeyword = c'.findKeyword referenceKeyword) :
    referenceFragments spans c = referenceFragments spans c' := by
  rw [referenceFragments, referenceFragments]
  rw [h]

/-- The reference pass passes over a part in which each of its keywords lies in a span. -/
theorem referenceFragments_skip {n : Nat}
    (h : ∀ i, i < n → Cursor.StandsAt referenceKeyword text (c.pos + i) →
      insideAny spans (c.pos + i) = true ∧ i + referenceKeyword.length ≤ n) :
    referenceFragments spans c = referenceFragments spans (c.moveTo (c.pos + n)) := by
  induction n using Nat.strongRecOn generalizing c with
  | _ n ih =>
    classical
    by_cases hsome : ∃ i, i < n ∧ Cursor.StandsAt referenceKeyword text (c.pos + i)
    · -- the first keyword of the part is passed over, and the rest of the part is shorter
      obtain ⟨hlt, hstands⟩ := Nat.find_spec hsome
      obtain ⟨hinside, hle⟩ := h _ hlt hstands
      have hfirst := Cursor.findKeyword_skip (c := c) (by decide) (by decide)
        fun j hj hj' => Nat.find_min hsome hj ⟨Nat.lt_trans hj hlt, hj'⟩
      generalize Nat.find hsome = i at *
      have hfind : c.findKeyword referenceKeyword =
          (some (c.pos + i), c.moveTo (c.pos + i + referenceKeyword.length)) :=
        hfirst.trans (Cursor.findKeyword_here (by decide) (by decide) hstands)
      have hrest := ih (n - (i + referenceKeyword.length))
        (Nat.sub_lt (Nat.lt_of_le_of_lt (Nat.zero_le i) hlt) (Nat.add_pos_right i (by decide)))
        (c := c.moveTo (c.pos + i + referenceKeyword.length)) <| by
          intro j hj hj'
          have hpos : (c.moveTo (c.pos + i + referenceKeyword.length)).pos + j =
              c.pos + (i + referenceKeyword.length + j) := by
            show c.pos + i + referenceKeyword.length + j = _
            omega
          rw [hpos] at hj' ⊢
          obtain ⟨hinside', hle'⟩ := h _ (by omega) hj'
          exact ⟨hinside', by omega⟩
      have hend : (c.moveTo (c.pos + i + referenceKeyword.length)).moveTo
          ((c.moveTo (c.pos + i + referenceKeyword.length)).pos +
            (n - (i + referenceKeyword.length))) = c.moveTo (c.pos + n) := by
        have hpos : c.pos + i + referenceKeyword.length + (n - (i + referenceKeyword.length)) =
            c.pos + n := by omega
        exact congrArg c.moveTo hpos
      rw [referenceFragments_of_passed hfind (Or.inr hinside), hrest, hend]
    · refine referenceFragments_congr (Cursor.findKeyword_skip (by decide) (by decide) ?_)
      exact fun i hi hstands => hsome ⟨i, hi, hstands⟩

/-- The reference pass reads a printed reference line at the start of a line outside all spans. -/
theorem referenceFragments_reference {label : Option String} {e : Relationship}
    (he : (Item.reference label e).WellFormed)
    (hc : c.FollowedBy ((Item.reference label e).text ++ r)) (hline : c.AtLine)
    (hr : ∀ x ∈ r.head?, x = '\n') (houtside : insideAny spans c.pos = false) :
    ∃ c' : Cursor text, referenceFragments spans c =
        .relationship e :: referenceFragments spans c' ∧
      c'.pos = c.pos + (Item.reference label e).text.length := by
  rw [Item.text, List.append_assoc] at hc
  have hstands := hc.standsAt hline <| by
    cases label with
    | none => rintro x ⟨⟩; decide
    | some n => rintro x ⟨⟩; decide
  have hfind := Cursor.findKeyword_here (by decide) (by decide) hstands
  let numbered := (c.moveTo (c.pos + referenceKeyword.length)).lineNumber c.pos
  have hnumbered : numbered.2.FollowedBy (labelText label ++ ':' :: e.expression ++ r) :=
    hc.advance rfl
  obtain ⟨line, c', hread, rfl, hpos⟩ :=
    scanReferenceLine_reads he.1 he.2.newline_not_mem hr numbered.2 hnumbered
  have hfragment : referenceFragment numbered.1 numbered.2 = (.relationship e, c') := by
    rw [referenceFragment, hread]
    dsimp only
    rw [Relationship.ofExpression_expression he.2]
  have hlength : (Item.reference label e).text.length =
      referenceKeyword.length + (labelText label ++ ':' :: e.expression).length :=
    List.length_append
  refine ⟨c', ?_, ?_⟩
  · rw [referenceFragments_of_some hfind hline.atLineStart houtside]
    show (referenceFragment numbered.1 numbered.2).1 ::
      referenceFragments spans (referenceFragment numbered.1 numbered.2).2 = _
    rw [hfragment]
  · rw [hpos, hlength, ← Nat.add_assoc]
    rfl

theorem insideAny_of_mem {span : Nat × Nat} {offset : Nat} (hspan : span ∈ spans)
    (hstart : span.1 ≤ offset) (hstop : offset < span.2) : insideAny spans offset = true :=
  List.any_eq_true.2 ⟨span, hspan, by simp [hstart, hstop]⟩

theorem insideAny_eq_false {offset : Nat}
    (h : ∀ span ∈ spans, span.2 ≤ offset ∨ offset < span.1) : insideAny spans offset = false := by
  rw [insideAny, List.any_eq_false]
  intro span hspan
  rcases h span hspan with h | h
  · simp [Nat.not_lt_of_le h]
  · simp [Nat.not_le_of_lt h]

/-- The reference pass reads a printed item as the relationship that it has, if the span of a
table block is among the spans and no other item starts in one. -/
theorem referenceFragments_item {item : Item} (hwf : item.WellFormed)
    (hc : c.FollowedBy (item.text ++ r)) (hline : c.AtLine) (hr : ∀ x ∈ r.head?, x = '\n')
    (hspan : item.entity?.isSome → (c.pos, c.pos + item.text.length) ∈ spans)
    (houtside : item.entity? = none → insideAny spans c.pos = false) :
    ∃ c' : Cursor text, referenceFragments spans c =
        item.relationship?.toList.map .relationship ++ referenceFragments spans c' ∧
      c'.pos = c.pos + item.text.length := by
  have hr' : ∀ x ∈ r.head?, isNameChar x = false := by
    intro x hx
    rw [hr x hx]
    decide
  cases item with
  | table e =>
    refine ⟨c.moveTo (c.pos + (Item.table e).text.length), referenceFragments_skip ?_, rfl⟩
    intro i hi hstands
    refine ⟨insideAny_of_mem (hspan rfl) (Nat.le_add_right _ _) (Nat.add_lt_add_left hi _), ?_⟩
    obtain ⟨before, after, hpart, rfl, -⟩ := hstands.of_part (by decide) hc.drop hr' hi
    rw [hpart, List.length_append, List.length_append]
    omega
  | reference label e => exact referenceFragments_reference hwf hc hline hr (houtside rfl)
  | blank blanks =>
    refine ⟨c.moveTo (c.pos + (Item.blank blanks).text.length), referenceFragments_skip ?_, rfl⟩
    intro i hi hstands
    exact absurd hstands (hc.not_standsAt_blank hwf (by decide) (by decide) i hi)

end

theorem le_of_mem_spansFrom {items : List Item} {offset : Nat} {span : Nat × Nat}
    (h : span ∈ spansFrom offset items) : offset ≤ span.1 := by
  induction items generalizing offset with
  | nil => exact nomatch h
  | cons item rest ih =>
    rw [spansFrom_cons, List.mem_append, mem_spansFrom_singleton] at h
    rcases h with ⟨-, rfl⟩ | h
    · exact Nat.le_refl offset
    · exact Nat.le_trans (by omega) (ih h)

/-- Where the spans are those of items and of some before them, a first item that is no table does
not start in one. -/
theorem outside_spansFrom {passed : List (Nat × Nat)} {offset : Nat} {item : Item}
    {rest : List Item} (hpassed : ∀ span ∈ passed, span.2 ≤ offset) (hitem : item.entity? = none) :
    insideAny (passed ++ spansFrom offset (item :: rest)) offset = false := by
  refine insideAny_eq_false fun span hspan => ?_
  rw [spansFrom_cons, List.mem_append, List.mem_append, mem_spansFrom_singleton, hitem] at hspan
  rcases hspan with hspan | ⟨hsome, -⟩ | hspan
  · exact Or.inl (hpassed span hspan)
  · exact nomatch hsome
  · have hlater := le_of_mem_spansFrom hspan
    exact Or.inr (by omega)

/-- Behind the first item its span is one of those before the others. -/
theorem passed_spansFrom {passed : List (Nat × Nat)} {offset : Nat} {item : Item}
    (hpassed : ∀ span ∈ passed, span.2 ≤ offset) :
    ∀ span ∈ passed ++ spansFrom offset [item], span.2 ≤ offset + item.text.length + 1 := by
  intro span hspan
  rw [List.mem_append, mem_spansFrom_singleton] at hspan
  rcases hspan with hspan | ⟨-, rfl⟩
  · have hbefore := hpassed span hspan
    omega
  · exact Nat.le_succ _

/-- **The reference pass** over a printed text finds the reference lines of its items, and no
others, if the spans are those of its table blocks and of some before them. -/
theorem referenceFragments_items {items : List Item} (hwf : ∀ item ∈ items, item.WellFormed)
    (hr : ∀ x ∈ r.head?, x = '\n') {c : Cursor text}
    (hc : c.FollowedBy (documentText items ++ r)) (hline : c.AtLine) {passed : List (Nat × Nat)}
    (hpassed : ∀ span ∈ passed, span.2 ≤ c.pos) :
    ∃ c' : Cursor text, referenceFragments (passed ++ spansFrom c.pos items) c =
        (items.filterMap Item.relationship?).map .relationship ++
          referenceFragments (passed ++ spansFrom c.pos items) c' ∧
      c'.FollowedBy r := by
  -- on the items, where the spans of those that were read join the ones before
  induction items generalizing c passed with
  | nil => exact ⟨c, rfl, hc⟩
  | cons item rest ih =>
    have hitem := hwf item List.mem_cons_self
    have hspan : item.entity?.isSome = true → (c.pos, c.pos + item.text.length) ∈
        passed ++ spansFrom c.pos (item :: rest) := by
      intro hsome
      rw [spansFrom_cons]
      exact List.mem_append_right _ (List.mem_append_left _
        (mem_spansFrom_singleton.2 ⟨hsome, rfl⟩))
    have houtside : item.entity? = none →
        insideAny (passed ++ spansFrom c.pos (item :: rest)) c.pos = false :=
      outside_spansFrom hpassed
    cases rest with
    | nil =>
      rw [documentText_singleton] at hc
      obtain ⟨c', hread, hpos⟩ := referenceFragments_item hitem hc hline hr hspan houtside
      refine ⟨c', ?_, hc.advance hpos⟩
      rw [hread]
      cases item <;> rfl
    | cons next rest =>
      rw [documentText_cons item (List.cons_ne_nil next rest), List.append_assoc,
        List.cons_append] at hc
      obtain ⟨c₁, hread, hpos⟩ :=
        referenceFragments_item hitem hc hline (by rintro x ⟨⟩; rfl) hspan houtside
      have hc₁ := hc.advance hpos
      -- behind the item, the next one starts on a line of its own
      have hskip : referenceFragments (passed ++ spansFrom c.pos (item :: next :: rest)) c₁ =
          referenceFragments (passed ++ spansFrom c.pos (item :: next :: rest))
            (c₁.moveTo (c₁.pos + 1)) :=
        referenceFragments_skip fun i hi hstands =>
          absurd hstands (Cursor.FollowedBy.not_standsAt_blank (s := ['\n']) hc₁
            (by decide) (by decide) (by decide) i hi)
      have hpassed' : ∀ span ∈ passed ++ spansFrom c.pos [item],
          span.2 ≤ (c₁.moveTo (c₁.pos + 1)).pos := by
        show ∀ span ∈ passed ++ spansFrom c.pos [item], span.2 ≤ c₁.pos + 1
        rw [hpos]
        exact passed_spansFrom hpassed
      have hspans : passed ++ spansFrom c.pos (item :: next :: rest) =
          (passed ++ spansFrom c.pos [item]) ++
            spansFrom (c₁.moveTo (c₁.pos + 1)).pos (next :: rest) := by
        rw [spansFrom_cons, List.append_assoc]
        show _ = _ ++ (_ ++ spansFrom (c₁.pos + 1) (next :: rest))
        rw [hpos]
      obtain ⟨c', hread', hc'⟩ := ih (fun i hi => hwf i (List.mem_cons_of_mem item hi))
        hc₁.nextLine hc₁.atLine hpassed'
      refine ⟨c', ?_, hc'⟩
      rw [hread, hskip, hspans, hread', ← List.append_assoc, ← List.map_append]
      cases item <;> rfl

end SchemaDiagram
