/-
# Lines under a cursor

What a cursor at the start of a line sees: a keyword that opens the line stands there, and in the
blank parts of a text no keyword stands.

* `Cursor.AtLine` : a cursor at the start of a line;
* `Cursor.FollowedBy.standsAt`, `Cursor.FollowedBy.not_standsAt_blank` : where a keyword stands;
* `Cursor.findKeyword_skip`, `Cursor.findKeyword_here` : how the search for a keyword goes on.
-/
import SchemaDiagram.Proofs.Schema.Reading

namespace SchemaDiagram

open Text

variable {text s r : List Char}

namespace Cursor

variable {keyword : List Char} {c c' : Cursor text}

/-- A cursor at the start of a line. -/
def AtLine (c : Cursor text) : Prop := ∀ x ∈ (text.take c.pos).getLast?, x = '\n'

theorem startAt_atLine (text : List Char) : (startAt text 0).AtLine := fun _ h => nomatch h

/-- Behind a newline a line starts. -/
theorem FollowedBy.atLine (h : c.FollowedBy ('\n' :: r)) : (c.moveTo (c.pos + 1)).AtLine := by
  intro x hx
  have hnext : text[c.pos]? = some '\n' := by
    rw [← Nat.add_zero c.pos, ← List.getElem?_drop, h.drop]
    rfl
  rw [moveTo, List.take_add_one, hnext, Option.toList_some, List.getLast?_concat] at hx
  exact (Option.some.inj hx).symm

theorem FollowedBy.nextLine (h : c.FollowedBy ('\n' :: r)) :
    (c.moveTo (c.pos + 1)).FollowedBy r :=
  h.advance (s := ['\n']) rfl

/-- A keyword that opens a line stands there. -/
theorem FollowedBy.standsAt (h : c.FollowedBy (keyword ++ r)) (hline : c.AtLine)
    (hr : ∀ x ∈ r.head?, isNameChar x = false) : StandsAt keyword text c.pos := by
  refine ⟨text.take c.pos, r, ?_, List.length_take_of_le h.within, ?_, hr⟩
  · rw [← h.drop, List.take_append_drop]
  · intro x hx
    rw [hline x hx]
    decide

theorem AtLine.atLineStart (h : c.AtLine) : atLineStart text c.pos = true := by
  rw [Cursor.atLineStart]
  cases hlast : (text.take c.pos).getLast? with
  | none =>
    rw [List.getLast?_eq_none_iff.1 hlast]
    rfl
  | some x =>
    obtain ⟨before, hbefore⟩ := List.getLast?_eq_some_iff.1 hlast
    rw [hbefore, h x hlast, List.reverse_concat]
    rfl

/-- The search for a keyword may start behind a part in which it does not stand. -/
theorem findKeyword_skip {n : Nat} (hkeyword : keyword ≠ [])
    (hname : ∀ x ∈ keyword, isNameChar x = true)
    (h : ∀ i, i < n → ¬ StandsAt keyword text (c.pos + i)) :
    c.findKeyword keyword = (c.moveTo (c.pos + n)).findKeyword keyword := by
  rw [findKeyword, findKeyword, keywordFrom?_skip hkeyword hname h]
  rfl

theorem findKeyword_here (hkeyword : keyword ≠ []) (hname : ∀ x ∈ keyword, isNameChar x = true)
    (h : StandsAt keyword text c.pos) :
    c.findKeyword keyword = (some c.pos, c.moveTo (c.pos + keyword.length)) := by
  rw [findKeyword, keywordFrom?_here hkeyword hname h]

/-- At the end of a text no keyword is found. -/
theorem FollowedBy.findKeyword_end (h : c.FollowedBy []) (hkeyword : keyword ≠ []) :
    c.findKeyword keyword = (none, c.moveTo text.length) := by
  rw [findKeyword]
  cases hfound : keywordFrom? keyword text c.pos with
  | none => rfl
  | some found =>
    have hbounds := keywordFrom?_bounds hfound
    have hlength := h.length
    have hpos := List.length_pos_iff.2 hkeyword
    rw [List.length_nil] at hlength
    omega

/-- No keyword stands in a blank part. -/
theorem FollowedBy.not_standsAt_blank
    (h : c.FollowedBy (s ++ r)) (hs : ∀ x ∈ s, isBlank x = true) (hkeyword : keyword ≠ [])
    (hname : ∀ x ∈ keyword, isNameChar x = true) :
    ∀ i, i < s.length → ¬ StandsAt keyword text (c.pos + i) := by
  intro i hi hstands
  obtain ⟨x, rest, rfl⟩ := List.exists_cons_of_ne_nil hkeyword
  have hoccurs := ((standsAt_iff hkeyword).1 hstands).1
  rw [← List.drop_drop, h.drop, List.drop_append_of_le_length (Nat.le_of_lt hi),
    List.drop_eq_getElem_cons hi, List.cons_append, List.cons_prefix_cons] at hoccurs
  -- its first character would be a blank
  have hx := isNameChar_eq_false_of_isBlank (hs _ (List.getElem_mem hi))
  rw [← hoccurs.1, hname x List.mem_cons_self] at hx
  exact nomatch hx

end Cursor

end SchemaDiagram
