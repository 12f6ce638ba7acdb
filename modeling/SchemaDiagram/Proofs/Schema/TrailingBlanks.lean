/-
# Blanks behind a relationship

Blanks at the end of the part of a reference line that says a relationship do not matter: the same
relationship is read, or the same fault is noticed, except that a blank may be found where the text
ended before.

* `ParseFault.withoutFound`, `Issue.withoutFound` : a fault with the character found left out;
* `Scan.Overlooks` : an action gives the same in front of more blanks, closed under sequencing;
* `Relationship.ofExpression_append_blanks` : a relationship with blanks behind it.
-/
import SchemaDiagram.Proofs.Schema.ActionCases
import SchemaDiagram.Schema.ReferenceLine

namespace SchemaDiagram

open Text

/-- The same fault with the character found left out. -/
def ParseFault.withoutFound : ParseFault → ParseFault
  | .expectedName _ => .expectedName none
  | .expected literal _ => .expected literal none
  | .missingClosing terminator => .missingClosing terminator
  | .expectedOperator _ => .expectedOperator none
  | .unsupportedDirection setting => .unsupportedDirection setting
  | .textAfterReference setting => .textAfterReference setting

/-- The same cause with the character found left out. -/
def IssueCause.withoutFound : IssueCause → IssueCause
  | .table fault => .table fault.withoutFound
  | .field name fault => .field name fault.withoutFound
  | .reference fault => .reference fault.withoutFound
  | .redefinition name => .redefinition name

/-- The same issue with the character found left out. -/
def Issue.withoutFound (i : Issue) : Issue := ⟨i.line, i.cause.withoutFound⟩

namespace Scan

variable {text text' : List Char} {α β : Type}

/-- Two actions overlook blanks when, at cursors with the same text to the end but for blanks, they
give the same value and leave such cursors, or they give faults that differ in the character found
only. -/
def Overlooks (m : Scan text α) (m' : Scan text' α) : Prop :=
  ∀ (s blanks : List Char) (c : Cursor text) (c' : Cursor text'),
    (∀ x ∈ blanks, isBlank x = true) → c.FollowedBy s → c'.FollowedBy (s ++ blanks) →
      (∃ a t rest d d', m c = .ok a d ∧ m' c' = .ok a d' ∧ (∀ x ∈ rest, isBlank x = true) ∧
        d.FollowedBy t ∧ d'.FollowedBy (t ++ rest)) ∨
      ∃ fault fault' d d', m c = .error fault d ∧ m' c' = .error fault' d' ∧
        fault'.withoutFound = fault.withoutFound

theorem overlooks_pure (a : α) : Overlooks (pure a : Scan text α) (pure a : Scan text' α) :=
  fun s blanks c c' hblanks hc hc' => Or.inl ⟨a, s, blanks, c, c', rfl, rfl, hblanks, hc, hc'⟩

/-- **A sequence** overlooks blanks when its parts do. -/
theorem Overlooks.bind {m : Scan text α} {m' : Scan text' α} {f : α → Scan text β}
    {f' : α → Scan text' β} (hm : Overlooks m m') (hf : ∀ a, Overlooks (f a) (f' a)) :
    Overlooks (m >>= f) (m' >>= f') := by
  intro s blanks c c' hblanks hc hc'
  rcases hm s blanks c c' hblanks hc hc' with
    ⟨a, t, rest, d, d', hm, hm', hrest, hd, hd'⟩ | ⟨fault, fault', d, d', hm, hm', hfault⟩
  · rw [bind_of_ok hm, bind_of_ok hm']
    exact hf a t rest d d' hrest hd hd'
  · exact Or.inr ⟨fault, fault', d, d', bind_of_error hm, bind_of_error hm', hfault⟩

/-! ## Single actions -/

/-- A fault that names the character under the cursor is the same but for this character. -/
theorem overlooks_throw {fault : Option Char → ParseFault}
    (h : ∀ found found', (fault found').withoutFound = (fault found).withoutFound) :
    Overlooks (do throw (fault (← get).peek) : Scan text α)
      (do throw (fault (← get).peek) : Scan text' α) := by
  intro s blanks c c' _ _ _
  exact Or.inr ⟨fault c.peek, fault c'.peek, c, c', rfl, rfl, h _ _⟩

/-- In front of more blanks, blanks are passed over as before, or to the end. -/
theorem overlooks_skipBlanks :
    Overlooks (skipBlanks : Scan text Unit) (skipBlanks : Scan text' Unit) := by
  intro s blanks c c' hblanks hc hc'
  obtain ⟨d, hskip, hd, -⟩ := skipBlanks_ok hc
  obtain ⟨d', hskip', hd', -⟩ := skipBlanks_ok hc'
  by_cases hnil : s.dropWhile isBlank = []
  · rw [List.dropWhile_append, hnil, List.isEmpty_nil, if_pos rfl,
      List.dropWhile_eq_nil_iff.2 hblanks] at hd'
    rw [hnil] at hd
    exact Or.inl ⟨(), [], [], d, d', hskip, hskip', List.forall_mem_nil _, hd, hd'⟩
  · rw [dropWhile_append_of_ne_nil hnil] at hd'
    exact Or.inl ⟨(), s.dropWhile isBlank, blanks, d, d', hskip, hskip', hblanks, hd, hd'⟩

/-- No name goes on in blanks behind it. -/
theorem span_append_blanks {blanks : List Char} (hblanks : ∀ x ∈ blanks, isBlank x = true)
    (s : List Char) :
    (s ++ blanks).takeWhile isNameChar = s.takeWhile isNameChar ∧
      (s ++ blanks).dropWhile isNameChar = s.dropWhile isNameChar ++ blanks := by
  cases blanks with
  | nil => simp
  | cons b blanks =>
    have hb := isNameChar_eq_false_of_isBlank (hblanks b List.mem_cons_self)
    exact ⟨takeWhile_append_stop hb s blanks, dropWhile_append_stop hb s blanks⟩

theorem overlooks_readName :
    Overlooks (readName : Scan text String) (readName : Scan text' String) := by
  intro s blanks c c' hblanks hc hc'
  obtain ⟨htake, hdrop⟩ := span_append_blanks hblanks s
  rcases readName_cases hc with ⟨hnil, hread⟩ | ⟨hne, d, hread, hd, -⟩
  · rcases readName_cases hc' with ⟨-, hread'⟩ | ⟨hne', -⟩
    · exact Or.inr ⟨_, _, c, c', hread, hread', rfl⟩
    · exact absurd (htake.trans hnil) hne'
  · rcases readName_cases hc' with ⟨hnil', -⟩ | ⟨-, d', hread', hd', -⟩
    · exact absurd (htake.symm.trans hnil') hne
    · rw [htake] at hread'
      rw [hdrop] at hd'
      exact Or.inl ⟨_, _, blanks, d, d', hread, hread', hblanks, hd, hd'⟩

/-- What has no blank is not made up with blanks behind a text. -/
theorem prefix_append_blanks_iff {blanks literal : List Char}
    (hblanks : ∀ x ∈ blanks, isBlank x = true) (hliteral : ∀ x ∈ literal, isBlank x = false)
    (s : List Char) : literal <+: s ++ blanks ↔ literal <+: s := by
  cases blanks with
  | nil => rw [List.append_nil]
  | cons b blanks =>
    refine prefix_append_cons_iff (fun hmem => ?_) blanks
    have hb := hblanks b List.mem_cons_self
    rw [hliteral b hmem] at hb
    cases hb

theorem overlooks_accept {literal : List Char} (hliteral : ∀ x ∈ literal, isBlank x = false) :
    Overlooks (accept literal : Scan text Bool) (accept literal : Scan text' Bool) := by
  intro s blanks c c' hblanks hc hc'
  by_cases hnext : literal <+: s
  · obtain ⟨t, rfl⟩ := hnext
    rw [List.append_assoc] at hc'
    refine Or.inl ⟨true, t, blanks, c.moveTo (c.pos + literal.length),
      c'.moveTo (c'.pos + literal.length), ?_, ?_, hblanks, hc.advance rfl, hc'.advance rfl⟩
    · simp [accept, hc.rest_eq, hc.within]
    · simp [accept, hc'.rest_eq, hc'.within]
  · have hno : ¬ literal <+: c.rest := by rwa [hc.rest_eq]
    have hno' : ¬ literal <+: c'.rest := by
      rwa [hc'.rest_eq, prefix_append_blanks_iff hblanks hliteral]
    refine Or.inl ⟨false, s, blanks, c, c', ?_, ?_, hblanks, hc, hc'⟩
    · rw [accept, if_neg (by simp [hno])]
    · rw [accept, if_neg (by simp [hno'])]

theorem overlooks_expect {literal : List Char} (hliteral : ∀ x ∈ literal, isBlank x = false) :
    Overlooks (expect literal : Scan text Unit) (expect literal : Scan text' Unit) := by
  refine (overlooks_accept hliteral).bind fun found => ?_
  cases found with
  | true => exact overlooks_pure ()
  | false => exact @overlooks_throw text text' Unit (.expected literal) fun _ _ => rfl

theorem overlooks_readQualifiedName :
    Overlooks (readQualifiedName : Scan text (String × String))
      (readQualifiedName : Scan text' (String × String)) :=
  overlooks_readName.bind fun _ => (overlooks_expect (by decide)).bind fun _ =>
    overlooks_readName.bind fun _ => overlooks_pure _

end Scan

/-! ## Relationships -/

section

open Scan

variable {text text' : List Char}

theorem scanOperator_overlooks :
    Overlooks (scanOperator : Scan text Cardinality) (scanOperator : Scan text' Cardinality) := by
  refine (overlooks_accept (by decide)).bind fun found => ?_
  cases found with
  | true => exact overlooks_pure _
  | false =>
  refine (overlooks_accept (by decide)).bind fun found => ?_
  cases found with
  | true => exact overlooks_pure _
  | false =>
  refine (overlooks_accept (by decide)).bind fun found => ?_
  cases found with
  | true => exact overlooks_pure _
  | false =>
  refine (overlooks_accept (by decide)).bind fun found => ?_
  cases found with
  | true => exact overlooks_pure _
  | false => exact overlooks_throw fun _ _ => rfl

theorem scanExpression_overlooks :
    Overlooks (scanExpression : Scan text Relationship)
      (scanExpression : Scan text' Relationship) :=
  overlooks_skipBlanks.bind fun _ => overlooks_readQualifiedName.bind fun _ =>
    overlooks_skipBlanks.bind fun _ => scanOperator_overlooks.bind fun _ =>
    overlooks_skipBlanks.bind fun _ => overlooks_readQualifiedName.bind fun _ =>
    overlooks_pure _

/-- **A relationship** with blanks behind it is the same, and so is a fault but for the character
found. -/
theorem Relationship.ofExpression_append_blanks {blanks : List Char}
    (hblanks : ∀ x ∈ blanks, isBlank x = true) (s : List Char) :
    (Relationship.ofExpression (s ++ blanks)).mapError ParseFault.withoutFound =
      (Relationship.ofExpression s).mapError ParseFault.withoutFound := by
  unfold Relationship.ofExpression
  rcases scanExpression_overlooks s blanks (Cursor.startAt s 0) (Cursor.startAt _ 0) hblanks
    (Cursor.startAt_followedBy _) (Cursor.startAt_followedBy _) with
    ⟨e, -, -, d, d', hread, hread', -⟩ | ⟨fault, fault', d, d', hread, hread', hfault⟩
  · rw [hread, hread']
  · rw [hread, hread']
    exact congrArg Except.error hfault

end

end SchemaDiagram
