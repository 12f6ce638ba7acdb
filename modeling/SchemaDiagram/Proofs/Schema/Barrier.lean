/-
# A character that no reading passes

A character that is neither a blank, nor in a name, nor part of what is expected bars the way of a
reading action: whatever stands behind it, the action gives the same value or the same fault.

* `Scan.Barred` : an action gives the same in front of the same character, closed under
  sequencing;
* `scanExpression_barred`, `Relationship.ofExpression_barred` : relationships in front of such a
  character;
* `readBlock_append_of_cutOff` : a block that a brace cuts off takes this brace along;
* `readReference_append_brace` : a reference line before a brace.
-/
import SchemaDiagram.Proofs.Schema.ActionCases

namespace SchemaDiagram

open Text

namespace Scan

variable {x : Char} {text text' : List Char} {α β : Type}

/-- Two actions are barred by a character when at cursors with the same text before this character
they give the same value and leave such cursors, or they give the same fault. -/
def Barred (x : Char) (m : Scan text α) (m' : Scan text' α) : Prop :=
  ∀ (s r r' : List Char) (c : Cursor text) (c' : Cursor text'),
    c.FollowedBy (s ++ x :: r) → c'.FollowedBy (s ++ x :: r') →
      (∃ a t d d', m c = .ok a d ∧ m' c' = .ok a d' ∧ d.FollowedBy (t ++ x :: r) ∧
        d'.FollowedBy (t ++ x :: r')) ∨
      ∃ fault d d', m c = .error fault d ∧ m' c' = .error fault d'

theorem barred_pure (a : α) : Barred x (pure a : Scan text α) (pure a : Scan text' α) :=
  fun s _ _ c c' hc hc' => Or.inl ⟨a, s, c, c', rfl, rfl, hc, hc'⟩

/-- **A sequence** is barred when its parts are. -/
theorem Barred.bind {m : Scan text α} {m' : Scan text' α} {f : α → Scan text β}
    {f' : α → Scan text' β} (hm : Barred x m m') (hf : ∀ a, Barred x (f a) (f' a)) :
    Barred x (m >>= f) (m' >>= f') := by
  intro s r r' c c' hc hc'
  rcases hm s r r' c c' hc hc' with ⟨a, t, d, d', hm, hm', hd, hd'⟩ | ⟨fault, d, d', hm, hm'⟩
  · rw [bind_of_ok hm, bind_of_ok hm']
    exact hf a t r r' d d' hd hd'
  · exact Or.inr ⟨fault, d, d', bind_of_error hm, bind_of_error hm'⟩

/-! ## Single actions -/

/-- A fault that names the character under the cursor is the same. -/
theorem barred_throw (fault : Option Char → ParseFault) :
    Barred x (do throw (fault (← get).peek) : Scan text α)
      (do throw (fault (← get).peek) : Scan text' α) := by
  intro s r r' c c' hc hc'
  have hpeek : c'.peek = c.peek := by
    rw [hc.peek_eq, hc'.peek_eq]
    cases s <;> rfl
  exact Or.inr ⟨fault c.peek, c, c', rfl, by rw [← hpeek]; rfl⟩

theorem barred_skipBlanks (hx : isBlank x = false) :
    Barred x (skipBlanks : Scan text Unit) (skipBlanks : Scan text' Unit) := by
  intro s r r' c c' hc hc'
  obtain ⟨d, hskip, hd, -⟩ := skipBlanks_ok hc
  obtain ⟨d', hskip', hd', -⟩ := skipBlanks_ok hc'
  rw [dropWhile_append_stop hx] at hd hd'
  exact Or.inl ⟨(), s.dropWhile isBlank, d, d', hskip, hskip', hd, hd'⟩

theorem barred_readName (hx : isNameChar x = false) :
    Barred x (readName : Scan text String) (readName : Scan text' String) := by
  intro s r r' c c' hc hc'
  have hhead : (s ++ x :: r').head? = (s ++ x :: r).head? := by
    cases s <;> rfl
  rcases readName_cases hc with ⟨hnil, hread⟩ | ⟨hne, d, hread, hd, -⟩
  · rcases readName_cases hc' with ⟨-, hread'⟩ | ⟨hne', -⟩
    · rw [hhead] at hread'
      exact Or.inr ⟨_, c, c', hread, hread'⟩
    · rw [takeWhile_append_stop hx] at hnil hne'
      exact absurd hnil hne'
  · rcases readName_cases hc' with ⟨hnil', -⟩ | ⟨-, d', hread', hd', -⟩
    · rw [takeWhile_append_stop hx] at hne hnil'
      exact absurd hnil' hne
    · rw [dropWhile_append_stop hx] at hd hd'
      rw [takeWhile_append_stop hx] at hread hread'
      exact Or.inl ⟨_, s.dropWhile isNameChar, d, d', hread, hread', hd, hd'⟩

theorem barred_accept {literal : List Char} (hx : x ∉ literal) :
    Barred x (accept literal : Scan text Bool) (accept literal : Scan text' Bool) := by
  intro s r r' c c' hc hc'
  by_cases hliteral : literal <+: s
  · obtain ⟨t, rfl⟩ := hliteral
    rw [List.append_assoc] at hc hc'
    refine Or.inl ⟨true, t, c.moveTo (c.pos + literal.length), c'.moveTo (c'.pos + literal.length),
      ?_, ?_, hc.advance rfl, hc'.advance rfl⟩
    · simp [accept, hc.rest_eq, hc.within]
    · simp [accept, hc'.rest_eq, hc'.within]
  · have hno : ¬ literal <+: c.rest := by
      rwa [hc.rest_eq, prefix_append_cons_iff hx]
    have hno' : ¬ literal <+: c'.rest := by
      rwa [hc'.rest_eq, prefix_append_cons_iff hx]
    refine Or.inl ⟨false, s, c, c', ?_, ?_, hc, hc'⟩
    · rw [accept, if_neg (by simp [hno])]
    · rw [accept, if_neg (by simp [hno'])]

theorem barred_expect {literal : List Char} (hx : x ∉ literal) :
    Barred x (expect literal : Scan text Unit) (expect literal : Scan text' Unit) := by
  refine (barred_accept hx).bind fun found => ?_
  cases found with
  | true => exact barred_pure ()
  | false => exact barred_throw (.expected literal)

theorem barred_readQualifiedName (hname : isNameChar x = false) (hx : x ≠ '.') :
    Barred x (readQualifiedName : Scan text (String × String))
      (readQualifiedName : Scan text' (String × String)) := by
  have hpoint : x ∉ ['.'] := by simpa using hx
  exact (barred_readName hname).bind fun _ => (barred_expect hpoint).bind fun _ =>
    (barred_readName hname).bind fun _ => barred_pure _

end Scan

/-! ## Relationships -/

section

open Scan

variable {x : Char} {text text' : List Char}

theorem scanOperator_barred (hx : x ∉ ['<', '>', '-']) :
    Barred x (scanOperator : Scan text Cardinality) (scanOperator : Scan text' Cardinality) := by
  have hboth : x ∉ ['<', '>'] := by simp_all
  have hmore : x ∉ ['>'] := by simp_all
  have hless : x ∉ ['<'] := by simp_all
  have hdash : x ∉ ['-'] := by simp_all
  refine (barred_accept hboth).bind fun found => ?_
  cases found with
  | true => exact barred_pure _
  | false =>
  refine (barred_accept hmore).bind fun found => ?_
  cases found with
  | true => exact barred_pure _
  | false =>
  refine (barred_accept hless).bind fun found => ?_
  cases found with
  | true => exact barred_pure _
  | false =>
  refine (barred_accept hdash).bind fun found => ?_
  cases found with
  | true => exact barred_pure _
  | false => exact barred_throw .expectedOperator

theorem scanExpression_barred (hblank : isBlank x = false) (hname : isNameChar x = false)
    (hx : x ∉ ['.', '<', '>', '-']) :
    Barred x (scanExpression : Scan text Relationship)
      (scanExpression : Scan text' Relationship) := by
  have hpoint : x ≠ '.' := by simp_all
  have hsign : x ∉ ['<', '>', '-'] := by simp_all
  exact (barred_skipBlanks hblank).bind fun _ =>
    (barred_readQualifiedName hname hpoint).bind fun _ =>
    (barred_skipBlanks hblank).bind fun _ => (scanOperator_barred hsign).bind fun _ =>
    (barred_skipBlanks hblank).bind fun _ =>
    (barred_readQualifiedName hname hpoint).bind fun _ => barred_pure _

/-- **A relationship** does not depend on what stands behind such a character. -/
theorem Relationship.ofExpression_barred (hblank : isBlank x = false)
    (hname : isNameChar x = false) (hx : x ∉ ['.', '<', '>', '-']) (s r r' : List Char) :
    Relationship.ofExpression (s ++ x :: r) = Relationship.ofExpression (s ++ x :: r') := by
  unfold Relationship.ofExpression
  rcases scanExpression_barred hblank hname hx s r r' (Cursor.startAt _ 0) (Cursor.startAt _ 0)
    (Cursor.startAt_followedBy _) (Cursor.startAt_followedBy _) with
    ⟨e, -, d, d', hread, hread', -⟩ | ⟨fault, d, d', hread, hread'⟩
  · rw [hread, hread']
  · rw [hread, hread']

end

/-! ## Blocks -/

/-- **A block that an opening brace cuts off** is read at least up to this brace, if a closing one
follows. -/
theorem readBlock_append_of_cutOff {s r : List Char} (h : BlockCutOff s) (hr : '\x7d' ∈ r) :
    (readBlock (s ++ '\x7b' :: r)).2 <:+ '\x7b' :: r := by
  obtain ⟨inside, rest, rfl, hinside⟩ := List.eq_append_cons_of_mem hr
  have hsuffix := suffix_cons_append_cons '\x7b' '\x7d' inside rest
  have hopening := opening_append_stop (x := '\x7b') (by decide) (by decide) s
    (inside ++ '\x7d' :: rest)
  rcases h with hnil | hclosing
  · rw [hnil] at hopening
    by_cases hname : (opening s).1 = []
    · rw [hname] at hopening
      rw [(BlockRead.nameless hopening).eq]
      exact List.suffix_rfl
    · rw [(BlockRead.block hopening hname hinside).eq]
      exact hsuffix
  · have hread := blockRead_readBlock s
    rw [hclosing] at hread
    generalize (readBlock s).2 = own at hread
    cases hread with
    | @unclosed name _ hown hname hclosed =>
      -- the body takes the opening brace along, and ends at the closing one
      have hbody : '\x7d' ∉ own ++ '\x7b' :: inside := by
        simp [hclosed, hinside]
      have hopening : opening (s ++ '\x7b' :: (inside ++ '\x7d' :: rest)) =
          (name, '\x7b' :: (own ++ '\x7b' :: inside ++ '\x7d' :: rest)) := by
        rw [hopening, hown]
        simp
      rw [(BlockRead.block hopening hname hbody).eq]
      exact hsuffix

/-! ## Reference lines -/

/-- **A reference line before an opening brace** ends before the brace, or the brace is on the
line. -/
theorem readReference_append_brace (s : List Char) :
    (∃ read rest, rest <:+ s ∧
      ∀ r, readReference (s ++ '\x7b' :: r) = (read, rest ++ '\x7b' :: r)) ∨
    ∃ line, ∀ r, readReference (s ++ '\x7b' :: r) =
      (.ok (line ++ '\x7b' :: r.takeWhile (· ≠ '\n')), ('\x7b' :: r).dropWhile (· ≠ '\n')) := by
  have hopening : ∀ r, opening (s ++ '\x7b' :: r) =
      ((opening s).1, (opening s).2 ++ '\x7b' :: r) :=
    opening_append_stop (by decide) (by decide) s
  have hsuffix := opening_suffix s
  rcases hown : opening s with ⟨name, own⟩
  rw [hown] at hsuffix hopening
  by_cases hcolon : own.head? = some ':'
  · obtain ⟨line, rfl⟩ := List.head?_eq_some_iff.1 hcolon
    have hread : ∀ r, readReference (s ++ '\x7b' :: r) =
        (.ok ((line ++ '\x7b' :: r).takeWhile (· ≠ '\n')),
          (line ++ '\x7b' :: r).dropWhile (· ≠ '\n')) := fun r =>
      readReference_of_colon (hopening r)
    by_cases hnewline : '\n' ∈ line
    · have hstop : line.dropWhile (· ≠ '\n') ≠ [] := dropWhile_ne_nil_of_mem (by simp) hnewline
      refine Or.inl ⟨.ok (line.takeWhile (· ≠ '\n')), line.dropWhile (· ≠ '\n'),
        (List.dropWhile_suffix _).trans ((List.suffix_cons _ _).trans hsuffix), fun r => ?_⟩
      rw [hread, takeWhile_append_of_ne_nil hstop, dropWhile_append_of_ne_nil hstop]
    · have hall := decide_ne_of_not_mem hnewline
      refine Or.inr ⟨line, fun r => ?_⟩
      rw [hread, List.takeWhile_append_of_pos hall, List.takeWhile_cons_of_pos (by decide),
        List.dropWhile_append_of_pos hall]
  · have hhead : ∀ r, (own ++ '\x7b' :: r).head? = (own ++ ['\x7b']).head? := by
      intro r
      cases own <;> rfl
    have hno : (own ++ ['\x7b']).head? ≠ some ':' := by
      cases own with
      | nil => decide
      | cons c own => exact hcolon
    have hread : ∀ r, readReference (s ++ '\x7b' :: r) =
        (.error (if name = [] then .expectedName (own ++ ['\x7b']).head?
          else .expected [':'] (own ++ ['\x7b']).head?), own ++ '\x7b' :: r) := by
      intro r
      rw [readReference_of_no_colon (hopening r) (by rwa [hhead]), hhead]
    exact Or.inl ⟨_, own, hsuffix, hread⟩

end SchemaDiagram
