/-
# What reading actions give

At a cursor with a known rest of the text, a reading action gives a value or a fault that depends
on this rest only, and so does the place where it leaves the cursor.

* `Cursor.offsetOf` : the offset at which a rest of a text starts;
* `Scan.readName_cases` and the others : what the single actions give;
* `scanBlock_spec`, `scanReferenceLine_spec` : the actions for the constructs of a schema give what
  is read behind a keyword.
-/
import SchemaDiagram.Proofs.Schema.LineCount
import SchemaDiagram.Proofs.Schema.Opening
import SchemaDiagram.Proofs.Schema.Reading

namespace SchemaDiagram

open Text

namespace Cursor

variable {text rest : List Char} {c c' : Cursor text}

/-- The offset at which a rest of a text starts. -/
def offsetOf (text rest : List Char) : Nat := text.length - rest.length

theorem offsetOf_append (s r : List Char) : offsetOf (s ++ r) r = s.length := by
  rw [offsetOf, List.length_append, Nat.add_sub_cancel]

theorem FollowedBy.pos_eq (h : c.FollowedBy rest) : c.pos = offsetOf text rest := by
  have hlen := h.length
  unfold offsetOf
  omega

theorem FollowedBy.peek_eq (h : c.FollowedBy rest) : c.peek = rest.head? := by
  rw [peek, ← h.drop, List.head?_drop]

theorem Counted.of_counter_eq (h : c.Counted) (heq : c'.counter = c.counter) : c'.Counted := by
  rw [Counted, heq]
  exact h

end Cursor

namespace Scan

variable {text rest : List Char} {α β : Type} {c : Cursor text}

/-! ## Single actions -/

theorem bind_of_ok {m : Scan text α} {f : α → Scan text β} {a : α} {c' : Cursor text}
    (h : m c = .ok a c') : (m >>= f) c = f a c' := by
  show EStateM.bind m f c = _
  rw [EStateM.bind, h]

theorem bind_of_error {m : Scan text α} {f : α → Scan text β} {fault : ParseFault}
    {c' : Cursor text} (h : m c = .error fault c') : (m >>= f) c = .error fault c' := by
  show EStateM.bind m f c = _
  rw [EStateM.bind, h]

theorem skipBlanks_ok (hc : c.FollowedBy rest) :
    ∃ c', skipBlanks c = .ok () c' ∧ c'.FollowedBy (rest.dropWhile isBlank) ∧
      c'.counter = c.counter := by
  refine ⟨_, rfl, ?_, rfl⟩
  rw [← List.takeWhile_append_dropWhile (p := isBlank) (l := rest)] at hc
  refine hc.advance ?_
  rw [hc.rest_eq, List.takeWhile_append_dropWhile]
  rfl

theorem readName_cases (hc : c.FollowedBy rest) :
    (rest.takeWhile isNameChar = [] ∧ readName c = .error (.expectedName rest.head?) c) ∨
    (rest.takeWhile isNameChar ≠ [] ∧
      ∃ c', readName c = .ok (String.ofList (rest.takeWhile isNameChar)) c' ∧
        c'.FollowedBy (rest.dropWhile isNameChar) ∧ c'.counter = c.counter) := by
  rcases hname : rest.takeWhile isNameChar with _ | ⟨x, others⟩
  · refine Or.inl ⟨rfl, ?_⟩
    rw [readName, hc.rest_eq, hname, hc.peek_eq]
  · refine Or.inr ⟨List.cons_ne_nil _ _, c.moveTo (c.pos + (x :: others).length), ?_, ?_, rfl⟩
    · rw [readName, hc.rest_eq, hname]
    · rw [← List.takeWhile_append_dropWhile (p := isNameChar) (l := rest), hname] at hc
      exact hc.advance rfl

theorem accept_cases (x : Char) (hc : c.FollowedBy rest) :
    (∃ after c', rest = x :: after ∧ accept [x] c = .ok true c' ∧ c'.FollowedBy after ∧
      c'.counter = c.counter) ∨
    (rest.head? ≠ some x ∧ accept [x] c = .ok false c) := by
  by_cases hx : rest.head? = some x
  · obtain ⟨after, rfl⟩ := List.head?_eq_some_iff.1 hx
    refine Or.inl ⟨after, c.moveTo (c.pos + [x].length), rfl, ?_, hc.advance (s := [x]) rfl, rfl⟩
    simp [accept, hc.rest_eq, hc.within]
  · refine Or.inr ⟨hx, ?_⟩
    have hno : ¬ [x] <+: c.rest := by
      rw [hc.rest_eq]
      rintro ⟨after, rfl⟩
      exact hx rfl
    rw [accept, if_neg (by simp [hno])]

theorem expect_cases (x : Char) (hc : c.FollowedBy rest) :
    (∃ after c', rest = x :: after ∧ expect [x] c = .ok () c' ∧ c'.FollowedBy after ∧
      c'.counter = c.counter) ∨
    (rest.head? ≠ some x ∧ expect [x] c = .error (.expected [x] rest.head?) c) := by
  rcases accept_cases x hc with ⟨after, c', hrest, haccept, hc', hcounter⟩ | ⟨hx, haccept⟩
  · exact Or.inl ⟨after, c', hrest, bind_of_ok haccept, hc', hcounter⟩
  · refine Or.inr ⟨hx, (bind_of_ok haccept).trans ?_⟩
    rw [← hc.peek_eq]
    rfl

theorem readUntil_cases (x : Char) (hc : c.FollowedBy rest) :
    (∃ before after c', rest = before ++ x :: after ∧ x ∉ before ∧
      readUntil [x] c = .ok before c' ∧ c'.FollowedBy after ∧ c'.counter = c.counter) ∨
    (x ∉ rest ∧ readUntil [x] c = .error (.missingClosing [x]) c) := by
  by_cases hx : x ∈ rest
  · obtain ⟨before, after, rfl, hbefore⟩ := List.eq_append_cons_of_mem hx
    refine Or.inl ⟨before, after, c.moveTo (c.pos + before.length + [x].length), rfl, hbefore,
      ?_, ?_, rfl⟩
    · rw [readUntil, indexFrom?_char hc.drop hbefore]
      dsimp only
      rw [slice_eq_take, hc.drop, List.take_left]
    · rw [List.append_cons] at hc
      refine hc.advance ?_
      simp [Cursor.moveTo, Nat.add_assoc]
  · refine Or.inr ⟨hx, ?_⟩
    rw [readUntil, indexFrom?_char_eq_none (by rwa [hc.drop])]

theorem restOfLine_ok (hc : c.FollowedBy rest) :
    ∃ c', restOfLine c = .ok (rest.takeWhile (· ≠ '\n')) c' ∧
      c'.FollowedBy (rest.dropWhile (· ≠ '\n')) ∧ c'.counter = c.counter := by
  have hline : '\n' ∉ rest.takeWhile (· ≠ '\n') := by
    intro hmem
    simpa using List.mem_takeWhile_imp hmem
  have hend : ∀ x ∈ (rest.dropWhile (· ≠ '\n')).head?, x = '\n' := by
    intro x hx
    simpa using head?_dropWhile (· ≠ '\n') rest x hx
  rw [← List.takeWhile_append_dropWhile (p := (· ≠ '\n')) (l := rest)] at hc
  obtain ⟨line, c', hread, rfl, hpos⟩ := reads_restOfLine hline hend c hc
  refine ⟨c', hread, hc.advance hpos, ?_⟩
  unfold restOfLine at hread
  injection hread with _ hcursor
  rw [← hcursor]
  rfl

end Scan

/-! ## The constructs of a schema -/

section

open Scan

variable {text rest : List Char} {c : Cursor text}

/-- **The action for a table block** gives what is read behind the keyword, and the line on which
the body starts. -/
theorem scanBlock_spec (hc : c.FollowedBy rest) (hcounted : c.Counted) :
    ∃ c' : Cursor text, c'.FollowedBy (readBlock rest).2 ∧ c'.Counted ∧
      scanBlock c = match (readBlock rest).1 with
        | .ok (name, body) =>
          .ok (String.ofList name,
            Cursor.lineAt text (Cursor.offsetOf text (body ++ '\x7d' :: (readBlock rest).2)),
            body) c'
        | .error fault => .error fault c' := by
  obtain ⟨c₁, hskip, hc₁, hcounter₁⟩ := skipBlanks_ok hc
  rcases readName_cases hc₁ with ⟨hnil, hname⟩ | ⟨hne, c₂, hname, hc₂, hcounter₂⟩
  · rw [(BlockRead.nameless (opening_of_nameless hnil)).eq]
    refine ⟨c₁, hc₁, hcounted.of_counter_eq hcounter₁, ?_⟩
    rw [scanBlock, bind_of_ok hskip, bind_of_error hname]
  obtain ⟨c₃, hskip', hc₃, hcounter₃⟩ := skipBlanks_ok hc₂
  have hcounted₃ : c₃.Counted :=
    hcounted.of_counter_eq (hcounter₃.trans (hcounter₂.trans hcounter₁))
  rcases expect_cases '\x7b' hc₃ with ⟨inside, c₄, hrest, hexpect, hc₄, hcounter₄⟩ |
    ⟨hhead, hexpect⟩
  · have hopening : opening rest =
        ((rest.dropWhile isBlank).takeWhile isNameChar, '\x7b' :: inside) :=
      Prod.ext rfl hrest
    have hcounted₄ : c₄.Counted := hcounted₃.of_counter_eq hcounter₄
    -- the line is asked for where the body starts, and the cursor stays there
    have hline : lineHere c₄ = .ok (Cursor.lineAt text c₄.pos) (c₄.lineNumber c₄.pos).2 := by
      rw [lineHere, ← hcounted₄.lineNumber c₄.pos]
    have hc₅ : (c₄.lineNumber c₄.pos).2.FollowedBy inside := ⟨hc₄.within, hc₄.rest_eq⟩
    have hcounted₅ := hcounted₄.lineNumber_counted c₄.pos
    rcases readUntil_cases '\x7d' hc₅ with
      ⟨body, after, c₆, rfl, hbody, hread, hc₆, hcounter₆⟩ | ⟨hbrace, hread⟩
    · rw [(BlockRead.block hopening hne hbody).eq]
      refine ⟨c₆, hc₆, hcounted₅.of_counter_eq hcounter₆, ?_⟩
      rw [scanBlock, bind_of_ok hskip, bind_of_ok hname, bind_of_ok hskip', bind_of_ok hexpect,
        bind_of_ok hline, bind_of_ok hread, hc₄.pos_eq]
      rfl
    · rw [(BlockRead.unclosed hopening hne hbrace).eq]
      refine ⟨_, hc₅, hcounted₅, ?_⟩
      rw [scanBlock, bind_of_ok hskip, bind_of_ok hname, bind_of_ok hskip', bind_of_ok hexpect,
        bind_of_ok hline, bind_of_error hread]
  · have hopening : opening rest = ((rest.dropWhile isBlank).takeWhile isNameChar,
        ((rest.dropWhile isBlank).dropWhile isNameChar).dropWhile isBlank) := rfl
    rw [(BlockRead.unopened hopening hne hhead).eq]
    refine ⟨c₃, hc₃, hcounted₃, ?_⟩
    rw [scanBlock, bind_of_ok hskip, bind_of_ok hname, bind_of_ok hskip', bind_of_error hexpect]

/-- **The action for a reference line** gives what is read behind the keyword. -/
theorem scanReferenceLine_spec (hc : c.FollowedBy rest) (hcounted : c.Counted) :
    ∃ c' : Cursor text, c'.FollowedBy (readReference rest).2 ∧ c'.Counted ∧
      scanReferenceLine c = match (readReference rest).1 with
        | .ok line => .ok line c'
        | .error fault => .error fault c' := by
  obtain ⟨c₁, hskip, hc₁, hcounter₁⟩ := skipBlanks_ok hc
  -- once the colon is found, the rest of its line is the answer
  have hcolon : ∀ (name line : List Char) (c₂ : Cursor text), opening rest = (name, ':' :: line) →
      scanColon c₁ = .ok () c₂ → c₂.FollowedBy line → c₂.counter = c₁.counter →
      ∃ c' : Cursor text, c'.FollowedBy (readReference rest).2 ∧ c'.Counted ∧
        scanReferenceLine c = match (readReference rest).1 with
          | .ok line => .ok line c'
          | .error fault => .error fault c' := by
    intro name line c₂ hopening hread hc₂ hcounter₂
    obtain ⟨c₃, hline, hc₃, hcounter₃⟩ := restOfLine_ok hc₂
    rw [readReference_of_colon hopening]
    refine ⟨c₃, hc₃, hcounted.of_counter_eq (hcounter₃.trans (hcounter₂.trans hcounter₁)), ?_⟩
    rw [scanReferenceLine, bind_of_ok hskip, bind_of_ok hread, hline]
  rcases accept_cases ':' hc₁ with ⟨line, c₂, hrest, haccept, hc₂, hcounter₂⟩ | ⟨hhead, haccept⟩
  · have hopening : opening rest = ([], ':' :: line) := by
      rw [← hrest]
      refine opening_of_nameless ?_
      rw [hrest]
      rfl
    exact hcolon [] line c₂ hopening (bind_of_ok haccept) hc₂ hcounter₂
  have hnamed : (scanColon : Scan text Unit) c₁ = scanNamedColon c₁ := bind_of_ok haccept
  rcases readName_cases hc₁ with ⟨hnil, hname⟩ | ⟨hne, c₂, hname, hc₂, hcounter₂⟩
  · rw [readReference_of_no_colon (opening_of_nameless hnil) hhead, if_pos rfl]
    refine ⟨c₁, hc₁, hcounted.of_counter_eq hcounter₁, ?_⟩
    have hread : scanColon c₁ = .error (.expectedName (rest.dropWhile isBlank).head?) c₁ := by
      rw [hnamed, scanNamedColon, bind_of_error hname]
    rw [scanReferenceLine, bind_of_ok hskip, bind_of_error hread]
  obtain ⟨c₃, hskip', hc₃, hcounter₃⟩ := skipBlanks_ok hc₂
  have hread : scanColon c₁ = expect [':'] c₃ := by
    rw [hnamed, scanNamedColon, bind_of_ok hname, bind_of_ok hskip']
  rcases expect_cases ':' hc₃ with ⟨line, c₄, hrest, hexpect, hc₄, hcounter₄⟩ | ⟨hhead', hexpect⟩
  · exact hcolon _ line c₄ (Prod.ext rfl hrest) (hread.trans hexpect) hc₄
      (hcounter₄.trans (hcounter₃.trans hcounter₂))
  · have hopening : opening rest = ((rest.dropWhile isBlank).takeWhile isNameChar,
        ((rest.dropWhile isBlank).dropWhile isNameChar).dropWhile isBlank) := rfl
    rw [readReference_of_no_colon hopening hhead', if_neg hne]
    refine ⟨c₃, hc₃, hcounted.of_counter_eq (hcounter₃.trans (hcounter₂.trans hcounter₁)), ?_⟩
    rw [scanReferenceLine, bind_of_ok hskip, bind_of_error (hread.trans hexpect)]

end

end SchemaDiagram
