/-
# What stands behind a keyword

Behind the keyword of a table block or of a reference line there may be blanks, a name, and more
blanks.  What follows them decides whether there is a block or a reference line.

* `opening` : the name at the front of a text, and what follows it;
* `readBlock`, `BlockRead` : what is read behind the keyword of a table block;
* `readReference` : what is read behind the keyword of a reference line.

Main statements: `readBlock_append` and `readReference_append` : a text is read as its
continuations are, unless its end cuts the reading off.
-/
import Mathlib.Data.List.Basic
import Mathlib.Data.List.TakeWhile
import SchemaDiagram.Proofs.Schema.Keyword
import SchemaDiagram.Proofs.Text.Words
import SchemaDiagram.Schema.Fault

namespace SchemaDiagram

open Text

/-! ## Openings -/

/-- The name at the front of a text, which may be empty, and what follows it; blanks before and
behind the name are passed over. -/
def opening (text : List Char) : List Char × List Char :=
  let behind := text.dropWhile isBlank
  (behind.takeWhile isNameChar, (behind.dropWhile isNameChar).dropWhile isBlank)

section

variable {p : Char → Bool} {x : Char}

theorem length_takeWhile_add_dropWhile (p : Char → Bool) (s : List Char) :
    (s.takeWhile p).length + (s.dropWhile p).length = s.length := by
  rw [← List.length_append, List.takeWhile_append_dropWhile]

theorem dropWhile_ne_nil_of_mem {s : List Char} (hx : p x = false) (h : x ∈ s) :
    s.dropWhile p ≠ [] := by
  intro hnil
  rw [List.dropWhile_eq_nil_iff.1 hnil x h] at hx
  cases hx

theorem dropWhile_append_of_ne_nil {s : List Char} (h : s.dropWhile p ≠ []) (r : List Char) :
    (s ++ r).dropWhile p = s.dropWhile p ++ r := by
  rw [List.dropWhile_append, if_neg (by simpa using h)]

theorem takeWhile_append_of_ne_nil {s : List Char} (h : s.dropWhile p ≠ []) (r : List Char) :
    (s ++ r).takeWhile p = s.takeWhile p := by
  rw [List.takeWhile_append, if_neg]
  intro hlen
  have hsum := length_takeWhile_add_dropWhile p s
  exact h (List.length_eq_zero_iff.1 (by omega))

theorem dropWhile_append_stop (hx : p x = false) (s r : List Char) :
    (s ++ x :: r).dropWhile p = s.dropWhile p ++ x :: r := by
  rw [List.dropWhile_append]
  split
  · next hnil => simp [List.isEmpty_iff.1 hnil, hx]
  · rfl

theorem takeWhile_append_stop (hx : p x = false) (s r : List Char) :
    (s ++ x :: r).takeWhile p = s.takeWhile p := by
  rw [List.takeWhile_append]
  split
  · next hlen =>
    rw [List.takeWhile_cons_of_neg (Bool.eq_false_iff.1 hx), List.append_nil]
    exact ((List.takeWhile_prefix p).eq_of_length hlen).symm
  · rfl

theorem head?_dropWhile (p : Char → Bool) (s : List Char) :
    ∀ c ∈ (s.dropWhile p).head?, p c = false := by
  intro c hc
  have hstop := List.head?_dropWhile_not p s
  rwa [Option.mem_def.1 hc] at hstop

theorem suffix_cons_append_cons (x y : Char) (inside rest : List Char) :
    rest <:+ x :: (inside ++ y :: rest) :=
  ⟨x :: (inside ++ [y]), by simp⟩

theorem decide_ne_of_not_mem {s : List Char} (hs : x ∉ s) : ∀ c ∈ s, decide (c ≠ x) = true := by
  intro c hc
  rw [decide_eq_true_eq]
  rintro rfl
  exact hs hc

/-- A character is found where it first stands. -/
theorem takeWhile_dropWhile_ne {s : List Char} (hs : x ∉ s) (r : List Char) :
    (s ++ x :: r).takeWhile (· ≠ x) = s ∧ (s ++ x :: r).dropWhile (· ≠ x) = x :: r := by
  have hall := decide_ne_of_not_mem hs
  have hx : decide (x ≠ x) = false := by simp
  constructor
  · rw [takeWhile_append_stop hx, List.takeWhile_eq_self_iff.2 hall]
  · rw [dropWhile_append_stop hx, List.dropWhile_eq_nil_iff.2 hall, List.nil_append]

end

/-- **A text opens as its continuations do**, unless it ends before its opening does. -/
theorem opening_append {s : List Char} (h : (opening s).2 ≠ []) (r : List Char) :
    opening (s ++ r) = ((opening s).1, (opening s).2 ++ r) := by
  unfold opening at h ⊢
  dsimp only at h ⊢
  have hname : (s.dropWhile isBlank).dropWhile isNameChar ≠ [] := by
    intro hnil
    rw [hnil] at h
    exact h rfl
  have hbehind : s.dropWhile isBlank ≠ [] := by
    intro hnil
    rw [hnil] at hname
    exact hname rfl
  rw [dropWhile_append_of_ne_nil hbehind, takeWhile_append_of_ne_nil hname,
    dropWhile_append_of_ne_nil hname, dropWhile_append_of_ne_nil h]

/-- A character that is neither a blank nor in a name ends every opening. -/
theorem opening_append_stop {x : Char} (hblank : isBlank x = false) (hname : isNameChar x = false)
    (s r : List Char) : opening (s ++ x :: r) = ((opening s).1, (opening s).2 ++ x :: r) := by
  unfold opening
  dsimp only
  rw [dropWhile_append_stop hblank, takeWhile_append_stop hname, dropWhile_append_stop hname,
    dropWhile_append_stop hblank]

theorem opening_suffix (s : List Char) : (opening s).2 <:+ s :=
  ((List.dropWhile_suffix _).trans (List.dropWhile_suffix _)).trans (List.dropWhile_suffix _)

/-- A text that opens is blanks, a name, which does not go on behind them, more blanks, and what
follows. -/
theorem exists_of_opening {s name rest : List Char} (h : opening s = (name, rest)) :
    ∃ lead gap, s = lead ++ (name ++ (gap ++ rest)) ∧ (∀ c ∈ lead, isBlank c = true) ∧
      (∀ c ∈ name, isNameChar c = true) ∧ (∀ c ∈ gap, isBlank c = true) ∧
      ∀ c ∈ (gap ++ rest).head?, isNameChar c = false := by
  obtain ⟨rfl, rfl⟩ := Prod.mk.inj h
  refine ⟨s.takeWhile isBlank, ((s.dropWhile isBlank).dropWhile isNameChar).takeWhile isBlank,
    ?_, fun c hc => List.mem_takeWhile_imp hc, fun c hc => List.mem_takeWhile_imp hc,
    fun c hc => List.mem_takeWhile_imp hc, ?_⟩
  · rw [List.takeWhile_append_dropWhile, List.takeWhile_append_dropWhile,
      List.takeWhile_append_dropWhile]
  · rw [List.takeWhile_append_dropWhile]
    exact head?_dropWhile isNameChar _

/-- Where no name stands, the opening stops at the first character that is not a blank. -/
theorem opening_of_nameless {s : List Char} (h : (s.dropWhile isBlank).takeWhile isNameChar = []) :
    opening s = ([], s.dropWhile isBlank) := by
  have hname : (s.dropWhile isBlank).dropWhile isNameChar = s.dropWhile isBlank := by
    have hall := List.takeWhile_append_dropWhile (p := isNameChar) (l := s.dropWhile isBlank)
    rwa [h, List.nil_append] at hall
  rw [opening, h, hname, dropWhile_eq_self (head?_dropWhile isBlank s)]

/-- Behind a name and blanks at the end of a text, the blanks of the next text are passed over. -/
theorem opening_append_of_name {s : List Char} (hlast : ∀ c ∈ s.getLast?, isBlank c = true)
    (hname : (opening s).1 ≠ []) (h : (opening s).2 = []) (r : List Char) :
    opening (s ++ r) = ((opening s).1, r.dropWhile isBlank) := by
  unfold opening at hname h ⊢
  dsimp only at hname h ⊢
  have hbehind : s.dropWhile isBlank ≠ [] := by
    intro hnil
    rw [hnil] at hname
    exact hname rfl
  -- the last character is a blank, so the name ends before it
  have hrest : (s.dropWhile isBlank).dropWhile isNameChar ≠ [] := by
    intro hnil
    have hall := List.dropWhile_eq_nil_iff.1 hnil _ (List.getLast_mem hbehind)
    have hend := (List.dropWhile_suffix isBlank (l := s)).getLast hbehind
    have hblank := hlast _ (List.getLast?_eq_some_getLast (List.ne_nil_of_mem
      ((List.dropWhile_suffix _).subset (List.getLast_mem hbehind))))
    rw [hend, isNameChar_eq_false_of_isBlank hblank] at hall
    cases hall
  have hnil : ((s.dropWhile isBlank).dropWhile isNameChar ++ r).dropWhile isBlank =
      r.dropWhile isBlank := by
    rw [List.dropWhile_append, h]
    rfl
  rw [dropWhile_append_of_ne_nil hbehind, takeWhile_append_of_ne_nil hrest,
    dropWhile_append_of_ne_nil hrest, hnil]

/-! ## Blocks -/

/-- How the text behind a table keyword is read: the name and the body of a block or a fault, and
what follows the place where the reading ends. -/
inductive BlockRead (text : List Char) :
    Except ParseFault (List Char × List Char) → List Char → Prop
  | nameless {rest} (hopening : opening text = ([], rest)) :
    BlockRead text (.error (.expectedName rest.head?)) rest
  | unopened {name rest} (hopening : opening text = (name, rest)) (hname : name ≠ [])
    (hrest : rest.head? ≠ some '\x7b') :
    BlockRead text (.error (.expected ['\x7b'] rest.head?)) rest
  | unclosed {name rest} (hopening : opening text = (name, '\x7b' :: rest)) (hname : name ≠ [])
    (hrest : '\x7d' ∉ rest) :
    BlockRead text (.error (.missingClosing ['\x7d'])) rest
  | block {name body rest} (hopening : opening text = (name, '\x7b' :: (body ++ '\x7d' :: rest)))
    (hname : name ≠ []) (hbody : '\x7d' ∉ body) :
    BlockRead text (.ok (name, body)) rest

/-- Reads a name and a body in braces at the front of a text, and gives what follows the place
where the reading ends. -/
def readBlock (text : List Char) : Except ParseFault (List Char × List Char) × List Char :=
  let name := (opening text).1
  let rest := (opening text).2
  if name = [] then (.error (.expectedName rest.head?), rest)
  else if rest.head? ≠ some '\x7b' then (.error (.expected ['\x7b'] rest.head?), rest)
  else if '\x7d' ∉ rest.tail then (.error (.missingClosing ['\x7d']), rest.tail)
  else (.ok (name, rest.tail.takeWhile (· ≠ '\x7d')), (rest.tail.dropWhile (· ≠ '\x7d')).tail)

/-- What is read is read in one way only. -/
theorem BlockRead.eq {text rest : List Char} {read : Except ParseFault (List Char × List Char)}
    (h : BlockRead text read rest) : readBlock text = (read, rest) := by
  cases h with
  | nameless hopening => simp [readBlock, hopening]
  | unopened hopening hname hrest => simp [readBlock, hopening, hname, hrest]
  | unclosed hopening hname hrest => simp [readBlock, hopening, hname, hrest]
  | block hopening hname hbody =>
    obtain ⟨htake, hdrop⟩ := takeWhile_dropWhile_ne hbody rest
    unfold readBlock
    dsimp only
    rw [hopening]
    simp only [List.head?_cons, List.tail_cons, htake, hdrop]
    simp [hname]

/-- Every text is read in some way. -/
theorem blockRead_readBlock (text : List Char) :
    BlockRead text (readBlock text).1 (readBlock text).2 := by
  rcases hopening : opening text with ⟨name, rest⟩
  by_cases hname : name = []
  · subst hname
    have hread := BlockRead.nameless hopening
    rwa [hread.eq]
  by_cases hrest : rest.head? = some '\x7b'
  · obtain ⟨inside, rfl⟩ := List.head?_eq_some_iff.1 hrest
    by_cases hinside : '\x7d' ∈ inside
    · obtain ⟨body, rest, rfl, hbody⟩ := List.eq_append_cons_of_mem hinside
      have hread := BlockRead.block hopening hname hbody
      rwa [hread.eq]
    · have hread := BlockRead.unclosed hopening hname hinside
      rwa [hread.eq]
  · have hread := BlockRead.unopened hopening hname hrest
    rwa [hread.eq]

/-- Behind a name that is read there is a body in braces. -/
theorem opening_of_readBlock {text name body rest : List Char}
    (h : readBlock text = (.ok (name, body), rest)) :
    opening text = (name, '\x7b' :: (body ++ '\x7d' :: rest)) ∧ name ≠ [] ∧ '\x7d' ∉ body := by
  have hread := blockRead_readBlock text
  rw [h] at hread
  cases hread with
  | block hopening hname hbody => exact ⟨hopening, hname, hbody⟩

/-- A block is cut off when the text ends before its brace opens, or before its brace closes. -/
def BlockCutOff (text : List Char) : Prop :=
  (opening text).2 = [] ∨ (readBlock text).1 = .error (.missingClosing ['\x7d'])

/-- **A block is read in the same way** however a text goes on that does not cut it off. -/
theorem readBlock_append {s : List Char} (h : ¬ BlockCutOff s) (r : List Char) :
    readBlock (s ++ r) = ((readBlock s).1, (readBlock s).2 ++ r) := by
  have hread := blockRead_readBlock s
  obtain ⟨hne, hclosed⟩ := not_or.1 h
  have hopening' := opening_append hne r
  generalize (readBlock s).1 = read, (readBlock s).2 = rest at hread hclosed ⊢
  refine BlockRead.eq ?_
  cases hread with
  | nameless hopening =>
    rw [hopening] at hopening' hne
    rw [← List.head?_append_of_ne_nil _ hne]
    exact .nameless hopening'
  | unopened hopening hname hrest =>
    rw [hopening] at hopening' hne
    rw [← List.head?_append_of_ne_nil _ hne] at hrest ⊢
    exact .unopened hopening' hname hrest
  | unclosed hopening hname hrest => exact absurd rfl hclosed
  | block hopening hname hbody =>
    rw [hopening] at hopening'
    simp only [List.cons_append, List.append_assoc] at hopening'
    exact .block hopening' hname hbody

/-! ## Reference lines -/

/-- Reads the part of a reference line behind its colon, and gives what follows the place where
the reading ends. -/
def readReference (text : List Char) : Except ParseFault (List Char) × List Char :=
  let name := (opening text).1
  let rest := (opening text).2
  if rest.head? = some ':' then
    (.ok (rest.tail.takeWhile (· ≠ '\n')), rest.tail.dropWhile (· ≠ '\n'))
  else (.error (if name = [] then .expectedName rest.head? else .expected [':'] rest.head?), rest)

theorem readReference_of_colon {text name line : List Char}
    (h : opening text = (name, ':' :: line)) :
    readReference text = (.ok (line.takeWhile (· ≠ '\n')), line.dropWhile (· ≠ '\n')) := by
  simp [readReference, h]

theorem readReference_of_no_colon {text name rest : List Char} (h : opening text = (name, rest))
    (hrest : rest.head? ≠ some ':') :
    readReference text =
      (.error (if name = [] then .expectedName rest.head? else .expected [':'] rest.head?),
        rest) := by
  simp [readReference, h, hrest]

/-- **A reference line is read in the same way** when its text goes on with another line, unless
the end of the text cuts its opening off. -/
theorem readReference_append {s : List Char} (h : (opening s).2 ≠ []) (r : List Char) :
    readReference (s ++ '\n' :: r) =
      ((readReference s).1, (readReference s).2 ++ '\n' :: r) := by
  have hopening := opening_append h ('\n' :: r)
  rcases hs : opening s with ⟨name, rest⟩
  rw [hs] at h hopening
  by_cases hcolon : rest.head? = some ':'
  · obtain ⟨line, rfl⟩ := List.head?_eq_some_iff.1 hcolon
    have hopening : opening (s ++ '\n' :: r) = (name, ':' :: (line ++ '\n' :: r)) := hopening
    rw [readReference_of_colon hopening, readReference_of_colon hs]
    rw [takeWhile_append_stop (by decide), dropWhile_append_stop (by decide)]
  · have hhead : (rest ++ '\n' :: r).head? = rest.head? := List.head?_append_of_ne_nil _ h
    rw [readReference_of_no_colon hopening (by rwa [hhead]), readReference_of_no_colon hs hcolon,
      hhead]

end SchemaDiagram
