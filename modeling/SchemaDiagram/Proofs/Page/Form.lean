/-
# Lines as forms

What is fixed in a line of a page is its markup; its texts can be anything, but they are written
without a character that has a meaning in markup.  A line is a form of known characters and holes,
and how often a word with a mark in it occurs can be read off the form.

* `formOf`, `Fills` : the form of a line, and the texts that fill a form;
* `fills_write` : what is written for a line fills its form;
* `formOf_indentedLine`, `formOf_attr`, `formOf_textAttr` : the forms of what lines are built from;
* `Token`, `Token.tally` : a word with a mark in it, and how often a form has it;
* `Token.occurrences_of_tally` : every text that fills the form has it so often.
-/
import SchemaDiagram.Page.Markup
import SchemaDiagram.Proofs.Text.Occurrences

namespace SchemaDiagram

open Text

/-! ## Marks -/

/-- Whether a character has a meaning in markup. -/
def isMark (c : Char) : Bool := c == '<' || c == '>' || c == '\x22' || c == '\x27'

/-- Whether no character of a text is a mark. -/
def Plain (text : List Char) : Prop := ∀ c ∈ text, isMark c = false

/-- A text that is given by its characters. -/
theorem plain_ofList {s : String} {l : List Char} (hs : s = String.ofList l)
    (hl : (l.all fun c => !isMark c) = true) : Plain s.toList := by
  rw [hs, String.toList_ofList]
  intro c hc
  have hmark := List.all_eq_true.1 hl c hc
  rwa [Bool.not_eq_true'] at hmark

/-! ## Forms -/

/-- Known characters, with holes between them. -/
abbrev Form := List (Option Char)

/-- The form of a piece: its markup is known, its text is a hole. -/
def Piece.form : Piece → Form
  | .markup s => s.toList.map some
  | .text _ => [none]

/-- The form of a line. -/
def formOf (line : List Piece) : Form := line.flatMap Piece.form

/-- That a text is a form with a plain text in every hole. -/
inductive Fills : Form → List Char → Prop
  | nil : Fills [] []
  | known {form : Form} {text : List Char} (c : Char) (h : Fills form text) :
      Fills (some c :: form) (c :: text)
  | hole {form : Form} {text inside : List Char} (hinside : Plain inside) (h : Fills form text) :
      Fills (none :: form) (inside ++ text)

theorem Fills.append {first second : Form} {text rest : List Char} (h : Fills first text)
    (hrest : Fills second rest) : Fills (first ++ second) (text ++ rest) := by
  induction h with
  | nil => exact hrest
  | known c h ih => exact ih.known c
  | hole hinside h ih =>
    rw [List.append_assoc]
    exact ih.hole hinside

theorem Fills.map_some (text : List Char) : Fills (text.map some) text := by
  induction text with
  | nil => exact .nil
  | cons c text ih => exact ih.known c

/-! ## Written lines -/

namespace Piece

/-- The text for a character has no mark in it. -/
theorem plain_escapeChar (c : Char) : Plain (escapeChar c) := by
  unfold escapeChar Plain
  split
  · decide
  split
  · decide
  split
  · decide
  split
  · decide
  split
  · decide
  · next hlt hgt hquote hapostrophe =>
    intro d hd
    rw [List.mem_singleton] at hd
    simp [isMark, hd, hlt, hgt, hquote, hapostrophe]

/-- **User text is plain.** -/
theorem plain_flatMap_escapeChar (s : List Char) : Plain (s.flatMap escapeChar) := by
  intro c hc
  obtain ⟨d, -, hd⟩ := List.mem_flatMap.1 hc
  exact plain_escapeChar d c hd

/-- What is written for a piece fills its form. -/
theorem fills_form (p : Piece) : Fills p.form p.write := by
  cases p with
  | markup s => exact Fills.map_some s.toList
  | text s =>
    have h := Fills.hole (plain_flatMap_escapeChar s.toList) .nil
    rw [List.append_nil] at h
    exact h

end Piece

/-- **A written line** fills its form. -/
theorem fills_write (line : List Piece) : Fills (formOf line) (line.flatMap Piece.write) := by
  induction line with
  | nil => exact .nil
  | cons p line ih => exact p.fills_form.append ih

/-! ## Forms of lines -/

@[simp] theorem formOf_nil : formOf [] = [] := rfl

@[simp] theorem formOf_markup_cons (s : String) (line : List Piece) :
    formOf (.markup s :: line) = s.toList.map some ++ formOf line := rfl

/-- Every text has the same form. -/
@[simp] theorem formOf_text_cons (s : String) (line : List Piece) :
    formOf (.text s :: line) = none :: formOf line := rfl

@[simp] theorem formOf_append (first second : List Piece) :
    formOf (first ++ second) = formOf first ++ formOf second :=
  List.flatMap_append

@[simp] theorem formOf_markupLine (s : String) : formOf (markupLine s) = s.toList.map some :=
  List.append_nil (s.toList.map some)

@[simp] theorem formOf_indentedLine (depth : ℕ) (pieces : List Piece) :
    formOf (indentedLine depth pieces) = List.replicate depth (some ' ') ++ formOf pieces := by
  rw [indentedLine, formOf_markup_cons, String.toList_ofList, List.map_replicate]

@[simp] theorem formOf_attr (name : String) (value : List Piece) :
    formOf (attr name value) =
      (' ' :: (name.toList ++ ['=', '\x22'])).map some ++ (formOf value ++ [some '\x22']) := by
  rw [attr, formOf_markup_cons, formOf_append, String.toList_append, String.toList_append]
  rfl

@[simp] theorem formOf_textAttr (name value : String) :
    formOf (textAttr name value) =
      (' ' :: (name.toList ++ ['=', '\x22'])).map some ++ [none, some '\x22'] :=
  formOf_attr name [.text value]

/-! ## Words at the beginning -/

/-- Whether every text that fills a form begins with a word. -/
def meets : List Char → Form → Bool
  | [], _ => true
  | w :: word, some c :: form => w == c && meets word form
  | _ :: _, _ => false

/-- Whether a form differs from a word before its first hole. -/
def misses : List Char → Form → Bool
  | w :: word, some c :: form => w != c || misses word form
  | _ :: _, [] => true
  | _, _ => false

theorem Fills.prefix_of_meets {word text : List Char} {form : Form} (h : Fills form text)
    (hmeets : meets word form = true) : word <+: text := by
  induction h generalizing word with
  | nil =>
    cases word with
    | nil => exact List.nil_prefix
    | cons w word => exact nomatch hmeets
  | known c h ih =>
    cases word with
    | nil => exact List.nil_prefix
    | cons w word =>
      rw [meets, Bool.and_eq_true, beq_iff_eq] at hmeets
      rw [List.cons_prefix_cons]
      exact ⟨hmeets.1, ih hmeets.2⟩
  | hole hinside h ih =>
    cases word with
    | nil => exact List.nil_prefix
    | cons w word => exact nomatch hmeets

theorem Fills.not_prefix_of_misses {word text : List Char} {form : Form} (h : Fills form text)
    (hmisses : misses word form = true) : ¬word <+: text := by
  induction h generalizing word with
  | nil =>
    cases word with
    | nil => exact nomatch hmisses
    | cons w word =>
      rw [List.prefix_nil]
      exact List.cons_ne_nil w word
  | known c h ih =>
    cases word with
    | nil => exact nomatch hmisses
    | cons w word =>
      rw [misses, Bool.or_eq_true, bne_iff_ne] at hmisses
      rw [List.cons_prefix_cons]
      rintro ⟨hw, hword⟩
      exact hmisses.elim (fun hne => hne hw) fun hrest => ih hrest hword
  | hole hinside h ih =>
    cases word with
    | nil => exact nomatch hmisses
    | cons w word => exact nomatch hmisses

/-- A form without holes begins with a word or differs from it. -/
theorem misses_of_not_meets {word text : List Char} (h : meets word (text.map some) = false) :
    misses word (text.map some) = true := by
  induction word generalizing text with
  | nil => exact nomatch h
  | cons w word ih =>
    cases text with
    | nil => rfl
    | cons c text =>
      rw [List.map_cons, meets, Bool.and_eq_false_iff, beq_eq_false_iff_ne] at h
      rw [List.map_cons, misses, Bool.or_eq_true, bne_iff_ne]
      exact h.imp id fun h => ih h

/-! ## The first mark -/

/-- A text from its first mark on. -/
def fromMark (text : List Char) : List Char := text.dropWhile fun c => !isMark c

/-- A form from its first known mark on. -/
def Form.fromMark (form : Form) : Form := form.dropWhile fun c => !c.any isMark

theorem fromMark_plain_append {inside text : List Char} (hinside : Plain inside) :
    fromMark (inside ++ text) = fromMark text := by
  rw [fromMark, List.dropWhile_append_of_pos]
  · rfl
  · intro c hc
    rw [hinside c hc]
    rfl

theorem Fills.fromMark {form : Form} {text : List Char} (h : Fills form text) :
    Fills form.fromMark (SchemaDiagram.fromMark text) := by
  induction h with
  | nil => exact .nil
  | known c h ih =>
    rw [Form.fromMark, SchemaDiagram.fromMark, List.dropWhile_cons, List.dropWhile_cons,
      Option.any_some]
    split
    · exact ih
    · exact h.known c
  | hole hinside h ih =>
    rw [fromMark_plain_append hinside]
    exact ih

/-! ## Tokens -/

/-- A word with a mark in it, taken apart at its first mark. -/
structure Token where
  opening : List Char
  mark : Char
  closing : List Char
  plain_opening : Plain opening
  isMark_mark : isMark mark = true

namespace Token

variable (t : Token)

/-- The characters of a token. -/
def word : List Char := t.opening ++ t.mark :: t.closing

theorem word_ne_nil : t.word ≠ [] :=
  List.append_ne_nil_of_right_ne_nil t.opening (List.cons_ne_nil t.mark t.closing)

/-- How often a token occurs in all texts that fill a form, if that is decided by the form.  An
occurrence that begins in a hole goes on to the first mark after the hole. -/
def tally : Form → Option ℕ
  | [] => some 0
  | some c :: form =>
    if meets t.word (some c :: form) then (tally form).map (· + 1)
    else if misses t.word (some c :: form) then tally form
    else none
  | none :: form =>
    if t.opening.isEmpty || misses (t.mark :: t.closing) (Form.fromMark form) then tally form else none

variable {t}

/-- A plain text without holes has no token in it. -/
theorem tally_of_plain {text : List Char} (htext : Plain text) :
    t.tally (text.map some) = some 0 := by
  induction text with
  | nil => rfl
  | cons c text ih =>
    have hmeets : meets t.word ((c :: text).map some) = false := by
      rw [← Bool.not_eq_true]
      intro hmeets
      have hword := (Fills.map_some (c :: text)).prefix_of_meets hmeets
      have hmark := htext t.mark (hword.subset (List.mem_append_right _ List.mem_cons_self))
      rw [t.isMark_mark] at hmark
      exact nomatch hmark
    have hmisses := misses_of_not_meets hmeets
    rw [List.map_cons] at hmeets hmisses ⊢
    rw [tally, hmeets, hmisses, if_neg Bool.false_ne_true, if_pos rfl]
    exact ih fun d hd => htext d (List.mem_cons_of_mem c hd)

/-- A text that begins with a token has the rest of the token at its first mark. -/
theorem prefix_fromMark {text : List Char} (h : t.word <+: text) :
    t.mark :: t.closing <+: fromMark text := by
  obtain ⟨rest, rfl⟩ := h
  rw [word, List.append_assoc, fromMark_plain_append t.plain_opening, List.cons_append, fromMark,
    List.dropWhile_cons, t.isMark_mark]
  exact ⟨rest, rfl⟩

/-- No occurrence of a token begins in a plain text, unless the rest of the token follows it. -/
theorem occurrences_plain_append {inside text : List Char} (hinside : Plain inside)
    (h : t.opening = [] ∨ ¬t.mark :: t.closing <+: fromMark text) :
    occurrences t.word (inside ++ text) = occurrences t.word text := by
  induction inside with
  | nil => rfl
  | cons c inside ih =>
    have hnone : ¬t.word <+: c :: inside ++ text := by
      intro hword
      rcases h with hopening | hrest
      · rw [word, hopening, List.nil_append, List.cons_append, List.cons_prefix_cons] at hword
        have hmark := t.isMark_mark
        rw [hword.1, hinside c List.mem_cons_self] at hmark
        exact nomatch hmark
      · have hfrom := prefix_fromMark hword
        rw [fromMark_plain_append hinside] at hfrom
        exact hrest hfrom
    rw [← List.isPrefixOf_iff_prefix, Bool.not_eq_true] at hnone
    rw [List.cons_append, occurrences_cons, ih fun d hd => hinside d (List.mem_cons_of_mem c hd),
      ← List.cons_append, hnone]
    rfl

/-- **The tally of a form** is what every text that fills it has. -/
theorem occurrences_of_tally {form : Form} {text : List Char} {n : ℕ} (hfills : Fills form text)
    (h : t.tally form = some n) : occurrences t.word text = n := by
  induction hfills generalizing n with
  | nil => exact Option.some.inj h
  | known c hfills ih =>
    rw [tally] at h
    split at h
    · next hmeets =>
      obtain ⟨k, hk, rfl⟩ := Option.map_eq_some_iff.1 h
      have hhere := List.isPrefixOf_iff_prefix.2 ((hfills.known c).prefix_of_meets hmeets)
      rw [occurrences_cons, ih hk, hhere]
      rfl
    · split at h
      · next hmisses =>
        have hhere := (hfills.known c).not_prefix_of_misses hmisses
        rw [← List.isPrefixOf_iff_prefix, Bool.not_eq_true] at hhere
        rw [occurrences_cons, ih h, hhere]
        rfl
      · exact nomatch h
  | hole hinside hfills ih =>
    rw [tally] at h
    split at h
    · next hnone =>
      rw [occurrences_plain_append hinside, ih h]
      rw [Bool.or_eq_true, List.isEmpty_iff] at hnone
      exact hnone.imp_right hfills.fromMark.not_prefix_of_misses
    · exact nomatch h

end Token

end SchemaDiagram
