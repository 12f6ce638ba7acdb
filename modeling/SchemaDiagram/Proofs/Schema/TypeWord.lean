/-
# Types of reflected columns

The type of a database column is written as one word.  Its blanks are replaced run by run, and
those at its ends are dropped.

* `underscored` : a text with each run of blanks replaced by an underscore;
* `typeText` : the type that a reflected column has;
* `typeWord_eq` : the word of a type is this text;
* `isToken_typeText` : it is one word, which does not close a block.
-/
import SchemaDiagram.Proofs.Schema.Remarks
import SchemaDiagram.Schema.Database

namespace SchemaDiagram

open Text

/-- A text with each run of blanks replaced by an underscore, where a run that goes on from
before the text is dropped. -/
def underscoredFrom : (inRun : Bool) → List Char → List Char
  | _, [] => []
  | true, c :: rest =>
    if isBlank c then underscoredFrom true rest else c :: underscoredFrom false rest
  | false, c :: rest =>
    if isBlank c then '_' :: underscoredFrom true rest else c :: underscoredFrom false rest

/-- A text with each run of blanks replaced by an underscore. -/
def underscored (text : List Char) : List Char := underscoredFrom false text

/-- The type of a reflected column: blanks at the ends are dropped, and each run of blanks
between is replaced by an underscore.  A blank type is unknown. -/
def typeText (type : String) : String :=
  match trim type.toList with
  | [] => "unknown"
  | text => String.ofList (underscored text)

/-- Behind a run of blanks the words follow, joined by underscores; behind the beginning of a word
the rest of the word comes first. -/
theorem underscoredFrom_eq {text : List Char} (h : ∀ c ∈ text.getLast?, isBlank c = false) :
    underscoredFrom true text = ['_'].intercalate (words text) ∧
      ∀ w, IsWord w → w ++ underscoredFrom false text = ['_'].intercalate (words (w ++ text)) := by
  induction text with
  | nil =>
    refine ⟨rfl, fun w hw => ?_⟩
    rw [List.append_nil, words_of_isWord hw, List.intercalate_singleton]
    exact List.append_nil w
  | cons c rest ih =>
    have hrest : ∀ x ∈ rest.getLast?, isBlank x = false := by
      intro x hx
      refine h x ?_
      rw [List.getLast?_cons, Option.mem_def.1 hx]
      rfl
    obtain ⟨ihrun, ihword⟩ := ih hrest
    cases hc : isBlank c with
    | true =>
      -- a blank is not the last character, so there are words behind it
      have hne : words rest ≠ [] := by
        cases hlast : rest.getLast? with
        | none =>
          rw [List.getLast?_eq_none_iff.1 hlast] at h
          exact absurd (h c rfl) (by rw [hc]; decide)
        | some x => exact words_ne_nil (List.mem_of_getLast? hlast) (hrest x hlast)
      refine ⟨?_, fun w hw => ?_⟩
      · rw [underscoredFrom, if_pos hc, ihrun, words_cons_blank hc]
      · rw [underscoredFrom, if_pos hc, ihrun, words_append_blank hc, words_of_isWord hw,
          List.singleton_append, List.intercalate_cons_of_ne_nil hne, List.append_assoc]
        rfl
    | false =>
      have hone : IsWord [c] := ⟨List.cons_ne_nil c [], by simpa using hc⟩
      have hno : ¬ isBlank c = true := by rw [hc]; decide
      refine ⟨?_, fun w hw => ?_⟩
      · rw [underscoredFrom, if_neg hno]
        exact ihword [c] hone
      · have hlonger : IsWord (w ++ [c]) := by
          refine ⟨by simp, fun x hx => ?_⟩
          rcases List.mem_append.1 hx with hx | hx
          · exact hw.not_blank x hx
          · exact hone.not_blank x hx
        have hword := ihword (w ++ [c]) hlonger
        rw [List.append_assoc, List.append_assoc] at hword
        rw [underscoredFrom, if_neg hno]
        exact hword

/-- A text with no blank at its ends is its words joined by underscores. -/
theorem underscored_eq {text : List Char} (hhead : ∀ c ∈ text.head?, isBlank c = false)
    (hlast : ∀ c ∈ text.getLast?, isBlank c = false) :
    underscored text = ['_'].intercalate (words text) := by
  rw [← (underscoredFrom_eq hlast).1, underscored]
  cases text with
  | nil => rfl
  | cons c rest =>
    have hno : ¬ isBlank c = true := by
      rw [hhead c rfl]
      decide
    rw [underscoredFrom, underscoredFrom, if_neg hno, if_neg hno]

/-- **The word of a type** is its text with the blanks at the ends dropped and each run of blanks
between replaced by an underscore. -/
theorem typeWord_eq (type : String) : typeWord type = typeText type := by
  have hhead := head?_trim type.toList
  have hlast := getLast?_trim type.toList
  rw [typeWord, typeText, ← words_trim]
  cases htrim : trim type.toList with
  | nil => rfl
  | cons c rest =>
    rw [htrim] at hhead hlast
    have hne : words (c :: rest) ≠ [] := words_ne_nil List.mem_cons_self (hhead c rfl)
    dsimp only
    rw [underscored_eq hhead hlast]
    cases hwords : words (c :: rest) with
    | nil => exact absurd hwords hne
    | cons w ws => rfl

/-! ## One word -/

theorem mem_underscoredFrom {inRun : Bool} {text : List Char} {c : Char}
    (hc : c ∈ underscoredFrom inRun text) : c = '_' ∨ (c ∈ text ∧ isBlank c = false) := by
  induction text generalizing inRun with
  | nil => exact nomatch hc
  | cons x rest ih =>
    have hlater : ∀ inRun, c ∈ underscoredFrom inRun rest →
        c = '_' ∨ (c ∈ x :: rest ∧ isBlank c = false) := fun inRun hc =>
      (ih hc).imp_right fun h => ⟨List.mem_cons_of_mem x h.1, h.2⟩
    cases hx : isBlank x with
    | true =>
      cases inRun with
      | true =>
        rw [underscoredFrom, if_pos hx] at hc
        exact hlater true hc
      | false =>
        rw [underscoredFrom, if_pos hx] at hc
        exact (List.mem_cons.1 hc).elim Or.inl (hlater true)
    | false =>
      have hno : ¬ isBlank x = true := by rw [hx]; decide
      have hcons : c ∈ x :: underscoredFrom false rest := by
        cases inRun <;> rwa [underscoredFrom, if_neg hno] at hc
      rcases List.mem_cons.1 hcons with rfl | hc
      · exact Or.inr ⟨List.mem_cons_self, hx⟩
      · exact hlater false hc

/-- The type of a reflected column is one word, which does not close a block. -/
theorem isToken_typeText {type : String} (h : '\x7d' ∉ type.toList) : IsToken (typeText type) := by
  have hsub : ∀ c ∈ trim type.toList, c ∈ type.toList := by
    intro c hc
    obtain ⟨blanks, -, htext⟩ := dropWhile_eq_trim_append type.toList
    refine (List.dropWhile_sublist isBlank).subset ?_
    rw [htext]
    exact List.mem_append_left blanks hc
  rw [typeText]
  cases htrim : trim type.toList with
  | nil => decide +kernel
  | cons x rest =>
    have hchar : ∀ c ∈ underscored (x :: rest), c = '_' ∨ (c ∈ type.toList ∧ isBlank c = false) :=
      fun c hc => (mem_underscoredFrom hc).imp_right fun hmem =>
        ⟨hsub c (htrim ▸ hmem.1), hmem.2⟩
    dsimp only
    refine ⟨⟨?_, ?_⟩, ?_⟩
    · rw [String.toList_ofList, underscored, underscoredFrom]
      split <;> exact List.cons_ne_nil _ _
    · intro c hc
      rw [String.toList_ofList] at hc
      rcases hchar c hc with rfl | hc
      · decide
      · exact hc.2
    · intro hc
      rw [String.toList_ofList] at hc
      rcases hchar _ hc with hc | hc
      · exact absurd hc (by decide)
      · exact h hc.1

end SchemaDiagram
