/-
# Texts with single spaces

When the words of a text are joined again, each run of blanks between words becomes a single space,
and those at the ends are dropped.  What the text has before a character that is not a blank comes
before this character, and what it has behind comes behind, with at most spaces between.

* `Text.exists_unwords_words_append` : joined words around a character;
* `Text.prefix_of_prefix_unwords`, `Text.exists_piece` : what a text begins with, and its pieces
  between commas;
* `Text.infix_append_cons_iff`, `Text.infix_append_iff_right`, `Text.infix_append_iff_left` : where
  something can stand inside a text.
-/
import SchemaDiagram.Proofs.Text.Lines
import SchemaDiagram.Proofs.Text.Words

namespace SchemaDiagram

namespace Text

variable {s t word : List Char} {c x y b : Char}

/-! ## Joined words around a character -/

theorem unwords_words_cons_blank (hb : isBlank b = true) (t : List Char) :
    unwords (words (b :: t)) = unwords (words t) := by
  rw [words_cons_blank hb]

/-- A character in front of a word belongs to it. -/
theorem unwords_words_cons_cons (hx : isBlank x = false) (hy : isBlank y = false)
    (t : List Char) : unwords (words (x :: y :: t)) = x :: unwords (words (y :: t)) := by
  obtain ⟨first, others, hsplit⟩ := List.exists_cons_of_ne_nil (List.splitOnP_ne_nil isBlank t)
  have hno : ∀ z, isBlank z = false → ¬ isBlank z = true := fun z hz => by rw [hz]; decide
  have hwords : words (y :: t) = (y :: first) :: others.filter fun word => !word.isEmpty := by
    rw [words, List.splitOnP_cons_eq_if_modifyHead, if_neg (hno y hy), hsplit,
      List.modifyHead_cons, List.filter_cons_of_pos rfl]
  have hwords' : words (x :: y :: t) =
      (x :: y :: first) :: others.filter fun word => !word.isEmpty := by
    rw [words, List.splitOnP_cons_eq_if_modifyHead, if_neg (hno x hx),
      List.splitOnP_cons_eq_if_modifyHead, if_neg (hno y hy), hsplit, List.modifyHead_cons,
      List.modifyHead_cons, List.filter_cons_of_pos rfl]
  rw [hwords, hwords']
  generalize others.filter (fun word => !word.isEmpty) = ws
  cases ws with
  | nil => rw [unwords_singleton, unwords_singleton]
  | cons w ws =>
    rw [unwords_cons _ (List.cons_ne_nil w ws), unwords_cons _ (List.cons_ne_nil w ws)]
    rfl

/-- A character in front of a blank is a word of its own. -/
theorem words_cons_cons_blank (hx : isBlank x = false) (hb : isBlank b = true) (t : List Char) :
    words (x :: b :: t) = [x] :: words t := by
  have hone : IsWord [x] := ⟨List.cons_ne_nil x [], by simpa using hx⟩
  rw [← List.singleton_append, words_append_blank hb, words_of_isWord hone]
  rfl

theorem unwords_words_cons_cons_blank (hx : isBlank x = false) (hb : isBlank b = true)
    (ht : words t ≠ []) :
    unwords (words (x :: b :: t)) = x :: ' ' :: unwords (words t) := by
  rw [words_cons_cons_blank hx hb, unwords_cons _ ht]
  rfl

/-- In front of a text a character that is not a blank stays, with at most a space behind it. -/
theorem exists_unwords_words_cons (hx : isBlank x = false) (t : List Char) :
    ∃ sep : List Char, (∀ c ∈ sep, c = ' ') ∧
      unwords (words (x :: t)) = x :: (sep ++ unwords (words t)) := by
  have hone : IsWord [x] := ⟨List.cons_ne_nil x [], by simpa using hx⟩
  cases t with
  | nil =>
    refine ⟨[], by simp, ?_⟩
    rw [words_of_isWord hone]
    rfl
  | cons y t =>
    cases hy : isBlank y with
    | false => exact ⟨[], by simp, unwords_words_cons_cons hx hy t⟩
    | true =>
      rw [unwords_words_cons_blank hy]
      by_cases ht : words t = []
      · refine ⟨[], by simp, ?_⟩
        rw [words_cons_cons_blank hx hy, ht]
        rfl
      · exact ⟨[' '], by simp, unwords_words_cons_cons_blank hx hy ht⟩

/-- A character of joined words is a space or one of the text. -/
theorem mem_of_mem_unwords_words (h : c ∈ unwords (words s)) : c = ' ' ∨ c ∈ s := by
  induction s with
  | nil => exact absurd h List.not_mem_nil
  | cons x s ih =>
    cases hx : isBlank x with
    | true =>
      rw [unwords_words_cons_blank hx] at h
      exact (ih h).imp_right (List.mem_cons_of_mem x)
    | false =>
      obtain ⟨sep, hsep, heq⟩ := exists_unwords_words_cons hx s
      rw [heq, List.mem_cons, List.mem_append] at h
      rcases h with rfl | h | h
      · exact Or.inr List.mem_cons_self
      · exact Or.inl (hsep c h)
      · exact (ih h).imp_right (List.mem_cons_of_mem x)

/-- **Joined words around a character** that is not a blank: the words before it, the character and
the words behind it, with at most spaces between. -/
theorem exists_unwords_words_append (hc : isBlank c = false) (s t : List Char) :
    ∃ sep sep' : List Char, (∀ x ∈ sep, x = ' ') ∧ (∀ x ∈ sep', x = ' ') ∧
      unwords (words (s ++ c :: t)) =
        unwords (words s) ++ (sep ++ c :: (sep' ++ unwords (words t))) := by
  -- along the text before the character, whose words are gathered one character at a time
  induction s with
  | nil =>
    obtain ⟨sep', hsep', heq⟩ := exists_unwords_words_cons hc t
    exact ⟨[], sep', by simp, hsep', heq⟩
  | cons x s ih =>
    obtain ⟨sep, sep', hsep, hsep', heq⟩ := ih
    cases hx : isBlank x with
    | true =>
      refine ⟨sep, sep', hsep, hsep', ?_⟩
      rw [List.cons_append, unwords_words_cons_blank hx, unwords_words_cons_blank hx, heq]
    | false =>
      cases s with
      | nil =>
        have hone : IsWord [x] := ⟨List.cons_ne_nil x [], by simpa using hx⟩
        refine ⟨sep, sep', hsep, hsep', ?_⟩
        rw [List.cons_append, List.nil_append, unwords_words_cons_cons hx hc, words_of_isWord hone]
        exact congrArg (x :: ·) heq
      | cons y s =>
        cases hy : isBlank y with
        | false =>
          refine ⟨sep, sep', hsep, hsep', ?_⟩
          rw [List.cons_append, List.cons_append, unwords_words_cons_cons hx hy,
            unwords_words_cons_cons hx hy]
          exact congrArg (x :: ·) heq
        | true =>
          rw [List.cons_append, unwords_words_cons_blank hy, unwords_words_cons_blank hy] at heq
          have hbehind : words (s ++ c :: t) ≠ [] :=
            words_ne_nil (List.mem_append_right s List.mem_cons_self) hc
          rw [List.cons_append, List.cons_append, unwords_words_cons_cons_blank hx hy hbehind, heq]
          by_cases hs : words s = []
          · refine ⟨' ' :: sep, sep', by simpa using hsep, hsep', ?_⟩
            rw [words_cons_cons_blank hx hy, hs]
            rfl
          · refine ⟨sep, sep', hsep, hsep', ?_⟩
            rw [unwords_words_cons_cons_blank hx hy hs]
            rfl

/-! ## The beginning of a text and its pieces -/

/-- What joined words begin with, the text begins with, if it has no blank and the text does not
begin with one. -/
theorem prefix_of_prefix_unwords (hword : ∀ x ∈ word, isBlank x = false)
    (hs : ∀ x ∈ s.head?, isBlank x = false) (h : word <+: unwords (words s)) : word <+: s := by
  induction word generalizing s with
  | nil => exact List.nil_prefix
  | cons x word ih =>
    obtain ⟨hx, hword⟩ := List.forall_mem_cons.1 hword
    cases s with
    | nil => exact absurd (List.prefix_nil.1 h) (List.cons_ne_nil x word)
    | cons y s =>
      have hy := hs y rfl
      cases s with
      | nil =>
        rw [words_of_isWord ⟨List.cons_ne_nil y [], by simpa using hy⟩] at h
        exact h
      | cons z s =>
        cases hz : isBlank z with
        | false =>
          rw [unwords_words_cons_cons hy hz] at h
          obtain ⟨hxy, htail⟩ := List.cons_prefix_cons.1 h
          refine List.cons_prefix_cons.2 ⟨hxy, ih hword ?_ htail⟩
          rintro _ ⟨⟩
          exact hz
        | true =>
          -- the first word of the text ends here, and a space can only follow what is searched for
          by_cases ht : words s = []
          · rw [words_cons_cons_blank hy hz, ht] at h
            exact h.trans (List.prefix_append [y] (z :: s))
          · rw [unwords_words_cons_cons_blank hy hz ht] at h
            obtain ⟨rfl, htail⟩ := List.cons_prefix_cons.1 h
            cases word with
            | nil => exact List.prefix_append [x] (z :: s)
            | cons w word =>
              obtain ⟨rfl, -⟩ := List.cons_prefix_cons.1 htail
              exact absurd (hword ' ' List.mem_cons_self) (by decide)

/-- Spaces around joined words are trimmed away. -/
theorem trim_unwords_words {before after : List Char} (hbefore : ∀ x ∈ before, x = ' ')
    (hafter : ∀ x ∈ after, x = ' ') (s : List Char) :
    trim (before ++ (unwords (words s) ++ after)) = unwords (words s) := by
  have hspace : ∀ {sep : List Char}, (∀ x ∈ sep, x = ' ') → ∀ x ∈ sep, isBlank x = true := by
    intro sep hsep x hx
    rw [hsep x hx]
    decide
  exact trim_append_blanks (hspace hbefore) (hspace hafter)
    (head?_unwords fun _ => isWord_of_mem_words) (getLast?_unwords fun _ => isWord_of_mem_words)

/-- A text without a comma is one piece when its words are joined. -/
theorem splitOn_unwords_words {before after : List Char} (hbefore : ∀ x ∈ before, x = ' ')
    (hafter : ∀ x ∈ after, x = ' ') (hs : ',' ∉ s) :
    (before ++ (unwords (words s) ++ after)).splitOn ',' =
      [before ++ (unwords (words s) ++ after)] := by
  refine List.splitOn_eq_singleton fun hcomma => ?_
  rw [List.mem_append, List.mem_append] at hcomma
  rcases hcomma with h | h | h
  · exact absurd (hbefore _ h) (by decide)
  · exact (mem_of_mem_unwords_words h).elim (absurd · (by decide)) hs
  · exact absurd (hafter _ h) (by decide)

/-- **The pieces of joined words** between commas are those of the text, with their words joined. -/
theorem exists_piece {before after piece : List Char} (hbefore : ∀ x ∈ before, x = ' ')
    (hafter : ∀ x ∈ after, x = ' ')
    (h : piece ∈ (before ++ (unwords (words s) ++ after)).splitOn ',') :
    ∃ raw ∈ s.splitOn ',', trim piece = unwords (words raw) := by
  -- on the length of the text, which is cut at its first comma
  induction hn : s.length using Nat.strongRecOn generalizing s before with
  | _ n ih =>
    subst hn
    by_cases hcomma : ',' ∈ s
    · obtain ⟨first, rest, rfl, hfirst⟩ := List.eq_append_cons_of_mem hcomma
      obtain ⟨sep, sep', hsep, hsep', heq⟩ :=
        exists_unwords_words_append (c := ',') (by decide) first rest
      have hsplit : (before ++ (unwords (words (first ++ ',' :: rest)) ++ after)).splitOn ',' =
          (before ++ (unwords (words first) ++ sep)).splitOn ',' ++
            (sep' ++ (unwords (words rest) ++ after)).splitOn ',' := by
        rw [heq, ← splitOn_append_cons]
        simp only [List.append_assoc, List.cons_append]
      rw [hsplit, splitOn_unwords_words hbefore hsep hfirst, List.singleton_append,
        List.mem_cons] at h
      rw [splitOn_append_cons, List.splitOn_eq_singleton hfirst, List.singleton_append]
      rcases h with rfl | h
      · exact ⟨first, List.mem_cons_self, trim_unwords_words hbefore hsep first⟩
      · obtain ⟨raw, hraw, hpiece⟩ := ih rest.length (by simp; omega) hsep' h rfl
        exact ⟨raw, List.mem_cons_of_mem first hraw, hpiece⟩
    · rw [splitOn_unwords_words hbefore hafter hcomma, List.mem_singleton] at h
      refine ⟨s, ?_, h ▸ trim_unwords_words hbefore hafter s⟩
      rw [List.splitOn_eq_singleton hcomma]
      exact List.mem_singleton_self s

/-! ## Inside a text -/

/-- What does not have a character stands inside a text before or behind it. -/
theorem infix_append_cons_iff (hx : x ∉ word) :
    word <:+: s ++ x :: t ↔ word <:+: s ∨ word <:+: t := by
  constructor
  · intro h
    rcases List.infix_append_iff_ne_nil.1 h with h | h | ⟨w, v, -, hv, rfl, -, hpre⟩
    · exact Or.inl h
    · rcases List.infix_cons_iff.1 h with hpre | h
      · cases word with
        | nil => exact Or.inl (List.nil_infix)
        | cons y word =>
          obtain ⟨rfl, -⟩ := List.cons_prefix_cons.1 hpre
          exact absurd List.mem_cons_self hx
      · exact Or.inr h
    · obtain ⟨y, v, rfl⟩ := List.exists_cons_of_ne_nil hv
      obtain ⟨rfl, -⟩ := List.cons_prefix_cons.1 hpre
      exact absurd (List.mem_append_right w List.mem_cons_self) hx
  · rintro (h | h)
    · exact h.trans (List.prefix_append _ _).isInfix
    · exact (List.infix_cons h).trans (List.suffix_append _ _).isInfix

/-- A word does not begin in a text that does not have its first character. -/
theorem infix_append_iff_right (hword : word ≠ []) (hhead : ∀ x ∈ word.head?, x ∉ s) :
    word <:+: s ++ t ↔ word <:+: t := by
  obtain ⟨x, word, rfl⟩ := List.exists_cons_of_ne_nil hword
  have hx := hhead x rfl
  constructor
  · intro h
    rcases List.infix_append_iff_ne_nil.1 h with h | h | ⟨w, v, hw, -, heq, hsuffix, -⟩
    · exact absurd (h.subset List.mem_cons_self) hx
    · exact h
    · obtain ⟨y, w, rfl⟩ := List.exists_cons_of_ne_nil hw
      obtain ⟨rfl, -⟩ := List.cons.inj heq
      exact absurd (hsuffix.subset List.mem_cons_self) hx
  · exact fun h => h.trans (List.suffix_append _ _).isInfix

/-- A word does not end in a text that does not have its last character. -/
theorem infix_append_iff_left (hword : word ≠ []) (hlast : ∀ x ∈ word.getLast?, x ∉ t) :
    word <:+: s ++ t ↔ word <:+: s := by
  rw [← List.reverse_infix, List.reverse_append, infix_append_iff_right (by simpa using hword),
    List.reverse_infix]
  intro x hx
  rw [List.head?_reverse] at hx
  simpa using hlast x hx

end Text

end SchemaDiagram
