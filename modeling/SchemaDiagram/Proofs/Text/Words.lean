/-
# Words of a text

Everything about the words of a text follows from what a blank does: the words of a text with a
blank in it are those before the blank and those after it.

* `Text.words_append_blank` : a blank separates words;
* `Text.words_unwords` : words that are joined by spaces are found again;
* `Text.exists_getLast?_of_infix` : what stands before a space ends a word;
* `Text.trim_eq_self`, `Text.words_trim` : a text with no blank at its ends is left as it is, and
  blanks at the ends belong to no word.
-/
import SchemaDiagram.Text.Blank

namespace SchemaDiagram

namespace Text

variable {ws vs : List (List Char)} {w text : List Char}

/-- Whether all characters of a text have a property is decided along the text, not by going
through all characters that there are. -/
instance (priority := high) decidableForallMem (p : Char → Prop) [DecidablePred p]
    (text : List Char) : Decidable (∀ c ∈ text, p c) :=
  List.decidableBAll p text

/-- Whether some character of a text has a property is decided in the same way. -/
instance (priority := high) decidableExistsMem (p : Char → Prop) [DecidablePred p]
    (text : List Char) : Decidable (∃ c ∈ text, p c) :=
  List.decidableBEx p text

/-! ## Joining -/

/-- Joined lists of pieces are joined by one more separator. -/
theorem intercalate_append {α : Type} (sep : List α) {xs ys : List (List α)} (hxs : xs ≠ [])
    (hys : ys ≠ []) :
    sep.intercalate (xs ++ ys) = sep.intercalate xs ++ (sep ++ sep.intercalate ys) := by
  induction xs with
  | nil => exact absurd rfl hxs
  | cons x rest ih =>
    cases rest with
    | nil =>
      rw [List.singleton_append, List.intercalate_cons_of_ne_nil hys, List.intercalate_singleton,
        List.append_assoc]
    | cons y rest =>
      rw [List.cons_append, List.intercalate_cons_of_ne_nil (by simp), ih (List.cons_ne_nil y rest),
        List.intercalate_cons_of_ne_nil (List.cons_ne_nil y rest)]
      simp only [List.append_assoc]

/-- The pieces before the last one are each followed by a separator. -/
theorem intercalate_concat {α : Type} (sep : List α) (xs : List (List α)) (x : List α) :
    sep.intercalate (xs ++ [x]) = xs.flatMap (· ++ sep) ++ x := by
  induction xs with
  | nil => exact List.intercalate_singleton
  | cons y rest ih =>
    rw [List.cons_append, List.intercalate_cons_of_ne_nil (by simp), ih, List.flatMap_cons]
    simp only [List.append_assoc]

/-- What stands in joined pieces stands in the separator or in a piece. -/
theorem mem_intercalate {α : Type} {sep : List α} {xs : List (List α)} {a : α}
    (h : a ∈ sep.intercalate xs) : a ∈ sep ∨ ∃ x ∈ xs, a ∈ x := by
  induction xs with
  | nil => exact nomatch h
  | cons x rest ih =>
    cases rest with
    | nil =>
      rw [List.intercalate_singleton] at h
      exact Or.inr ⟨x, List.mem_cons_self, h⟩
    | cons y rest =>
      rw [List.intercalate_cons_of_ne_nil (List.cons_ne_nil y rest), List.mem_append,
        List.mem_append] at h
      rcases h with (h | h) | h
      · exact Or.inr ⟨x, List.mem_cons_self, h⟩
      · exact Or.inl h
      · exact (ih h).imp_right fun ⟨z, hz, ha⟩ => ⟨z, List.mem_cons_of_mem x hz, ha⟩

theorem unwords_singleton (w : List Char) : unwords [w] = w := List.intercalate_singleton

theorem unwords_cons (w : List Char) (hws : ws ≠ []) : unwords (w :: ws) = w ++ ' ' :: unwords ws := by
  rw [unwords, List.intercalate_cons_of_ne_nil hws, List.append_assoc, List.singleton_append,
    unwords]

theorem unwords_append (hws : ws ≠ []) (hvs : vs ≠ []) :
    unwords (ws ++ vs) = unwords ws ++ ' ' :: unwords vs := by
  rw [unwords, intercalate_append _ hws hvs, List.singleton_append, unwords, unwords]

/-- Each of the joined words stands inside what they make up. -/
theorem infix_unwords_of_mem (h : w ∈ ws) : w <:+: unwords ws := by
  obtain ⟨before, after, rfl⟩ := List.append_of_mem h
  have hright : w <:+: unwords (w :: after) := by
    cases after with
    | nil => exact (unwords_singleton w).symm ▸ List.infix_refl w
    | cons v after =>
      rw [unwords_cons w (List.cons_ne_nil v after)]
      exact ⟨[], _, rfl⟩
  cases before with
  | nil => exact hright
  | cons u before =>
    rw [unwords_append (List.cons_ne_nil u before) (List.cons_ne_nil w after)]
    exact (List.infix_cons hright).trans (List.suffix_append _ _).isInfix

/-- A character of joined words is a space, or it is one of a word. -/
theorem mem_unwords {c : Char} (h : c ∈ unwords ws) : c = ' ' ∨ ∃ w ∈ ws, c ∈ w :=
  (mem_intercalate h).imp_left List.mem_singleton.1

/-! ## Separating -/

/-- A word is not empty and has no blank. -/
structure IsWord (w : List Char) : Prop where
  ne_nil : w ≠ []
  not_blank : ∀ c ∈ w, isBlank c = false

instance (w : List Char) : Decidable (IsWord w) :=
  decidable_of_iff (w ≠ [] ∧ ∀ c ∈ w, isBlank c = false)
    ⟨fun h => ⟨h.1, h.2⟩, fun h => ⟨h.1, h.2⟩⟩

/-- A blank separates words. -/
theorem words_append_blank {b : Char} (hb : isBlank b = true) (before after : List Char) :
    words (before ++ b :: after) = words before ++ words after := by
  rw [words, List.splitOnP_append_cons before after hb, List.filter_append, words, words]

theorem words_cons_blank {b : Char} (hb : isBlank b = true) (text : List Char) :
    words (b :: text) = words text := by
  have h := words_append_blank hb [] text
  rwa [List.nil_append] at h

/-- A text of blanks has no words. -/
theorem words_eq_nil (h : ∀ c ∈ text, isBlank c = true) : words text = [] := by
  induction text with
  | nil => rfl
  | cons c rest ih =>
    rw [words_cons_blank (h c List.mem_cons_self)]
    exact ih fun b hb => h b (List.mem_cons_of_mem c hb)

theorem words_of_isWord (hw : IsWord w) : words w = [w] := by
  rw [words, List.splitOnP_eq_singleton hw.not_blank]
  exact List.filter_eq_self.2 (by simp [hw.ne_nil])

/-- A text with a character that is not a blank has words. -/
theorem words_ne_nil {c : Char} (hc : c ∈ text) (hblank : isBlank c = false) : words text ≠ [] := by
  induction text with
  | nil => exact nomatch hc
  | cons x rest ih =>
    cases hx : isBlank x with
    | true =>
      rw [words_cons_blank hx]
      refine ih ((List.mem_cons.1 hc).resolve_left ?_)
      rintro rfl
      rw [hx] at hblank
      exact nomatch hblank
    | false =>
      obtain ⟨first, others, hsplit⟩ :=
        List.exists_cons_of_ne_nil (List.splitOnP_ne_nil isBlank rest)
      rw [words, List.splitOnP_cons_eq_if_modifyHead, hx, if_neg (by decide), hsplit,
        List.modifyHead_cons, List.filter_cons_of_pos rfl]
      exact List.cons_ne_nil _ _

/-- No part of a list that is split has a separator. -/
theorem not_of_mem_splitOnP {α : Type} {p : α → Bool} {s part : List α}
    (h : part ∈ s.splitOnP p) : ∀ c ∈ part, p c = false := by
  induction s generalizing part with
  | nil =>
    obtain rfl : part = [] := by simpa using h
    exact fun c hc => absurd hc List.not_mem_nil
  | cons x s ih =>
    obtain ⟨first, others, hparts⟩ := List.exists_cons_of_ne_nil (List.splitOnP_ne_nil p s)
    rw [List.splitOnP_cons_eq_if_modifyHead, hparts] at h
    rw [hparts] at ih
    split at h
    · rcases List.mem_cons.1 h with rfl | h
      · exact fun c hc => absurd hc List.not_mem_nil
      · exact ih h
    · next hx =>
      rcases List.mem_cons.1 h with rfl | h
      · exact List.forall_mem_cons.2 ⟨Bool.eq_false_iff.2 hx, ih List.mem_cons_self⟩
      · exact ih (List.mem_cons_of_mem _ h)

/-- What the words of a text are. -/
theorem isWord_of_mem_words (h : w ∈ words text) : IsWord w := by
  obtain ⟨hpart, hne⟩ := List.mem_filter.1 h
  exact ⟨by simpa using hne, not_of_mem_splitOnP hpart⟩

/-- **Words that are joined** by spaces are found again. -/
theorem words_unwords (h : ∀ w ∈ ws, IsWord w) : words (unwords ws) = ws := by
  induction ws with
  | nil => rfl
  | cons w rest ih =>
    have hw := h w List.mem_cons_self
    have hrest := ih fun v hv => h v (List.mem_cons_of_mem w hv)
    cases rest with
    | nil => rw [unwords_singleton, words_of_isWord hw]
    | cons v rest =>
      rw [unwords_cons w (by simp), words_append_blank rfl, words_of_isWord hw, hrest]
      rfl

/-- Joined words do not begin with a blank. -/
theorem head?_unwords (h : ∀ w ∈ ws, IsWord w) : ∀ c ∈ (unwords ws).head?, isBlank c = false := by
  cases ws with
  | nil => exact fun c hc => nomatch hc
  | cons w rest =>
    have hw := h w List.mem_cons_self
    obtain ⟨x, tail, rfl⟩ := List.exists_cons_of_ne_nil hw.ne_nil
    have hx := hw.not_blank x List.mem_cons_self
    cases rest with
    | nil =>
      rw [unwords_singleton]
      rintro _ ⟨⟩
      exact hx
    | cons v rest =>
      rw [unwords_cons _ (List.cons_ne_nil v rest)]
      rintro _ ⟨⟩
      exact hx

/-- Joined words do not end with a blank. -/
theorem getLast?_unwords (h : ∀ w ∈ ws, IsWord w) :
    ∀ c ∈ (unwords ws).getLast?, isBlank c = false := by
  rcases List.eq_nil_or_concat ws with rfl | ⟨rest, w, rfl⟩
  · exact fun c hc => nomatch hc
  · have hw := h w (by simp)
    have hlast : (unwords (rest.concat w)).getLast? = w.getLast? := by
      rw [List.concat_eq_append, unwords, intercalate_concat, List.getLast?_append,
        List.getLast?_eq_some_getLast hw.ne_nil]
      rfl
    rw [hlast]
    exact fun c hc => hw.not_blank c (List.mem_of_getLast? hc)

/-! ## What stands before a space -/

/-- A character that stands before a space in joined words is the last one of a word. -/
theorem exists_getLast?_of_infix {x : Char} (hx : x ≠ ' ') (hws : ∀ w ∈ ws, ' ' ∉ w)
    (h : [x, ' '] <:+: unwords ws) : ∃ w ∈ ws, w.getLast? = some x := by
  induction ws with
  | nil => exact absurd (List.eq_nil_of_infix_nil h) (List.cons_ne_nil _ _)
  | cons w rest ih =>
    have hw := hws w List.mem_cons_self
    have hinside : ¬ [x, ' '] <:+: w := fun hin => hw (hin.subset (by simp))
    cases rest with
    | nil =>
      rw [unwords_singleton] at h
      exact absurd h hinside
    | cons v rest =>
      rw [unwords_cons w (List.cons_ne_nil v rest), List.infix_append_iff_ne_nil] at h
      -- the pair lies in the word, from the space on, or around the end of the word
      rcases h with h | h | ⟨s, t, hs, ht, hst, hsuffix, hpre⟩
      · exact absurd h hinside
      · rcases List.infix_cons_iff.1 h with h | h
        · exact absurd (List.cons_prefix_cons.1 h).1 hx
        · obtain ⟨u, hu, hlast⟩ := ih (fun u hu => hws u (List.mem_cons_of_mem w hu)) h
          exact ⟨u, List.mem_cons_of_mem w hu, hlast⟩
      · obtain ⟨rfl, rfl⟩ : s = [x] ∧ t = [' '] := by
          rcases s with _ | ⟨_, _ | ⟨_, _⟩⟩ <;> simp_all
        obtain ⟨before, rfl⟩ := hsuffix
        exact ⟨_, List.mem_cons_self, List.getLast?_concat⟩

/-! ## Trimming -/

theorem dropWhile_eq_self {p : Char → Bool} (h : ∀ c ∈ text.head?, p c = false) :
    text.dropWhile p = text := by
  cases text with
  | nil => rfl
  | cons c rest => rw [List.dropWhile_cons_of_neg (Bool.eq_false_iff.1 (h c rfl))]

/-- A text with no blank at its ends is left as it is. -/
theorem trim_eq_self (hhead : ∀ c ∈ text.head?, isBlank c = false)
    (hlast : ∀ c ∈ text.getLast?, isBlank c = false) : trim text = text := by
  rw [trim, dropWhile_eq_self hhead, dropWhile_eq_self, List.reverse_reverse]
  rwa [List.head?_reverse]

/-- Blanks around a text with no blank at its ends are trimmed away. -/
theorem trim_append_blanks {before after : List Char} (hbefore : ∀ c ∈ before, isBlank c = true)
    (hafter : ∀ c ∈ after, isBlank c = true) (hhead : ∀ c ∈ text.head?, isBlank c = false)
    (hlast : ∀ c ∈ text.getLast?, isBlank c = false) : trim (before ++ (text ++ after)) = text := by
  rw [trim, List.dropWhile_append_of_pos hbefore]
  cases text with
  | nil =>
    have hnil : (after ++ []).dropWhile isBlank = [] := List.dropWhile_append_of_pos hafter
    rw [List.append_nil] at hnil
    rw [List.nil_append, hnil]
    rfl
  | cons x text =>
    have hfront : ∀ c ∈ (x :: text ++ after).head?, isBlank c = false := hhead
    rw [dropWhile_eq_self hfront, List.reverse_append,
      List.dropWhile_append_of_pos (by simpa using hafter), dropWhile_eq_self,
      List.reverse_reverse]
    rwa [List.head?_reverse]

theorem words_dropWhile (text : List Char) : words (text.dropWhile isBlank) = words text := by
  induction text with
  | nil => rfl
  | cons c rest ih =>
    cases hc : isBlank c with
    | true => rw [List.dropWhile_cons_of_pos hc, ih, words_cons_blank hc]
    | false => rw [List.dropWhile_cons_of_neg (by rw [hc]; decide)]

/-- Blanks at the end of a text belong to no word. -/
theorem words_append_blanks {blanks : List Char} (h : ∀ c ∈ blanks, isBlank c = true)
    (text : List Char) : words (text ++ blanks) = words text := by
  cases blanks with
  | nil => rw [List.append_nil]
  | cons b rest =>
    rw [words_append_blank (h b List.mem_cons_self),
      words_eq_nil fun c hc => h c (List.mem_cons_of_mem b hc), List.append_nil]

/-- Behind the blanks at its front a text is its trimmed text and the blanks at its end. -/
theorem dropWhile_eq_trim_append (text : List Char) :
    ∃ blanks : List Char, (∀ c ∈ blanks, isBlank c = true) ∧
      text.dropWhile isBlank = trim text ++ blanks := by
  refine ⟨((text.dropWhile isBlank).reverse.takeWhile isBlank).reverse, ?_, ?_⟩
  · intro c hc
    rw [List.mem_reverse] at hc
    exact List.all_eq_true.1 List.all_takeWhile c hc
  · rw [trim, ← List.reverse_append, List.takeWhile_append_dropWhile, List.reverse_reverse]

/-- The blanks at the ends of a text belong to no word. -/
theorem words_trim (text : List Char) : words (trim text) = words text := by
  obtain ⟨blanks, hblanks, htext⟩ := dropWhile_eq_trim_append text
  rw [← words_dropWhile text, htext, words_append_blanks hblanks]

/-- The first character of a trimmed text is not a blank. -/
theorem head?_trim (text : List Char) : ∀ c ∈ (trim text).head?, isBlank c = false := by
  intro c hc
  obtain ⟨blanks, -, htext⟩ := dropWhile_eq_trim_append text
  have hhead := List.head?_dropWhile_not isBlank text
  rw [htext, List.head?_append, Option.mem_def.1 hc] at hhead
  exact hhead

/-- The last character of a trimmed text is not a blank. -/
theorem getLast?_trim (text : List Char) : ∀ c ∈ (trim text).getLast?, isBlank c = false := by
  intro c hc
  rw [trim, List.getLast?_reverse] at hc
  have hhead := List.head?_dropWhile_not isBlank (text.dropWhile isBlank).reverse
  rw [Option.mem_def.1 hc] at hhead
  exact hhead

end Text

end SchemaDiagram
