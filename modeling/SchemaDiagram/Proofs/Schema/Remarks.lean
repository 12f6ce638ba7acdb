/-
# Remarks on a field

The remarks on a field are settings in brackets.  Settings that are written one group each come
back as they were, and a field that is printed as a line is read back from it.

* `bracketGroups_cons`, `bracketSettings_bracketed` : the settings of groups;
* `Field.printed` : the line of a field;
* `Field.ofLine?_printed` : the field of its line.

What a field says about its key and about null is searched for anywhere in the remarks.  It cannot
be found by accident: every mark has a space, and what stands before the space tells it apart.
-/
import SchemaDiagram.Proofs.Schema.Reading

namespace SchemaDiagram

open Text

/-! ## Bracket groups -/

/-- Text without an opening bracket belongs to no group. -/
theorem bracketGroups_append {before : List Char} (h : '[' ∉ before) (rest : List Char) :
    bracketGroups (before ++ rest) = bracketGroups rest := by
  have hbefore : ∀ c ∈ before, decide (c ≠ '[') = true := fun c hc =>
    decide_eq_true fun hbracket => h (hbracket ▸ hc)
  have hdrop : (before ++ rest).dropWhile (· ≠ '[') = rest.dropWhile (· ≠ '[') :=
    List.dropWhile_append_of_pos hbefore
  rw [bracketGroups, bracketGroups]
  rw [hdrop]

/-- **A group** gives what stands between its brackets. -/
theorem bracketGroups_cons {inside : List Char} (h : ']' ∉ inside) (rest : List Char) :
    bracketGroups ('[' :: (inside ++ ']' :: rest)) = inside :: bracketGroups rest := by
  have hinside : ∀ c ∈ inside, decide (c ≠ ']') = true := fun c hc =>
    decide_eq_true fun hbracket => h (hbracket ▸ hc)
  rw [bracketGroups]
  split
  · next hnil => cases hnil
  · next c after hcons =>
    have hafter : inside ++ ']' :: rest = after := (List.cons.inj hcons).2
    have hclosed : after.contains ']' = true := by
      rw [← hafter, List.contains_iff_mem]
      exact List.mem_append_right inside List.mem_cons_self
    rw [if_pos hclosed, ← hafter, List.dropWhile_append_of_pos hinside,
      takeWhile_append_of_stop hinside (by rintro c ⟨⟩; rfl)]
    rfl

/-- A group without its closing bracket reaches to the end of its line. -/
theorem bracketGroups_cons_of_unclosed {inside : List Char} (h : ']' ∉ inside) :
    bracketGroups ('[' :: inside) =
      inside.takeWhile (· ≠ '\n') :: bracketGroups (inside.dropWhile (· ≠ '\n')) := by
  rw [bracketGroups]
  split
  · next hnil => cases hnil
  · next c after hcons =>
    obtain rfl : inside = after := (List.cons.inj hcons).2
    rw [if_neg (mt List.contains_iff_mem.1 h)]

/-- Text without an opening bracket has no groups. -/
theorem bracketGroups_eq_nil {text : List Char} (h : '[' ∉ text) : bracketGroups text = [] := by
  have happend := bracketGroups_append h []
  rw [List.append_nil] at happend
  rw [happend, bracketGroups]
  rfl

/-! ## Settings -/

/-- The settings of the first group come first. -/
theorem bracketSettings_of_groups {rest rest' group : List Char}
    (h : bracketGroups rest = group :: bracketGroups rest') :
    bracketSettings rest =
      (((group.splitOn ',').map trim).filter fun setting => !setting.isEmpty) ++
        bracketSettings rest' := by
  rw [bracketSettings, h, List.flatMap_cons]
  rfl

theorem bracketSettings_eq_nil {text : List Char} (h : '[' ∉ text) : bracketSettings text = [] := by
  rw [bracketSettings, bracketGroups_eq_nil h, List.flatMap_nil]

/-- A setting that can stand alone in brackets. -/
structure IsSetting (s : List Char) : Prop where
  ne_nil : s ≠ []
  noComma : ',' ∉ s
  noBracket : ']' ∉ s
  trimmed : trim s = s

instance (s : List Char) : Decidable (IsSetting s) :=
  decidable_of_iff (s ≠ [] ∧ ',' ∉ s ∧ ']' ∉ s ∧ trim s = s)
    ⟨fun h => ⟨h.1, h.2.1, h.2.2.1, h.2.2.2⟩, fun h => ⟨h.1, h.2, h.3, h.4⟩⟩

/-- A setting in brackets. -/
def bracketed (s : List Char) : List Char := '[' :: (s ++ [']'])

theorem bracketSettings_cons {s : List Char} (hs : IsSetting s) {before : List Char}
    (hbefore : '[' ∉ before) (rest : List Char) :
    bracketSettings (before ++ (bracketed s ++ rest)) = s :: bracketSettings rest := by
  have hgroups : bracketGroups (before ++ (bracketed s ++ rest)) = s :: bracketGroups rest := by
    rw [bracketGroups_append hbefore, bracketed, List.cons_append, List.append_assoc,
      List.singleton_append, bracketGroups_cons hs.noBracket]
  rw [bracketSettings_of_groups hgroups, List.splitOn_eq_singleton hs.noComma, List.map_singleton,
    hs.trimmed]
  refine congrArg (· ++ bracketSettings rest) (List.filter_eq_self.2 fun t ht => ?_)
  rw [List.mem_singleton.1 ht]
  simp [hs.ne_nil]

/-- **Settings in brackets** that are joined by spaces are found again. -/
theorem bracketSettings_bracketed {settings : List (List Char)}
    (h : ∀ s ∈ settings, IsSetting s) :
    bracketSettings (unwords (settings.map bracketed)) = settings := by
  -- a space may stand before the first group
  suffices hspaced : ∀ before : List Char, '[' ∉ before →
      bracketSettings (before ++ unwords (settings.map bracketed)) = settings from
    hspaced [] List.not_mem_nil
  induction settings with
  | nil =>
    intro before hbefore
    rw [List.map_nil, unwords, List.intercalate_nil, List.append_nil,
      bracketSettings_eq_nil hbefore]
  | cons s rest ih =>
    intro before hbefore
    have hs := h s List.mem_cons_self
    have hrest := ih fun t ht => h t (List.mem_cons_of_mem s ht)
    cases rest with
    | nil =>
      have hone := bracketSettings_cons hs hbefore []
      rw [List.append_nil, bracketSettings_eq_nil List.not_mem_nil] at hone
      rw [List.map_cons, List.map_nil, unwords_singleton, hone]
    | cons t rest =>
      rw [List.map_cons, unwords_cons _ (by simp), bracketSettings_cons hs hbefore]
      exact congrArg (s :: ·) (hrest [' '] (by decide))

/-! ## Printed fields -/

/-- The settings that say what a field is, in their order. -/
def Field.settings (f : Field) : List (List Char) :=
  (if f.primary then ["primary key".toList] else []) ++
    (if f.required then "not null".toList else "nullable".toList) ::
      f.reference.toList.map Reference.setting

/-- The words of the settings in brackets. -/
def Field.remarkWords (f : Field) : List (List Char) :=
  (if f.primary then ["[primary".toList, "key]".toList] else []) ++
    (if f.required then ["[not".toList, "null]".toList] else ["[nullable]".toList]) ++
      f.reference.toList.flatMap fun r =>
        ["[ref:".toList, [r.direction.sign], qualified r.table r.field ++ [']']]

/-- The line of a field: its name, its type and its settings in brackets. -/
def Field.printed (f : Field) : List Char :=
  "  ".toList ++ unwords (f.name.toList :: f.type.toList :: f.settings.map bracketed)

/-- A word of schema text that does not close a block. -/
structure IsToken (s : String) : Prop where
  word : IsWord s.toList
  noBrace : '\x7d' ∉ s.toList

instance (s : String) : Decidable (IsToken s) :=
  decidable_of_iff (IsWord s.toList ∧ '\x7d' ∉ s.toList) ⟨fun h => ⟨h.1, h.2⟩, fun h => ⟨h.1, h.2⟩⟩

/-- A field that can be printed: its name and type are words, and its reference has names. -/
structure Field.Printable (f : Field) : Prop where
  name : IsToken f.name
  type : IsToken f.type
  reference : ∀ r ∈ f.reference, IsName r.table ∧ IsName r.field

instance (f : Field) : Decidable f.Printable :=
  decidable_of_iff
    (IsToken f.name ∧ IsToken f.type ∧ ∀ r ∈ f.reference, IsName r.table ∧ IsName r.field)
    ⟨fun h => ⟨h.1, h.2.1, h.2.2⟩, fun h => ⟨h.1, h.2, h.3⟩⟩

variable {f : Field}

theorem Field.unwords_remarkWords (f : Field) :
    unwords f.remarkWords = unwords (f.settings.map bracketed) := by
  obtain ⟨name, type, primary, required, reference⟩ := f
  cases primary <;> cases required <;> cases reference <;> rfl

/-- A printed field is its words joined by spaces. -/
theorem Field.printed_eq (f : Field) :
    f.printed = ' ' :: ' ' :: unwords (f.name.toList :: f.type.toList :: f.remarkWords) := by
  have hremarks : f.settings.map bracketed ≠ [] := by
    intro hnil
    rw [List.map_eq_nil_iff, Field.settings, List.append_eq_nil_iff] at hnil
    exact nomatch hnil.2
  have hremarkWords : f.remarkWords ≠ [] := by
    intro hnil
    rw [Field.remarkWords, List.append_eq_nil_iff, List.append_eq_nil_iff] at hnil
    have hmark := hnil.1.2
    split at hmark <;> exact nomatch hmark
  rw [unwords_cons _ (List.cons_ne_nil _ _), unwords_cons _ hremarkWords,
    Field.unwords_remarkWords, Field.printed, unwords_cons _ (List.cons_ne_nil _ _),
    unwords_cons _ hremarks]
  rfl

/-- The words that the remarks of a field can have. -/
theorem Field.mem_remarkWords {w : List Char} (hw : w ∈ f.remarkWords) :
    (f.primary = true ∧ w = "[primary".toList) ∨ (f.required = true ∧ w = "[not".toList) ∨
      w ∈ ["key]".toList, "null]".toList, "[nullable]".toList, "[ref:".toList, ['>'], ['<']] ∨
      ∃ r ∈ f.reference, w = qualified r.table r.field ++ [']'] := by
  simp only [remarkWords, List.mem_append, List.mem_flatMap, Option.mem_toList] at hw
  rcases hw with (hw | hw) | ⟨r, hr, hw⟩
  · split at hw
    · next hp =>
      simp only [List.mem_cons, List.not_mem_nil, or_false] at hw
      rcases hw with rfl | rfl
      · exact Or.inl ⟨hp, rfl⟩
      · exact Or.inr (Or.inr (Or.inl (by decide)))
    · exact nomatch hw
  · split at hw
    · next hr =>
      simp only [List.mem_cons, List.not_mem_nil, or_false] at hw
      rcases hw with rfl | rfl
      · exact Or.inr (Or.inl ⟨hr, rfl⟩)
      · exact Or.inr (Or.inr (Or.inl (by decide)))
    · rw [List.mem_singleton.1 hw]
      exact Or.inr (Or.inr (Or.inl (by decide)))
  · simp only [List.mem_cons, List.not_mem_nil, or_false] at hw
    rcases hw with rfl | rfl | rfl
    · exact Or.inr (Or.inr (Or.inl (by decide)))
    · cases r.direction <;> exact Or.inr (Or.inr (Or.inl (by decide)))
    · exact Or.inr (Or.inr (Or.inr ⟨r, hr, rfl⟩))

/-- The words of the remarks have name characters and a few signs. -/
theorem Field.Printable.remarkWords_chars (hf : f.Printable) {w : List Char}
    (hw : w ∈ f.remarkWords) :
    w ≠ [] ∧ ∀ c ∈ w, isNameChar c = true ∨ c ∈ ['[', ']', ':', '.', '>', '<'] := by
  have hconst : ∀ w ∈ ["[primary".toList, "[not".toList, "key]".toList, "null]".toList,
      "[nullable]".toList, "[ref:".toList, ['>'], ['<']],
      w ≠ [] ∧ ∀ c ∈ w, isNameChar c = true ∨ c ∈ ['[', ']', ':', '.', '>', '<'] := by decide
  rcases Field.mem_remarkWords hw with ⟨-, rfl⟩ | ⟨-, rfl⟩ | hw | ⟨r, hr, rfl⟩
  · exact hconst _ (by decide)
  · exact hconst _ (by decide)
  · exact hconst w (List.mem_cons_of_mem _ (List.mem_cons_of_mem _ hw))
  · refine ⟨by simp, fun c hc => ?_⟩
    obtain ⟨htable, hfield⟩ := hf.reference r hr
    rcases List.mem_append.1 hc with hc | hc
    · exact (mem_qualified htable hfield hc).imp_right (by rintro rfl; decide)
    · obtain rfl := List.mem_singleton.1 hc
      exact Or.inr (by decide)

theorem Field.Printable.isWord_remarkWords (hf : f.Printable) : ∀ w ∈ f.remarkWords, IsWord w := by
  have hsigns : ∀ c ∈ ['[', ']', ':', '.', '>', '<'], isBlank c = false := by decide
  intro w hw
  obtain ⟨hne, hchars⟩ := hf.remarkWords_chars hw
  refine ⟨hne, fun c hc => ?_⟩
  exact (hchars c hc).elim isBlank_eq_false_of_isNameChar (hsigns c)

theorem Field.Printable.isWord_words (hf : f.Printable) :
    ∀ w ∈ f.name.toList :: f.type.toList :: f.remarkWords, IsWord w := by
  intro w hw
  rcases List.mem_cons.1 hw with rfl | hw
  · exact hf.name.word
  · rcases List.mem_cons.1 hw with rfl | hw
    · exact hf.type.word
    · exact hf.isWord_remarkWords w hw

theorem Field.Printable.brace_not_mem_remarkWords (hf : f.Printable) :
    ∀ w ∈ f.remarkWords, '\x7d' ∉ w := by
  intro w hw hc
  rcases (hf.remarkWords_chars hw).2 _ hc with hc | hc
  · exact absurd hc (by decide)
  · exact absurd hc (by decide)

/-- A word of the remarks that ends in `y` is of the mark of a primary key, and one that ends in `t`
of the mark of a required field. -/
theorem Field.said_of_getLast? {w : List Char} (hw : w ∈ f.remarkWords) :
    (w.getLast? = some 'y' → f.primary = true) ∧ (w.getLast? = some 't' → f.required = true) := by
  have hconst : ∀ w ∈ ["key]".toList, "null]".toList, "[nullable]".toList, "[ref:".toList, ['>'],
      ['<']], w.getLast? ≠ some 'y' ∧ w.getLast? ≠ some 't' := by decide
  rcases Field.mem_remarkWords hw with ⟨hp, rfl⟩ | ⟨hr, rfl⟩ | hw | ⟨r, -, rfl⟩
  · exact ⟨fun _ => hp, fun h => absurd h (by decide)⟩
  · exact ⟨fun h => absurd h (by decide), fun _ => hr⟩
  · obtain ⟨hy, ht⟩ := hconst w hw
    exact ⟨fun h => absurd h hy, fun h => absurd h ht⟩
  · rw [List.getLast?_concat]
    exact ⟨fun h => absurd h (by decide), fun h => absurd h (by decide)⟩

/-! ## What the remarks contain -/

/-- What the remarks say in one bracket stands inside them. -/
theorem Field.infix_remarks {s mark : List Char} (hs : s ∈ f.settings)
    (hmark : mark <:+: bracketed s) :
    mark <:+: unwords f.remarkWords := by
  rw [Field.unwords_remarkWords]
  exact hmark.trans (infix_unwords_of_mem (List.mem_map_of_mem hs))

/-- The remarks contain a mark with a space exactly when the field says it: one of its settings has
the mark then, and no word of the others ends in the character before the space. -/
theorem Field.Printable.contains_mark (hf : f.Printable) {s mark : List Char} {x : Char}
    {said : Bool} (hx : x ≠ ' ') (hpair : [x, ' '] <:+: mark)
    (hword : ∀ w ∈ f.remarkWords, w.getLast? = some x → said = true)
    (hmark : mark <:+: bracketed s) (hsetting : said = true → s ∈ f.settings) :
    contains (unwords f.remarkWords) mark = said := by
  have hne : mark ≠ [] := by
    rintro rfl
    exact absurd (List.infix_nil.1 hpair) (List.cons_ne_nil _ _)
  rw [Bool.eq_iff_iff, contains_eq_true_iff hne]
  refine ⟨fun h => ?_, fun hsaid => Field.infix_remarks (hsetting hsaid) hmark⟩
  -- what stands before the space ends one of the words
  have hnoSpace : ∀ w ∈ f.remarkWords, ' ' ∉ w := fun w hw hspace =>
    absurd ((hf.isWord_remarkWords w hw).not_blank ' ' hspace) (by decide)
  obtain ⟨w, hw, hlast⟩ := exists_getLast?_of_infix hx hnoSpace (hpair.trans h)
  exact hword w hw hlast

/-- The remarks contain the mark of a primary key exactly when the field has it. -/
theorem Field.Printable.contains_primary (hf : f.Printable) :
    contains (unwords f.remarkWords) "[primary key]".toList = f.primary := by
  refine hf.contains_mark (s := "primary key".toList) (x := 'y') (by decide)
    ⟨"[primar".toList, "key]".toList, rfl⟩ (fun w hw => (Field.said_of_getLast? hw).1)
    (List.infix_refl _) fun hp => ?_
  rw [Field.settings, if_pos hp]
  exact List.mem_append_left _ List.mem_cons_self

/-- The remarks contain the mark of a required field exactly when the field is one. -/
theorem Field.Printable.contains_required (hf : f.Printable) :
    contains (unwords f.remarkWords) "not null".toList = f.required := by
  refine hf.contains_mark (s := "not null".toList) (x := 't') (by decide)
    ⟨"no".toList, "null".toList, rfl⟩ (fun w hw => (Field.said_of_getLast? hw).2)
    ⟨['['], [']'], rfl⟩ fun hr => ?_
  rw [Field.settings, if_pos hr]
  exact List.mem_append_right _ List.mem_cons_self

theorem Field.contains_nullable (h : f.required = false) :
    contains (unwords f.remarkWords) "nullable".toList = true := by
  rw [contains_eq_true_iff (by decide)]
  refine Field.infix_remarks (s := "nullable".toList) ?_ ⟨['['], [']'], rfl⟩
  rw [Field.settings, h]
  exact List.mem_append_right _ List.mem_cons_self

/-! ## Reading a printed field -/

/-- The characters of a reference setting are name characters and a few others. -/
theorem Reference.mem_setting {r : Reference} (htable : IsName r.table) (hfield : IsName r.field)
    {c : Char} (hc : c ∈ r.setting) : c ∈ "ref: ><.".toList ∨ isNameChar c = true := by
  simp only [setting, List.mem_append, List.mem_cons] at hc
  rcases hc with hc | rfl | rfl | rfl | hc
  · exact Or.inl (List.mem_append_left " ><.".toList hc)
  · exact Or.inl (by decide)
  · cases r.direction <;> exact Or.inl (by decide)
  · exact Or.inl (by decide)
  · exact (mem_qualified htable hfield hc).symm.imp_left (by rintro rfl; decide)

theorem Reference.isSetting {r : Reference} (htable : IsName r.table) (hfield : IsName r.field) :
    IsSetting r.setting where
  ne_nil := List.cons_ne_nil _ _
  noComma h := by
    rcases Reference.mem_setting htable hfield h with h | h
    · exact absurd h (by decide)
    · exact absurd h (by decide)
  noBracket h := by
    rcases Reference.mem_setting htable hfield h with h | h
    · exact absurd h (by decide)
    · exact absurd h (by decide)
  trimmed := by
    refine trim_eq_self ?_ ?_
    · rintro c ⟨⟩
      rfl
    · intro c hc
      -- the last character is the last one of the field name
      have hlast : r.setting.getLast? = r.field.toList.getLast? := by
        have hsplit : r.setting =
            (referenceMark ++ ' ' :: r.direction.sign :: ' ' :: (r.table.toList ++ ['.'])) ++
              r.field.toList := by
          simp [setting, qualified]
        rw [hsplit, List.getLast?_append, List.getLast?_eq_some_getLast hfield.ne_nil]
        rfl
      rw [hlast] at hc
      exact isBlank_eq_false_of_isNameChar (hfield.nameChars c (List.mem_of_getLast? hc))

theorem Field.Printable.isSetting (hf : f.Printable) : ∀ s ∈ f.settings, IsSetting s := by
  have hconst : ∀ s ∈ ["primary key".toList, "not null".toList, "nullable".toList],
      s ≠ [] ∧ ',' ∉ s ∧ ']' ∉ s ∧ trim s = s := by decide +kernel
  have hsetting : ∀ s ∈ ["primary key".toList, "not null".toList, "nullable".toList],
      IsSetting s := fun s hs =>
    ⟨(hconst s hs).1, (hconst s hs).2.1, (hconst s hs).2.2.1, (hconst s hs).2.2.2⟩
  intro s hs
  rw [Field.settings, List.mem_append, List.mem_cons, List.mem_map] at hs
  rcases hs with hs | rfl | ⟨r, hr, rfl⟩
  · split at hs
    · rw [List.mem_singleton.1 hs]
      exact hsetting _ (by decide)
    · exact nomatch hs
  · split
    · exact hsetting _ (by decide)
    · exact hsetting _ (by decide)
  · have hnames := hf.reference r (Option.mem_toList.1 hr)
    exact Reference.isSetting hnames.1 hnames.2

/-- The only setting of a field that says a reference is the one of its reference. -/
theorem Field.Printable.firstReference_settings (hf : f.Printable) :
    firstReference f.settings = (f.reference, []) := by
  have hreference : firstReference (f.reference.toList.map Reference.setting) =
      (f.reference, []) := by
    cases href : f.reference with
    | none => rfl
    | some r =>
      have hnames := hf.reference r href
      have hmark : referenceMark.isPrefixOf r.setting = true :=
        List.isPrefixOf_iff_prefix.2 (List.prefix_append _ _)
      rw [Option.toList_some, List.map_cons, List.map_nil, firstReference, if_pos hmark,
        Reference.ofSetting_setting hnames.1 hnames.2]
  rw [Field.settings]
  cases f.primary <;> cases f.required <;> exact hreference

/-- **A printed field** is read back from its line, without an issue. -/
theorem Field.Printable.ofLine?_printed (hf : f.Printable) (line : Nat) :
    Field.ofLine? line f.printed = some (f, []) := by
  have hwords : words f.printed = f.name.toList :: f.type.toList :: f.remarkWords := by
    rw [Field.printed_eq, words_cons_blank rfl, words_cons_blank rfl, words_unwords hf.isWord_words]
  have hrequired : (!contains (unwords f.remarkWords) "nullable".toList ||
      contains (unwords f.remarkWords) "not null".toList) = f.required := by
    rw [hf.contains_required]
    cases hr : f.required with
    | true => rw [Bool.or_true]
    | false => rw [Field.contains_nullable hr, Bool.not_true, Bool.or_false]
  have hsettings : bracketSettings (unwords f.remarkWords) = f.settings := by
    rw [Field.unwords_remarkWords, bracketSettings_bracketed hf.isSetting]
  rw [Field.ofLine?, hwords]
  dsimp only
  rw [Field.ofWords, List.drop_one, List.tail_cons, hsettings, hf.firstReference_settings,
    hf.contains_primary, hrequired, List.head?_cons, Option.map_some, Option.getD_some,
    String.ofList_toList, String.ofList_toList]
  rfl

end SchemaDiagram
