/-
# Another target for a reference

A field line with a reference in brackets says the same about its field whatever the reference
refers to, with one exception.  The key and the null of a field are searched for anywhere in its
remarks, and the remarks have the names of the reference too: a name with the word for null in it
makes a field optional.

* `ReferringLine` : a field line around a reference, with other remarks before and behind it;
* `ReferringLine.exists_bracketSettings` : the settings of its remarks;
* `ReferringLine.contains_remarks_nullable` and the others : what is found in its remarks;
* `ReferringLine.ofLine?_text` : the field of such a line;
* `ReferringLine.ofLine?_retarget` : two such lines with different targets.
-/
import SchemaDiagram.Proofs.Schema.Remarks
import SchemaDiagram.Proofs.Text.Spacing

namespace SchemaDiagram

open Text

/-! ## Lines around a reference -/

/-- A bracket group with the text in front of it. -/
structure RemarkGroup where
  gap : List Char
  inside : List Char

/-- A group that has no reference: its bracket is the first one and is closed at its end, and none
of its settings has the mark of a reference. -/
structure RemarkGroup.Plain (g : RemarkGroup) : Prop where
  gap : '[' ∉ g.gap
  inside : ']' ∉ g.inside
  settings : ∀ s ∈ g.inside.splitOn ',', ¬ referenceMark <+: trim s

instance (g : RemarkGroup) : Decidable g.Plain :=
  decidable_of_iff
    ('[' ∉ g.gap ∧ ']' ∉ g.inside ∧ ∀ s ∈ g.inside.splitOn ',', ¬ referenceMark <+: trim s)
    ⟨fun h => ⟨h.1, h.2.1, h.2.2⟩, fun h => ⟨h.1, h.2, h.3⟩⟩

/-- The text of a group with its brackets. -/
def RemarkGroup.text (g : RemarkGroup) : List Char := g.gap ++ bracketed g.inside

/-- A field line around a reference: the name and the type with blanks around them, groups before
the reference, the text between them and the reference, and any remarks behind it. -/
structure ReferringLine where
  indent : List Char
  name : List Char
  gap : List Char
  type : List Char
  tab : List Char
  groups : List RemarkGroup
  between : List Char
  behind : List Char

namespace ReferringLine

/-- A line with a name and a type, and no reference before the one that it is around. -/
structure WellFormed (l : ReferringLine) : Prop where
  indent : ∀ c ∈ l.indent, isBlank c = true
  name : IsWord l.name
  gap_ne_nil : l.gap ≠ []
  gap : ∀ c ∈ l.gap, isBlank c = true
  type : IsWord l.type
  tab_ne_nil : l.tab ≠ []
  tab : ∀ c ∈ l.tab, isBlank c = true
  groups : ∀ g ∈ l.groups, g.Plain
  between : '[' ∉ l.between

instance (l : ReferringLine) : Decidable l.WellFormed :=
  decidable_of_iff
    ((∀ c ∈ l.indent, isBlank c = true) ∧ IsWord l.name ∧ l.gap ≠ [] ∧
      (∀ c ∈ l.gap, isBlank c = true) ∧ IsWord l.type ∧ l.tab ≠ [] ∧
      (∀ c ∈ l.tab, isBlank c = true) ∧ (∀ g ∈ l.groups, g.Plain) ∧ '[' ∉ l.between)
    ⟨fun h => ⟨h.1, h.2.1, h.2.2.1, h.2.2.2.1, h.2.2.2.2.1, h.2.2.2.2.2.1, h.2.2.2.2.2.2.1,
        h.2.2.2.2.2.2.2.1, h.2.2.2.2.2.2.2.2⟩,
      fun h => ⟨h.1, h.2, h.3, h.4, h.5, h.6, h.7, h.8, h.9⟩⟩

/-- The remarks before the reference. -/
def before (l : ReferringLine) : List Char := l.groups.flatMap RemarkGroup.text ++ l.between

/-- The remarks with a reference among them. -/
def remarks (l : ReferringLine) (r : Reference) : List Char :=
  l.before ++ (bracketed r.setting ++ l.behind)

/-- The line with a reference. -/
def text (l : ReferringLine) (r : Reference) : List Char :=
  l.indent ++ (l.name ++ (l.gap ++ (l.type ++ (l.tab ++ l.remarks r))))

/-- Whether the remarks beside the reference have a mark in them, on one side of it. -/
def hasMark (l : ReferringLine) (mark : String) : Bool :=
  contains (unwords (words l.before)) mark.toList ||
    contains (unwords (words l.behind)) mark.toList

end ReferringLine

/-- Whether a name of a reference has the word for null in it. -/
def Reference.namesNullable (r : Reference) : Bool :=
  contains r.table.toList "nullable".toList || contains r.field.toList "nullable".toList

/-! ## The words of a line -/

namespace ReferringLine

variable {l : ReferringLine} {r : Reference}

/-- The words of a line are its name, its type, and those of its remarks. -/
theorem words_text (hl : l.WellFormed) (r : Reference) :
    words (l.text r) = l.name :: l.type :: words (l.remarks r) := by
  have hskip : ∀ {blanks : List Char}, (∀ c ∈ blanks, isBlank c = true) →
      ∀ rest, words (blanks ++ rest) = words rest := by
    intro blanks hblanks rest
    rw [← words_dropWhile, List.dropWhile_append_of_pos hblanks, words_dropWhile]
  have hfirst : ∀ {w blanks : List Char}, IsWord w → blanks ≠ [] →
      (∀ c ∈ blanks, isBlank c = true) →
      ∀ rest, words (w ++ (blanks ++ rest)) = w :: words rest := by
    intro w blanks hw hne hblanks rest
    obtain ⟨b, blanks, rfl⟩ := List.exists_cons_of_ne_nil hne
    obtain ⟨hb, hblanks⟩ := List.forall_mem_cons.1 hblanks
    rw [List.cons_append, words_append_blank hb, words_of_isWord hw, hskip hblanks]
    rfl
  rw [text, hskip hl.indent, hfirst hl.name hl.gap_ne_nil hl.gap,
    hfirst hl.type hl.tab_ne_nil hl.tab]

/-! ## The settings of the remarks -/

/-- The words of a reference setting, joined. -/
theorem unwords_words_setting (htable : IsName r.table) (hfield : IsName r.field) :
    unwords (words r.setting) = r.setting := by
  have hsetting : r.setting =
      unwords [referenceMark, [r.direction.sign], qualified r.table r.field] := by
    rw [unwords_cons _ (List.cons_ne_nil _ _), unwords_cons _ (List.cons_ne_nil _ _),
      unwords_singleton, Reference.setting]
    rfl
  have hwords : ∀ w ∈ [referenceMark, [r.direction.sign], qualified r.table r.field],
      IsWord w := by
    intro w hw
    simp only [List.mem_cons, List.not_mem_nil, or_false] at hw
    rcases hw with rfl | rfl | rfl
    · decide
    · exact ⟨List.cons_ne_nil _ _, by simpa using r.direction.sign_not_blank⟩
    · refine ⟨by simp [qualified], fun c hc => ?_⟩
      rcases mem_qualified htable hfield hc with hc | rfl
      · exact isBlank_eq_false_of_isNameChar hc
      · decide
  rw [hsetting, words_unwords hwords]

/-- The first group of joined words, with at most spaces around its words. -/
theorem exists_bracketGroups {gap inside : List Char} (hgap : '[' ∉ gap) (hinside : ']' ∉ inside)
    (rest : List Char) :
    ∃ sep sep' : List Char, (∀ x ∈ sep, x = ' ') ∧ (∀ x ∈ sep', x = ' ') ∧
      bracketGroups (unwords (words (gap ++ (bracketed inside ++ rest)))) =
        (sep ++ (unwords (words inside) ++ sep')) ::
          bracketGroups (unwords (words rest)) := by
  obtain ⟨sep₀, sep, hsep₀, hsep, heq⟩ :=
    exists_unwords_words_append (c := '[') (by decide) gap (inside ++ ']' :: rest)
  obtain ⟨sep', sep₁, hsep', hsep₁, heq'⟩ :=
    exists_unwords_words_append (c := ']') (by decide) inside rest
  have hspace : ∀ {sep : List Char} {x : Char}, (∀ c ∈ sep, c = ' ') → x ≠ ' ' → x ∉ sep :=
    fun hsep hx hmem => hx (hsep _ hmem)
  have hfront : '[' ∉ unwords (words gap) ++ sep₀ := by
    rw [List.mem_append, not_or]
    refine ⟨fun hmem => ?_, hspace hsep₀ (by decide)⟩
    exact (mem_of_mem_unwords_words hmem).elim (absurd · (by decide)) hgap
  have hgroup : ']' ∉ sep ++ (unwords (words inside) ++ sep') := by
    rw [List.mem_append, List.mem_append, not_or, not_or]
    refine ⟨hspace hsep (by decide), fun hmem => ?_, hspace hsep' (by decide)⟩
    exact (mem_of_mem_unwords_words hmem).elim (absurd · (by decide)) hinside
  refine ⟨sep, sep', hsep, hsep', ?_⟩
  have hshape : unwords (words (gap ++ (bracketed inside ++ rest))) =
      (unwords (words gap) ++ sep₀) ++ ('[' :: ((sep ++ (unwords (words inside) ++ sep')) ++
        ']' :: (sep₁ ++ unwords (words rest)))) := by
    rw [bracketed, List.cons_append, List.append_assoc, List.singleton_append, heq, heq']
    simp only [List.append_assoc]
  rw [hshape, bracketGroups_append hfront, bracketGroups_cons hgroup,
    bracketGroups_append (hspace hsep₁ (by decide))]

/-- The settings of one group. -/
def groupSettings (group : List Char) : List (List Char) :=
  ((group.splitOn ',').map trim).filter fun setting => !setting.isEmpty

/-- A group without references has none when its words are joined. -/
theorem not_prefix_of_mem_groupSettings {inside sep sep' : List Char}
    (hsep : ∀ x ∈ sep, x = ' ') (hsep' : ∀ x ∈ sep', x = ' ')
    (hplain : ∀ s ∈ inside.splitOn ',', ¬ referenceMark <+: trim s) :
    ∀ s ∈ groupSettings (sep ++ (unwords (words inside) ++ sep')), ¬ referenceMark <+: s := by
  intro s hs hmark
  obtain ⟨piece, hpiece, rfl⟩ := List.mem_map.1 (List.mem_filter.1 hs).1
  obtain ⟨raw, hraw, heq⟩ := exists_piece hsep hsep' hpiece
  rw [heq, ← words_trim] at hmark
  exact hplain raw hraw (prefix_of_prefix_unwords (by decide) (head?_trim raw) hmark)

/-- The groups without references come first. -/
theorem exists_bracketSettings_groups {groups : List RemarkGroup} (hgroups : ∀ g ∈ groups, g.Plain)
    (rest : List Char) :
    ∃ earlier : List (List Char), (∀ s ∈ earlier, ¬ referenceMark <+: s) ∧
      bracketSettings (unwords (words (groups.flatMap RemarkGroup.text ++ rest))) =
        earlier ++ bracketSettings (unwords (words rest)) := by
  induction groups with
  | nil => exact ⟨[], by simp, rfl⟩
  | cons g groups ih =>
    obtain ⟨hg, hgroups⟩ := List.forall_mem_cons.1 hgroups
    obtain ⟨earlier, hearlier, heq⟩ := ih hgroups
    obtain ⟨sep, sep', hsep, hsep', hfirst⟩ :=
      exists_bracketGroups hg.gap hg.inside (groups.flatMap RemarkGroup.text ++ rest)
    refine ⟨groupSettings (sep ++ (unwords (words g.inside) ++ sep')) ++ earlier, ?_, ?_⟩
    · intro s hs
      rcases List.mem_append.1 hs with hs | hs
      · exact not_prefix_of_mem_groupSettings hsep hsep' hg.settings s hs
      · exact hearlier s hs
    · rw [List.flatMap_cons, RemarkGroup.text, List.append_assoc, List.append_assoc,
        bracketSettings_of_groups hfirst, heq, List.append_assoc]
      rfl

/-- **The settings of the remarks**: the reference comes behind settings that say none. -/
theorem exists_bracketSettings (hl : l.WellFormed) (htable : IsName r.table)
    (hfield : IsName r.field) :
    ∃ earlier later : List (List Char), (∀ s ∈ earlier, ¬ referenceMark <+: s) ∧
      bracketSettings (unwords (words (l.remarks r))) = earlier ++ r.setting :: later := by
  have hsetting := Reference.isSetting htable hfield
  obtain ⟨earlier, hearlier, heq⟩ := exists_bracketSettings_groups hl.groups
    (l.between ++ (bracketed r.setting ++ l.behind))
  obtain ⟨sep, sep', hsep, hsep', hfirst⟩ :=
    exists_bracketGroups hl.between hsetting.noBracket l.behind
  refine ⟨earlier, bracketSettings (unwords (words l.behind)), hearlier, ?_⟩
  have hown : groupSettings (sep ++ (unwords (words r.setting) ++ sep')) = [r.setting] := by
    rw [groupSettings, splitOn_unwords_words hsep hsep' hsetting.noComma, List.map_singleton,
      trim_unwords_words hsep hsep', unwords_words_setting htable hfield]
    exact List.filter_cons_of_pos (by simp [hsetting.ne_nil])
  rw [remarks, before, List.append_assoc, heq]
  refine congrArg (earlier ++ ·) ?_
  rw [bracketSettings_of_groups hfirst]
  exact congrArg (· ++ _) hown

/-- Settings without the mark of a reference say none. -/
theorem firstReference_append {earlier : List (List Char)}
    (h : ∀ s ∈ earlier, ¬ referenceMark <+: s) (rest : List (List Char)) :
    firstReference (earlier ++ rest) = firstReference rest := by
  induction earlier with
  | nil => rfl
  | cons s earlier ih =>
    obtain ⟨hs, hearlier⟩ := List.forall_mem_cons.1 h
    rw [← List.isPrefixOf_iff_prefix] at hs
    rw [List.cons_append, firstReference, if_neg hs, ih hearlier]

/-- The reference of a line is the one that it is around. -/
theorem firstReference_remarks (hl : l.WellFormed) (htable : IsName r.table)
    (hfield : IsName r.field) :
    firstReference (bracketSettings (unwords (words (l.remarks r)))) = (some r, []) := by
  obtain ⟨earlier, later, hearlier, heq⟩ := exists_bracketSettings hl htable hfield
  have hmark : referenceMark.isPrefixOf r.setting = true :=
    List.isPrefixOf_iff_prefix.2 (List.prefix_append _ _)
  rw [heq, firstReference_append hearlier, firstReference, if_pos hmark,
    Reference.ofSetting_setting htable hfield]

/-! ## What is found in the remarks -/

/-- The words of the remarks, joined: those before the reference, the reference in its brackets and
those behind it, with at most spaces between. -/
theorem exists_unwords_remarks (l : ReferringLine) (htable : IsName r.table)
    (hfield : IsName r.field) :
    ∃ sep₀ sep₁ sep₂ sep₃ : List Char,
      (∀ sep ∈ [sep₀, sep₁, sep₂, sep₃], ∀ c ∈ sep, c = ' ') ∧
      unwords (words (l.remarks r)) = (unwords (words l.before) ++ sep₀) ++ '[' ::
        ((sep₁ ++ (r.setting ++ sep₂)) ++ ']' :: (sep₃ ++ unwords (words l.behind))) := by
  obtain ⟨sep₀, sep₁, h₀, h₁, heq⟩ :=
    exists_unwords_words_append (c := '[') (by decide) l.before (r.setting ++ ']' :: l.behind)
  obtain ⟨sep₂, sep₃, h₂, h₃, heq'⟩ :=
    exists_unwords_words_append (c := ']') (by decide) r.setting l.behind
  refine ⟨sep₀, sep₁, sep₂, sep₃, by simpa using ⟨h₀, h₁, h₂, h₃⟩, ?_⟩
  rw [remarks, bracketed, List.cons_append, List.append_assoc, List.singleton_append, heq, heq',
    unwords_words_setting htable hfield]
  simp only [List.append_assoc]

/-- A word without brackets that has no space at its ends stands in the remarks on one side of the
reference or in it. -/
theorem infix_remarks_iff (l : ReferringLine) (htable : IsName r.table) (hfield : IsName r.field)
    {mark : List Char} (hmark : mark ≠ []) (hopen : '[' ∉ mark) (hclose : ']' ∉ mark)
    (hhead : ∀ c ∈ mark.head?, c ≠ ' ') (hlast : ∀ c ∈ mark.getLast?, c ≠ ' ') :
    mark <:+: unwords (words (l.remarks r)) ↔
      mark <:+: unwords (words l.before) ∨ mark <:+: r.setting ∨
        mark <:+: unwords (words l.behind) := by
  obtain ⟨sep₀, sep₁, sep₂, sep₃, hsep, heq⟩ := exists_unwords_remarks l htable hfield
  -- at most spaces before or behind do not matter
  have hright : ∀ sep ∈ [sep₀, sep₁, sep₂, sep₃], ∀ s, mark <:+: sep ++ s ↔ mark <:+: s :=
    fun sep hmem s => infix_append_iff_right hmark fun c hc h => hhead c hc (hsep sep hmem c h)
  have hleft : ∀ sep ∈ [sep₀, sep₁, sep₂, sep₃], ∀ s, mark <:+: s ++ sep ↔ mark <:+: s :=
    fun sep hmem s => infix_append_iff_left hmark fun c hc h => hlast c hc (hsep sep hmem c h)
  rw [heq, infix_append_cons_iff hopen, infix_append_cons_iff hclose, hleft sep₀ (by simp),
    hright sep₁ (by simp), hleft sep₂ (by simp), hright sep₃ (by simp)]

/-- What the names of a reference have in them, its setting has, and no other word without a space,
a sign or a point. -/
theorem infix_setting_iff {mark : List Char} (hspace : ' ' ∉ mark) (hpoint : '.' ∉ mark)
    (hmark : ¬ mark <:+: referenceMark) (hsign : ¬ mark <:+: [r.direction.sign]) :
    mark <:+: r.setting ↔ mark <:+: r.table.toList ∨ mark <:+: r.field.toList := by
  have hshape : r.setting = referenceMark ++ ' ' :: ([r.direction.sign] ++
      ' ' :: (r.table.toList ++ '.' :: r.field.toList)) := rfl
  rw [hshape, infix_append_cons_iff hspace, infix_append_cons_iff hspace,
    infix_append_cons_iff hpoint, or_iff_right hmark, or_iff_right hsign]

/-- The setting of a reference does not say that a field is required. -/
theorem not_infix_setting (htable : IsName r.table) (hfield : IsName r.field) :
    ¬ "not null".toList <:+: r.setting := by
  have hspace : ∀ {n : String}, IsName n → ¬ "not null".toList <:+: n.toList := fun hn h =>
    absurd (hn.nameChars ' ' (h.subset (by decide))) (by decide)
  have hshape : r.setting = (referenceMark ++ [' ']) ++ r.direction.sign ::
      (([' '] ++ r.table.toList) ++ '.' :: r.field.toList) := by
    simp [Reference.setting, qualified]
  have hsign : r.direction.sign ∉ "not null".toList := by
    cases r.direction <;> decide
  have hpoint : '.' ∉ "not null".toList := by decide
  have hhead : ∀ c ∈ "not null".toList.head?, c ∉ [' '] := by
    rintro _ ⟨⟩
    decide
  rw [hshape, infix_append_cons_iff hsign, infix_append_cons_iff hpoint,
    infix_append_iff_right (by decide) hhead]
  rintro (h | h | h)
  · exact absurd h (by decide)
  · exact hspace htable h
  · exact hspace hfield h

/-- The word for null is found beside the reference or in its names. -/
theorem contains_remarks_nullable (l : ReferringLine) (htable : IsName r.table)
    (hfield : IsName r.field) :
    contains (unwords (words (l.remarks r))) "nullable".toList =
      (l.hasMark "nullable" || r.namesNullable) := by
  have hne : "nullable".toList ≠ [] := by decide
  have hsign : ¬ "nullable".toList <:+: [r.direction.sign] := by
    cases r.direction <;> decide
  have hends : ∀ c ∈ ['n', 'e'], c ≠ ' ' := by decide
  have hsetting : "nullable".toList <:+: r.setting ↔ _ :=
    infix_setting_iff (by decide) (by decide) (by decide) hsign
  rw [Bool.eq_iff_iff, hasMark, Reference.namesNullable, Bool.or_eq_true, Bool.or_eq_true,
    Bool.or_eq_true, contains_eq_true_iff hne, contains_eq_true_iff hne, contains_eq_true_iff hne,
    contains_eq_true_iff hne, contains_eq_true_iff hne,
    infix_remarks_iff l htable hfield hne (by decide) (by decide)
      (by rintro _ ⟨⟩; decide) (by rintro _ ⟨⟩; decide), hsetting]
  constructor
  · rintro (h | h | h)
    · exact Or.inl (Or.inl h)
    · exact Or.inr h
    · exact Or.inl (Or.inr h)
  · rintro ((h | h) | h)
    · exact Or.inl h
    · exact Or.inr (Or.inr h)
    · exact Or.inr (Or.inl h)

/-- The mark of a required field is found beside the reference. -/
theorem contains_remarks_notNull (l : ReferringLine) (htable : IsName r.table)
    (hfield : IsName r.field) :
    contains (unwords (words (l.remarks r))) "not null".toList = l.hasMark "not null" := by
  have hne : "not null".toList ≠ [] := by decide
  rw [Bool.eq_iff_iff, hasMark, Bool.or_eq_true, contains_eq_true_iff hne, contains_eq_true_iff hne,
    contains_eq_true_iff hne, infix_remarks_iff l htable hfield hne (by decide) (by decide)
      (by rintro _ ⟨⟩; decide) (by rintro _ ⟨⟩; decide),
    or_iff_right (not_infix_setting htable hfield)]

/-- The mark of a primary key is found beside the reference: the colon of the reference keeps it
apart from its bracket before, and it begins at a bracket itself. -/
theorem contains_remarks_primary (l : ReferringLine) (htable : IsName r.table)
    (hfield : IsName r.field) :
    contains (unwords (words (l.remarks r))) "[primary key]".toList =
      l.hasMark "[primary key]" := by
  have hne : "[primary key]".toList ≠ [] := by decide
  obtain ⟨sep₀, sep₁, sep₂, sep₃, hsep, heq⟩ := exists_unwords_remarks l htable hfield
  have hspace : ∀ sep ∈ [sep₀, sep₁, sep₂, sep₃], '[' ∉ sep ∧ ']' ∉ sep := fun sep hmem =>
    ⟨fun h => absurd (hsep sep hmem _ h) (by decide),
      fun h => absurd (hsep sep hmem _ h) (by decide)⟩
  obtain ⟨tail, hsetting, hopen⟩ :
      ∃ tail, r.setting = ['r', 'e', 'f'] ++ ':' :: tail ∧ '[' ∉ tail := by
    refine ⟨r.setting.drop 4, rfl, fun h => ?_⟩
    rcases Reference.mem_setting htable hfield (List.mem_of_mem_drop h) with h | h
    · exact absurd h (by decide)
    · exact absurd h (by decide)
  have hshape : unwords (words (l.remarks r)) =
      (unwords (words l.before) ++ (sep₀ ++ '[' :: (sep₁ ++ ['r', 'e', 'f']))) ++ ':' ::
        ((tail ++ (sep₂ ++ ']' :: sep₃)) ++ unwords (words l.behind)) := by
    rw [heq, hsetting]
    simp only [List.append_assoc, List.cons_append]
  have hfront : ∀ c ∈ "[primary key]".toList.getLast?,
      c ∉ sep₀ ++ '[' :: (sep₁ ++ ['r', 'e', 'f']) := by
    intro c hc
    obtain rfl : ']' = c := Option.some.inj hc
    simp [hspace]
  have hback : ∀ c ∈ "[primary key]".toList.head?, c ∉ tail ++ (sep₂ ++ ']' :: sep₃) := by
    intro c hc
    obtain rfl : '[' = c := Option.some.inj hc
    simp [hspace, hopen]
  rw [Bool.eq_iff_iff, hasMark, Bool.or_eq_true, contains_eq_true_iff hne, contains_eq_true_iff hne,
    contains_eq_true_iff hne, hshape, infix_append_cons_iff (by decide),
    infix_append_iff_left hne hfront, infix_append_iff_right hne hback]

/-! ## The field of the line -/

/-- **The field of a line around a reference** has the name and the type of the line, the reference,
and the key and null that the other remarks and the names of the reference say. -/
theorem ofLine?_text (hl : l.WellFormed) (htable : IsName r.table) (hfield : IsName r.field)
    (number : Nat) :
    Field.ofLine? number (l.text r) = some
      ({ name := String.ofList l.name
         type := String.ofList l.type
         primary := l.hasMark "[primary key]"
         required := !(l.hasMark "nullable" || r.namesNullable) || l.hasMark "not null"
         reference := some r }, []) := by
  rw [Field.ofLine?, words_text hl]
  dsimp only
  rw [Field.ofWords, List.drop_one, List.tail_cons, firstReference_remarks hl htable hfield,
    contains_remarks_nullable l htable hfield, contains_remarks_notNull l htable hfield,
    contains_remarks_primary l htable hfield]
  rfl

/-- **Another target** for the reference of a line gives a field with the same name, type and key,
and with a reference that differs in the two names only.  The field is required as before, unless
the word for null stands in the names of one target only, and in no other remark. -/
theorem ofLine?_retarget {l : ReferringLine} (hl : l.WellFormed) (d : Direction)
    {table field table' field' : String} (htable : IsName table) (hfield : IsName field)
    (htable' : IsName table') (hfield' : IsName field') (number : Nat) :
    ∃ f f' : Field,
      Field.ofLine? number (l.text ⟨d, table, field⟩) = some (f, []) ∧
      Field.ofLine? number (l.text ⟨d, table', field'⟩) = some (f', []) ∧
      f'.name = f.name ∧ f'.type = f.type ∧ f'.primary = f.primary ∧
      f.reference = some ⟨d, table, field⟩ ∧ f'.reference = some ⟨d, table', field'⟩ ∧
      (f'.required = f.required ↔
        Reference.namesNullable ⟨d, table', field'⟩ = Reference.namesNullable ⟨d, table, field⟩ ∨
          l.hasMark "nullable" = true ∨ l.hasMark "not null" = true) := by
  refine ⟨_, _, ofLine?_text hl htable hfield number, ofLine?_text hl htable' hfield' number,
    rfl, rfl, rfl, rfl, rfl, ?_⟩
  dsimp only
  cases l.hasMark "nullable" <;> cases l.hasMark "not null" <;>
    cases Reference.namesNullable ⟨d, table, field⟩ <;>
    cases Reference.namesNullable ⟨d, table', field'⟩ <;> decide

/-- A line with remarks on both sides of the reference, some of which look like parts of marks. -/
def crowdedLine : ReferringLine where
  indent := "\t ".toList
  name := "[ref:".toList
  gap := " ".toList
  type := "[nullable]".toList
  tab := "  ".toList
  groups := [⟨"null ".toList, "a, \u00a0ref , [".toList⟩, ⟨[], []⟩]
  between := " able not ".toList
  behind := "null], primary key] [ref: x [".toList

theorem ofLine?_retarget_crowded :
    crowdedLine.WellFormed ∧ (∀ n ∈ ["a", "null", "ref", "été"], IsName n) ∧
      ∃ f f' : Field,
        Field.ofLine? 3 (crowdedLine.text ⟨.toTarget, "a", "null"⟩) = some (f, []) ∧
        Field.ofLine? 3 (crowdedLine.text ⟨.toTarget, "ref", "été"⟩) = some (f', []) ∧
        f'.name = f.name ∧ f'.type = f.type ∧ f'.primary = f.primary ∧
        f.reference = some ⟨.toTarget, "a", "null"⟩ ∧
        f'.reference = some ⟨.toTarget, "ref", "été"⟩ ∧ f'.required = f.required := by
  have hl : crowdedLine.WellFormed := by decide +kernel
  have hnames : ∀ n ∈ ["a", "null", "ref", "été"], IsName n := by decide +kernel
  obtain ⟨f, f', hf, hf', hname, htype, hprimary, href, href', hrequired⟩ :=
    ofLine?_retarget hl .toTarget (hnames "a" (by decide)) (hnames "null" (by decide))
      (hnames "ref" (by decide)) (hnames "été" (by decide)) 3
  exact ⟨hl, hnames, f, f', hf, hf', hname, htype, hprimary, href, href',
    hrequired.2 (Or.inl (by decide +kernel))⟩

/-- A line with a reference only. -/
def plainLine : ReferringLine where
  indent := []
  name := "id".toList
  gap := [' ']
  type := "int".toList
  tab := [' ']
  groups := []
  between := []
  behind := []

/-- Not every other target leaves a field required. -/
theorem not_all_required :
    ¬ ∀ (l : ReferringLine), l.WellFormed → ∀ (d : Direction) (table field table' field' : String),
      IsName table → IsName field → IsName table' → IsName field' →
      (Field.ofLine? 1 (l.text ⟨d, table', field'⟩)).map (fun read => read.1.required) =
        (Field.ofLine? 1 (l.text ⟨d, table, field⟩)).map fun read => read.1.required := by
  intro h
  have hsame := h plainLine (by decide +kernel) .toTarget "users" "id" "nullable" "id"
    (by decide +kernel) (by decide +kernel) (by decide +kernel) (by decide +kernel)
  exact absurd hsame (by decide +kernel)

end ReferringLine

end SchemaDiagram
