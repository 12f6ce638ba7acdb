/-
# Bracket groups and their settings

A bracket group is written as pieces between brackets, with commas between them.  A piece is a
setting with blanks around it, or blanks only.  A setting may have opening brackets in it, and text
without one may stand before, between and behind the groups.  The settings of such a text are those
of its groups, in order.  The last group may lack its closing bracket when it ends the text and has
no newline.

* `SettingPiece`, `SettingGroup` : what groups are written from;
* `SettingGroup.WellFormed.filter_splitOn_inside` : the settings of one group;
* `bracketSettings_text_append` : groups in front of any text.

Main statement: `bracketSettings_groups` : the settings of written groups, and the search for the
settings of any text, which comes to its end.
-/
import SchemaDiagram.Proofs.Schema.Totality

namespace SchemaDiagram

open Text

/-! ## Written groups -/

/-- A piece of a bracket group between commas. -/
inductive SettingPiece where
  | blank (blanks : List Char)
  | padded (lead setting trail : List Char)

namespace SettingPiece

/-- The text of a piece. -/
def text : SettingPiece → List Char
  | .blank blanks => blanks
  | .padded lead setting trail => lead ++ (setting ++ trail)

/-- The setting of a piece that has one. -/
def setting? : SettingPiece → Option (List Char)
  | .blank _ => none
  | .padded _ setting _ => some setting

/-- A piece with blanks where they are said to be, and a setting that can stand between commas. -/
def WellFormed : SettingPiece → Prop
  | .blank blanks => ∀ c ∈ blanks, isBlank c = true
  | .padded lead setting trail =>
    (∀ c ∈ lead, isBlank c = true) ∧ IsSetting setting ∧ ∀ c ∈ trail, isBlank c = true

instance : (p : SettingPiece) → Decidable p.WellFormed
  | .blank blanks => inferInstanceAs (Decidable (∀ c ∈ blanks, isBlank c = true))
  | .padded lead setting trail => inferInstanceAs (Decidable
      ((∀ c ∈ lead, isBlank c = true) ∧ IsSetting setting ∧ ∀ c ∈ trail, isBlank c = true))

end SettingPiece

/-- A bracket group: the text in front of it, and the pieces between its brackets. -/
structure SettingGroup where
  gap : List Char
  pieces : List SettingPiece

namespace SettingGroup

/-- A group whose opening bracket is the first one, and whose pieces are well formed. -/
structure WellFormed (g : SettingGroup) : Prop where
  gap : '[' ∉ g.gap
  pieces : ∀ p ∈ g.pieces, p.WellFormed

instance (g : SettingGroup) : Decidable g.WellFormed :=
  decidable_of_iff ('[' ∉ g.gap ∧ ∀ p ∈ g.pieces, p.WellFormed)
    ⟨fun h => ⟨h.1, h.2⟩, fun h => ⟨h.1, h.2⟩⟩

/-- What stands between the brackets. -/
def inside (g : SettingGroup) : List Char := [','].intercalate (g.pieces.map SettingPiece.text)

/-- A group with both of its brackets. -/
def text (g : SettingGroup) : List Char := g.gap ++ bracketed g.inside

/-- A group without its closing bracket. -/
def openText (g : SettingGroup) : List Char := g.gap ++ '[' :: g.inside

/-- The settings of a group, in order. -/
def settings (g : SettingGroup) : List (List Char) := g.pieces.filterMap SettingPiece.setting?

end SettingGroup

/-! ## One group -/

namespace SettingPiece

variable {p : SettingPiece}

/-- Neither blanks nor settings have a comma or a closing bracket. -/
theorem WellFormed.not_mem_text (h : p.WellFormed) : ',' ∉ p.text ∧ ']' ∉ p.text := by
  have hblanks : ∀ {blanks : List Char}, (∀ c ∈ blanks, isBlank c = true) →
      ',' ∉ blanks ∧ ']' ∉ blanks := fun hblanks =>
    ⟨fun hc => absurd (hblanks ',' hc) (by decide), fun hc => absurd (hblanks ']' hc) (by decide)⟩
  cases p with
  | blank blanks => exact hblanks h
  | padded lead setting trail =>
    obtain ⟨hlead, hsetting, htrail⟩ := h
    simp only [text, List.mem_append, not_or]
    exact ⟨⟨(hblanks hlead).1, hsetting.noComma, (hblanks htrail).1⟩,
      ⟨(hblanks hlead).2, hsetting.noBracket, (hblanks htrail).2⟩⟩

/-- A piece is trimmed to its setting, or to nothing. -/
theorem WellFormed.trim_text (h : p.WellFormed) : trim p.text = p.setting?.getD [] := by
  cases p with
  | blank blanks =>
    have htrim : trim (blanks ++ ([] ++ [])) = [] :=
      trim_append_blanks h (List.forall_mem_nil _) (by simp) (by simp)
    rwa [List.nil_append, List.append_nil] at htrim
  | padded lead setting trail =>
    obtain ⟨hlead, hsetting, htrail⟩ := h
    -- a trimmed text has no blank at its ends
    have hhead := head?_trim setting
    have hlast := getLast?_trim setting
    rw [hsetting.trimmed] at hhead hlast
    exact trim_append_blanks hlead htrail hhead hlast

/-- The pieces that are not empty when they are trimmed are the settings. -/
theorem filter_trim_text {pieces : List SettingPiece} (h : ∀ p ∈ pieces, p.WellFormed) :
    ((pieces.map text).map trim).filter (fun s => !s.isEmpty) = pieces.filterMap setting? := by
  induction pieces with
  | nil => rfl
  | cons p pieces ih =>
    obtain ⟨hp, hpieces⟩ := List.forall_mem_cons.1 h
    rw [List.map_cons, List.map_cons, hp.trim_text, List.filter_cons, ih hpieces,
      List.filterMap_cons]
    cases p with
    | blank blanks => rfl
    | padded lead setting trail =>
      rw [if_pos]
      · rfl
      · simp [setting?, hp.2.1.ne_nil]

end SettingPiece

namespace SettingGroup

variable {g : SettingGroup}

theorem WellFormed.bracket_not_mem_inside (h : g.WellFormed) : ']' ∉ g.inside := by
  intro hmem
  rcases mem_intercalate hmem with hcomma | ⟨part, hpart, hc⟩
  · exact absurd hcomma (by decide)
  · obtain ⟨p, hp, rfl⟩ := List.mem_map.1 hpart
    exact (h.pieces p hp).not_mem_text.2 hc

/-- **The settings of a group** are what is left of its pieces when they are trimmed. -/
theorem WellFormed.filter_splitOn_inside (h : g.WellFormed) :
    ((g.inside.splitOn ',').map trim).filter (fun s => !s.isEmpty) = g.settings := by
  unfold inside settings
  rw [← SettingPiece.filter_trim_text h.pieces]
  by_cases hnil : g.pieces = []
  · rw [hnil]
    rfl
  · rw [List.splitOn_intercalate ',' _ (by simpa using hnil)]
    intro part hpart
    obtain ⟨p, hp, rfl⟩ := List.mem_map.1 hpart
    exact (h.pieces p hp).not_mem_text.1

/-! ## All groups -/

/-- A group in front of a text gives its settings first. -/
theorem WellFormed.bracketSettings_append (h : g.WellFormed) (rest : List Char) :
    bracketSettings (g.text ++ rest) = g.settings ++ bracketSettings rest := by
  have hgroups : bracketGroups (g.text ++ rest) = g.inside :: bracketGroups rest := by
    rw [text, bracketed, List.append_assoc, bracketGroups_append h.gap, List.cons_append,
      List.append_assoc, List.singleton_append, bracketGroups_cons h.bracket_not_mem_inside]
  rw [bracketSettings_of_groups hgroups, h.filter_splitOn_inside]

/-- A group that is not closed reaches to the end of the text, if this is on its line. -/
theorem WellFormed.bracketSettings_openText (h : g.WellFormed) (hline : '\n' ∉ g.inside) :
    bracketSettings g.openText = g.settings := by
  have hinside : ∀ c ∈ g.inside, decide (c ≠ '\n') = true := fun c hc =>
    decide_eq_true fun hnewline => hline (hnewline ▸ hc)
  have hgroups : bracketGroups g.openText = g.inside :: bracketGroups [] := by
    rw [openText, bracketGroups_append h.gap,
      bracketGroups_cons_of_unclosed h.bracket_not_mem_inside,
      List.takeWhile_eq_self_iff.2 hinside, List.dropWhile_eq_nil_iff.2 hinside]
  rw [bracketSettings_of_groups hgroups, h.filter_splitOn_inside,
    bracketSettings_eq_nil List.not_mem_nil, List.append_nil]

end SettingGroup

/-- Groups in front of a text give their settings first. -/
theorem bracketSettings_text_append {groups : List SettingGroup}
    (h : ∀ g ∈ groups, g.WellFormed) (rest : List Char) :
    bracketSettings (groups.flatMap SettingGroup.text ++ rest) =
      groups.flatMap SettingGroup.settings ++ bracketSettings rest := by
  induction groups with
  | nil => rfl
  | cons g groups ih =>
    obtain ⟨hg, hgroups⟩ := List.forall_mem_cons.1 h
    rw [List.flatMap_cons, List.append_assoc, hg.bracketSettings_append, ih hgroups,
      List.flatMap_cons, List.append_assoc]

/-- **Bracket groups** give exactly their settings, in order, with any text around them that has no
opening bracket.  A last group without its closing bracket gives its settings too, if no newline
stands in it.  For every text, written so or not, the search for settings comes to its end, as each
of its rounds moves the cursor on. -/
theorem bracketSettings_groups :
    (∀ (groups : List SettingGroup) (after : List Char), (∀ g ∈ groups, g.WellFormed) →
      '[' ∉ after →
      bracketSettings (groups.flatMap SettingGroup.text ++ after) =
        groups.flatMap SettingGroup.settings) ∧
    (∀ (groups : List SettingGroup) (last : SettingGroup), (∀ g ∈ groups, g.WellFormed) →
      last.WellFormed → '\n' ∉ last.inside →
      bracketSettings (groups.flatMap SettingGroup.text ++ last.openText) =
        groups.flatMap SettingGroup.settings ++ last.settings) ∧
    ∀ text : List Char,
      (∃ c, settingsRound.loop [] (Cursor.startAt text 0) = some (.ok (bracketSettings text), c)) ∧
        Reading.MovesOn (@settingsRound text) := by
  refine ⟨?closed, ?unclosed, ?ends⟩
  case closed =>
    intro groups after hgroups hafter
    rw [bracketSettings_text_append hgroups, bracketSettings_eq_nil hafter, List.append_nil]
  case unclosed =>
    intro groups last hgroups hlast hline
    rw [bracketSettings_text_append hgroups, hlast.bracketSettings_openText hline]
  case ends =>
    intro text
    obtain ⟨settings, c, hread, rfl⟩ := settingsLoop_gives text
    exact ⟨⟨c, hread⟩, (settingsRound_keeps text).movesOn⟩

/-- Groups with opening brackets in them, an empty one, and one with blank pieces and newlines. -/
def crookedGroups : List SettingGroup :=
  [⟨"x] ".toList, [.padded " \n".toList "a[b".toList "\u00a0".toList, .padded [] "[".toList []]⟩,
    ⟨[], []⟩,
    ⟨", ".toList, [.blank [], .padded [] "not null".toList "\t".toList, .blank "\u2003".toList]⟩]

/-- A group to stand at the end of a text. -/
def hangingGroup : SettingGroup :=
  ⟨"\n]".toList, [.padded [' '] "ref: > a.b".toList [], .blank [' '], .padded [] "[c".toList [' ']]⟩

theorem bracketSettings_groups_crooked :
    (∀ g ∈ crookedGroups, g.WellFormed) ∧ hangingGroup.WellFormed ∧ '\n' ∉ hangingGroup.inside ∧
      bracketSettings "x] [ \na[b\u00a0,[][], [,not null\t,\u2003] ]\n".toList =
        ["a[b".toList, ['['], "not null".toList] ∧
      bracketSettings
        "x] [ \na[b\u00a0,[][], [,not null\t,\u2003]\n][ ref: > a.b, ,[c ".toList =
          ["a[b".toList, ['['], "not null".toList, "ref: > a.b".toList, "[c".toList] := by
  have hgroups : ∀ g ∈ crookedGroups, g.WellFormed := by decide +kernel
  have hlast : hangingGroup.WellFormed := by decide +kernel
  have hline : '\n' ∉ hangingGroup.inside := by decide +kernel
  have hclosedText : crookedGroups.flatMap SettingGroup.text ++ " ]\n".toList =
      "x] [ \na[b\u00a0,[][], [,not null\t,\u2003] ]\n".toList := by decide +kernel
  have hopenText : crookedGroups.flatMap SettingGroup.text ++ hangingGroup.openText =
      "x] [ \na[b\u00a0,[][], [,not null\t,\u2003]\n][ ref: > a.b, ,[c ".toList := by
    decide +kernel
  obtain ⟨hclosed, hopen, -⟩ := bracketSettings_groups
  refine ⟨hgroups, hlast, hline, ?_, ?_⟩
  · rw [← hclosedText, hclosed crookedGroups _ hgroups (by decide)]
    rfl
  · rw [← hopenText, hopen crookedGroups hangingGroup hgroups hlast hline]
    rfl

end SchemaDiagram
