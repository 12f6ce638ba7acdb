/-
# Where a keyword stands

A keyword stands at an offset of a text when it occurs there and no name character touches it.
The search for a keyword passes over the occurrences that are part of a longer name, and finds
the least offset at which the keyword stands.

* `Cursor.StandsAt` : a keyword stands at an offset;
* `Cursor.keywordFrom?_eq_some_iff` : the answer of a search;
* `Cursor.keywordFrom?_skip` : a search may start behind a part in which the keyword does not
  stand;
* `names`, `Cursor.StandsAt.mem_names` : a keyword that stands in a text is one of its names.
-/
import SchemaDiagram.Proofs.Text.Search
import SchemaDiagram.Proofs.Text.Words
import SchemaDiagram.Schema.Cursor

namespace SchemaDiagram

open Text

/-! ## Name characters -/

/-- A blank has a code point of one of the ranges. -/
theorem isBlank_iff {c : Char} :
    isBlank c = true ↔ ∃ range ∈ blankRanges, range.1 ≤ c.toNat ∧ c.toNat ≤ range.2 := by
  simp [isBlank, inRanges]

/-- No blank is a name character. -/
theorem isNameChar_eq_false_of_isBlank {c : Char} (h : isBlank c = true) :
    isNameChar c = false := by
  have hranges : ∀ range ∈ blankRanges, ∀ n ∈ List.range' range.1 (range.2 + 1 - range.1),
      isNameChar (Char.ofNat n) = false := by decide +kernel
  obtain ⟨range, hrange, hlow, hhigh⟩ := isBlank_iff.1 h
  have hn := hranges range hrange c.toNat (by rw [List.mem_range'_1]; omega)
  rwa [Char.ofNat_toNat] at hn

theorem isBlank_eq_false_of_isNameChar {c : Char} (h : isNameChar c = true) :
    isBlank c = false := by
  cases hb : isBlank c with
  | false => rfl
  | true => rw [isNameChar_eq_false_of_isBlank hb] at h; exact nomatch h

/-- The names of a text: its maximal runs of name characters, of which some may be empty. -/
def names (text : List Char) : List (List Char) := text.splitOnP fun c => !isNameChar c

theorem names_append_cons (before after : List Char) {c : Char} (hc : isNameChar c = false) :
    names (before ++ c :: after) = names before ++ names after :=
  List.splitOnP_append_cons before after (by rw [hc]; rfl)

theorem names_of_forall {text : List Char} (h : ∀ c ∈ text, isNameChar c = true) : names text = [text] :=
  List.splitOnP_eq_singleton fun c hc => by rw [h c hc]; rfl

namespace Cursor

variable {keyword text s r : List Char} {k start found n : Nat}

/-! ## Standing alone -/

/-- A keyword stands at an offset when it occurs there, and what stands before and after it is
not a name character. -/
def StandsAt (keyword text : List Char) (k : Nat) : Prop :=
  ∃ before after, text = before ++ (keyword ++ after) ∧ before.length = k ∧
    (∀ c ∈ before.getLast?, isNameChar c = false) ∧ ∀ c ∈ after.head?, isNameChar c = false

theorem standsAlone_append (before keyword after : List Char) :
    standsAlone (before ++ (keyword ++ after)) before.length (before.length + keyword.length) =
      (!before.getLast?.any isNameChar && !after.head?.any isNameChar) := by
  have hafter : (before ++ (keyword ++ after))[before.length + keyword.length]? = after.head? := by
    rw [List.getElem?_append_right (Nat.le_add_right _ _), Nat.add_sub_cancel_left,
      List.getElem?_append_right (Nat.le_refl _), Nat.sub_self, List.head?_eq_getElem?]
  rw [standsAlone, hafter]
  split
  · next hlen =>
    rw [List.length_eq_zero_iff.1 hlen]
    rfl
  · next hlen =>
    rw [List.getElem?_append_left (by omega), List.getLast?_eq_getElem?]

theorem standsAt_iff (hkeyword : keyword ≠ []) :
    StandsAt keyword text k ↔
      keyword <+: text.drop k ∧ standsAlone text k (k + keyword.length) = true := by
  constructor
  · rintro ⟨before, after, rfl, rfl, hbefore, hafter⟩
    refine ⟨?_, ?_⟩
    · rw [List.drop_left]
      exact ⟨after, rfl⟩
    · rw [standsAlone_append, (Option.any_eq_false _ _).2 hbefore,
        (Option.any_eq_false _ _).2 hafter]
      rfl
  · rintro ⟨⟨after, hafter⟩, halone⟩
    have hk : k ≤ text.length := by
      refine Nat.le_of_not_lt fun hlt => ?_
      rw [List.drop_eq_nil_of_le (Nat.le_of_lt hlt), List.append_eq_nil_iff] at hafter
      exact hkeyword hafter.1
    have htext : text = text.take k ++ (keyword ++ after) := by
      rw [hafter, List.take_append_drop]
    have hlen : (text.take k).length = k := List.length_take_of_le hk
    refine ⟨text.take k, after, htext, hlen, ?_⟩
    have hsame := standsAlone_append (text.take k) keyword after
    rw [hlen, ← htext, halone, eq_comm, Bool.and_eq_true, Bool.not_eq_true', Bool.not_eq_true',
      Option.any_eq_false, Option.any_eq_false] at hsame
    exact hsame

/-- What stands before a keyword that stands alone is not a name character. -/
theorem StandsAt.before (h : StandsAt keyword text k) {c : Char} (hk : 0 < k)
    (hc : text[k - 1]? = some c) : isNameChar c = false := by
  obtain ⟨before, after, rfl, rfl, hbefore, -⟩ := h
  rw [List.getElem?_append_left (by omega), ← List.getLast?_eq_getElem?] at hc
  exact hbefore c hc

/-- Inside an occurrence of a keyword it does not stand, as a name character stands before. -/
theorem not_standsAt_inside (hname : ∀ c ∈ keyword, isNameChar c = true) {first : Nat}
    (hoccurs : keyword <+: text.drop first) (hafter : first < k)
    (hbefore : k < first + keyword.length) : ¬ StandsAt keyword text k := by
  obtain ⟨tail, htail⟩ := hoccurs
  intro h
  have hi : k - 1 - first < keyword.length := by omega
  have hdrop : text[k - 1]? = (text.drop first)[k - 1 - first]? := by
    rw [List.getElem?_drop]
    congr 1
    omega
  have hc : text[k - 1]? = some keyword[k - 1 - first] := by
    rw [hdrop, ← htail, List.getElem?_append_left hi, List.getElem?_eq_getElem hi]
  have hno := StandsAt.before h (by omega) hc
  rw [hname _ (List.getElem_mem hi)] at hno
  cases hno

/-! ## The search -/

/-- **The search for a keyword** finds the least offset at which it stands. -/
theorem keywordFrom?_eq_some_iff (hkeyword : keyword ≠ [])
    (hname : ∀ c ∈ keyword, isNameChar c = true) :
    keywordFrom? keyword text start = some found ↔
      start ≤ found ∧ StandsAt keyword text found ∧
        ∀ k, start ≤ k → k < found → ¬ StandsAt keyword text k := by
  fun_induction keywordFrom? keyword text start with
  | case1 start hnone =>
    rw [indexFrom?_eq_none_iff hkeyword] at hnone
    constructor
    · intro h
      cases h
    · rintro ⟨hle, hfound, -⟩
      exact absurd ((standsAt_iff hkeyword).1 hfound).1 (hnone found hle)
  | case2 start first hfirst halone =>
    obtain ⟨hle, hoccurs, hleast⟩ := (indexFrom?_eq_some_iff hkeyword).1 hfirst
    have hstands := (standsAt_iff hkeyword).2 ⟨hoccurs, halone⟩
    rw [Option.some.injEq]
    constructor
    · rintro rfl
      exact ⟨hle, hstands, fun k hk hlt h => hleast k hk hlt ((standsAt_iff hkeyword).1 h).1⟩
    · rintro ⟨hle', hfound, hleast'⟩
      have h1 : first ≤ found := Nat.le_of_not_lt fun hlt =>
        hleast found hle' hlt ((standsAt_iff hkeyword).1 hfound).1
      have h2 : found ≤ first := Nat.le_of_not_lt fun hlt => hleast' first hle hlt hstands
      exact Nat.le_antisymm h1 h2
  | case3 => exact absurd ‹_› hkeyword
  | case4 start first hfirst halone _ ih =>
    obtain ⟨hle, hoccurs, hleast⟩ := (indexFrom?_eq_some_iff hkeyword).1 hfirst
    -- the occurrence that is part of a longer name is passed over as a whole
    have hskipped : ∀ k, start ≤ k → k < first + keyword.length → ¬ StandsAt keyword text k := by
      intro k hk hlt h
      rcases Nat.lt_trichotomy k first with hbefore | rfl | hinside
      · exact hleast k hk hbefore ((standsAt_iff hkeyword).1 h).1
      · exact halone ((standsAt_iff hkeyword).1 h).2
      · exact not_standsAt_inside hname hoccurs hinside hlt h
    rw [ih]
    constructor
    · rintro ⟨hle', hfound, hleast'⟩
      refine ⟨by omega, hfound, ?_⟩
      intro k hk hlt
      by_cases hin : k < first + keyword.length
      · exact hskipped k hk hin
      · exact hleast' k (by omega) hlt
    · rintro ⟨hle', hfound, hleast'⟩
      have hbeyond : first + keyword.length ≤ found :=
        Nat.le_of_not_lt fun hlt => hskipped found hle' hlt hfound
      exact ⟨hbeyond, hfound, fun k hk hlt => hleast' k (by omega) hlt⟩

/-- A keyword that stands at the start of a search is found there. -/
theorem keywordFrom?_here (hkeyword : keyword ≠ []) (hname : ∀ c ∈ keyword, isNameChar c = true)
    (h : StandsAt keyword text start) : keywordFrom? keyword text start = some start :=
  (keywordFrom?_eq_some_iff hkeyword hname).2
    ⟨Nat.le_refl start, h, fun _ hk hlt => absurd hk (Nat.not_le_of_lt hlt)⟩

/-- A search may start behind a part in which the keyword does not stand. -/
theorem keywordFrom?_skip (hkeyword : keyword ≠ []) (hname : ∀ c ∈ keyword, isNameChar c = true)
    (h : ∀ i, i < n → ¬ StandsAt keyword text (start + i)) :
    keywordFrom? keyword text start = keywordFrom? keyword text (start + n) := by
  have hbehind : ∀ k, start ≤ k → StandsAt keyword text k → start + n ≤ k := by
    intro k hk hstands
    obtain ⟨i, rfl⟩ := Nat.exists_eq_add_of_le hk
    exact Nat.add_le_add_left (Nat.le_of_not_lt fun hi => h i hi hstands) start
  apply Option.ext
  intro found
  rw [keywordFrom?_eq_some_iff hkeyword hname, keywordFrom?_eq_some_iff hkeyword hname]
  constructor
  · rintro ⟨hle, hfound, hleast⟩
    exact ⟨hbehind found hle hfound, hfound, fun k hk => hleast k (by omega)⟩
  · rintro ⟨hle, hfound, hleast⟩
    exact ⟨by omega, hfound, fun k hk hlt hstands =>
      hleast k (hbehind k hk hstands) hlt hstands⟩

/-! ## Names -/

/-- A keyword that stands in a text is one of its names. -/
theorem StandsAt.mem_names (hname : ∀ c ∈ keyword, isNameChar c = true)
    (h : StandsAt keyword text k) : keyword ∈ names text := by
  obtain ⟨before, after, rfl, -, hbefore, hafter⟩ := h
  have hright : keyword ∈ names (keyword ++ after) := by
    cases after with
    | nil =>
      rw [List.append_nil, names_of_forall hname]
      exact List.mem_cons_self
    | cons c rest =>
      rw [names_append_cons keyword rest (hafter c rfl), names_of_forall hname]
      exact List.mem_cons_self
  rcases List.eq_nil_or_concat before with rfl | ⟨init, c, rfl⟩
  · exact hright
  · rw [List.concat_eq_append] at hbefore ⊢
    rw [List.append_assoc, List.singleton_append,
      names_append_cons init _ (hbefore c List.getLast?_concat)]
    exact List.mem_append_right _ hright

/-- A keyword that stands in a part of a text stands there in the part alone, if no name goes on
behind the part. -/
theorem StandsAt.of_part (hname : ∀ c ∈ keyword, isNameChar c = true)
    (hpart : text.drop start = s ++ r) (hr : ∀ c ∈ r.head?, isNameChar c = false)
    (hk : k < s.length) (h : StandsAt keyword text (start + k)) : StandsAt keyword s k := by
  obtain ⟨before, after, rfl, hlen, hbefore, hafter⟩ := h
  have hdropped : (before.drop start).length = k := by rw [List.length_drop]; omega
  have hlast : ∀ c ∈ (before.drop start).getLast?, isNameChar c = false := by
    intro c hc
    refine hbefore c ?_
    rw [← List.take_append_drop start before, List.getLast?_append, Option.mem_def.1 hc]
    rfl
  -- what stands before the keyword begins before the part and ends in it
  rw [List.drop_append_of_le_length (by omega), List.append_eq_append_iff] at hpart
  rcases hpart with ⟨a, rfl, hrest⟩ | ⟨a, ha, -⟩
  · -- the keyword and what follows it make up the rest of the part and what follows the part
    rw [List.append_eq_append_iff] at hrest
    rcases hrest with ⟨b, rfl, rfl⟩ | ⟨b, rfl, rfl⟩
    · refine ⟨before.drop start, b, rfl, hdropped, hlast, ?_⟩
      intro c hc
      refine hafter c ?_
      rw [List.head?_append, Option.mem_def.1 hc]
      rfl
    · cases b with
      | nil =>
        refine ⟨before.drop start, [], by simp, hdropped, hlast, ?_⟩
        intro c hc
        exact nomatch hc
      | cons c b =>
        have hc := hname c (List.mem_append_right a List.mem_cons_self)
        rw [hr c rfl] at hc
        exact nomatch hc
  · rw [← hdropped, ha, List.length_append] at hk
    omega

/-- A keyword that is not a name of a part of a text does not stand in the part. -/
theorem not_standsAt_of_part (hname : ∀ c ∈ keyword, isNameChar c = true)
    (hpart : text.drop start = s ++ r) (hr : ∀ c ∈ r.head?, isNameChar c = false)
    (hs : keyword ∉ names s) : ∀ k, k < s.length → ¬ StandsAt keyword text (start + k) :=
  fun _ hk h => hs ((h.of_part hname hpart hr hk).mem_names hname)

end Cursor

end SchemaDiagram
