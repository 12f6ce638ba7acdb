/-
# Where two texts meet

When one text follows another, a keyword stands in the first one where it stood before, unless a
name runs across the seam, and in the second one where it stood before, shifted.  The same holds
for the starts of lines.

* `Cursor.keywordFrom?_induction` : an induction along the searches for a keyword;
* `Cursor.keywordFrom?_append_of_some`, `Cursor.keywordFrom?_append_of_none` : a search from an
  offset of the first text;
* `Cursor.keywordFrom?_append_right` : a search from an offset of the second text;
* `Cursor.exists_standsAt_of_mem_names` : the names of a text stand in it;
* `Cursor.keywordFrom?_blanks` : a search from blanks between the two texts;
* `Cursor.standsAt_append_of_line` : keywords in a first text that ends with its line;
* `FreshFrom` : from which offset on the second text is read as if it stood alone.
-/
import Mathlib.Data.List.TakeWhile
import Mathlib.Data.Nat.Find
import SchemaDiagram.Proofs.Schema.Keyword

namespace SchemaDiagram

open Text

variable {s r : List Char} {k p : Nat}

/-- No name goes on behind a character that is not in names. -/
theorem head?_not_nameChar {x : Char} (hx : isNameChar x = false) (r : List Char) :
    ∀ c ∈ (x :: r).head?, isNameChar c = false := by
  rintro c ⟨⟩
  exact hx

namespace Cursor

variable {keyword text : List Char}

/-- An induction along the searches for a keyword, each of which starts behind what the last one
found. -/
@[elab_as_elim]
theorem keywordFrom?_induction (keyword text : List Char) {motive : Nat → Prop}
    (none : ∀ p, keywordFrom? keyword text p = none → motive p)
    (some : ∀ p k, keywordFrom? keyword text p = some k → (∀ q, k < q → motive q) → motive p)
    (p : Nat) : motive p := by
  induction hn : text.length + 1 - p using Nat.strongRecOn generalizing p with
  | _ n ih =>
    subst hn
    cases hfind : keywordFrom? keyword text p with
    | none => exact none p hfind
    | some k =>
      have hbounds := keywordFrom?_bounds hfind
      exact some p k hfind fun q hq => ih _ (by omega) q rfl

/-! ## Keywords in the first text -/

theorem StandsAt.length_le (h : StandsAt keyword text k) : k + keyword.length ≤ text.length := by
  obtain ⟨before, after, rfl, rfl, -, -⟩ := h
  simp only [List.length_append]
  omega

/-- A search finds nothing exactly when the keyword stands nowhere from its start on. -/
theorem keywordFrom?_eq_none_iff (hkeyword : keyword ≠ [])
    (hname : ∀ c ∈ keyword, isNameChar c = true) :
    keywordFrom? keyword text p = none ↔ ∀ k, p ≤ k → ¬ StandsAt keyword text k := by
  constructor
  · intro hnone k hk hstands
    classical
    -- the least such offset would have been found
    have hex : ∃ k, p ≤ k ∧ StandsAt keyword text k := ⟨k, hk, hstands⟩
    have hfound := (keywordFrom?_eq_some_iff hkeyword hname).2
      ⟨(Nat.find_spec hex).1, (Nat.find_spec hex).2,
        fun j hj hlt hj' => Nat.find_min hex hlt ⟨hj, hj'⟩⟩
    rw [hnone] at hfound
    cases hfound
  · intro h
    cases hfound : keywordFrom? keyword text p with
    | none => rfl
    | some found =>
      obtain ⟨hle, hstands, -⟩ := (keywordFrom?_eq_some_iff hkeyword hname).1 hfound
      exact absurd hstands (h found hle)

/-- A keyword stands in the first text as it stands in this text alone, if no name goes on behind
it. -/
theorem standsAt_append_left (hname : ∀ c ∈ keyword, isNameChar c = true)
    (hr : ∀ c ∈ r.head?, isNameChar c = false) (hk : k < s.length) :
    StandsAt keyword (s ++ r) k ↔ StandsAt keyword s k := by
  constructor
  · intro h
    have hpart : (s ++ r).drop 0 = s ++ r := rfl
    refine StandsAt.of_part hname hpart hr hk ?_
    rwa [Nat.zero_add]
  · rintro ⟨before, after, rfl, hlen, hbefore, hafter⟩
    refine ⟨before, after ++ r, by simp, hlen, hbefore, ?_⟩
    intro c hc
    cases after with
    | nil => exact hr c hc
    | cons x after => exact hafter c hc

/-- A search finds in the first text what it finds in this text alone. -/
theorem keywordFrom?_append_of_some (hkeyword : keyword ≠ [])
    (hname : ∀ c ∈ keyword, isNameChar c = true) (hr : ∀ c ∈ r.head?, isNameChar c = false)
    (h : keywordFrom? keyword s p = some k) : keywordFrom? keyword (s ++ r) p = some k := by
  obtain ⟨hle, hstands, hleast⟩ := (keywordFrom?_eq_some_iff hkeyword hname).1 h
  have hlen := hstands.length_le
  have hpos := List.length_pos_iff.2 hkeyword
  rw [keywordFrom?_eq_some_iff hkeyword hname]
  refine ⟨hle, (standsAt_append_left hname hr (by omega)).2 hstands, ?_⟩
  intro j hj hlt hj'
  exact hleast j hj hlt ((standsAt_append_left hname hr (by omega)).1 hj')

/-- A search that finds nothing in the first text alone goes on behind it. -/
theorem keywordFrom?_append_of_none (hkeyword : keyword ≠ [])
    (hname : ∀ c ∈ keyword, isNameChar c = true) (hr : ∀ c ∈ r.head?, isNameChar c = false)
    (hp : p ≤ s.length) (h : keywordFrom? keyword s p = none) :
    keywordFrom? keyword (s ++ r) p = keywordFrom? keyword (s ++ r) s.length := by
  rw [keywordFrom?_eq_none_iff hkeyword hname] at h
  obtain ⟨n, hn⟩ := Nat.exists_eq_add_of_le hp
  rw [hn]
  refine keywordFrom?_skip hkeyword hname ?_
  intro i hi hstands
  exact h (p + i) (by omega) ((standsAt_append_left hname hr (by omega)).1 hstands)

/-! ## Keywords in the second text -/

/-- A keyword stands in the second text as it stands in this text alone, if it does not go on with
a name of the first one. -/
theorem standsAt_append_right (h : k = 0 → ∀ c ∈ s.getLast?, isNameChar c = false) :
    StandsAt keyword (s ++ r) (s.length + k) ↔ StandsAt keyword r k := by
  constructor
  · rintro ⟨before, after, htext, hlen, hbefore, hafter⟩
    obtain ⟨between, rfl, rfl⟩ : ∃ between, before = s ++ between ∧
        r = between ++ (keyword ++ after) := by
      rcases List.append_eq_append_iff.1 htext with ⟨between, hb, hr⟩ | ⟨between, hs, hr⟩
      · exact ⟨between, hb, hr⟩
      · have hnil : between = [] := by
          have hsum := congrArg List.length hs
          rw [List.length_append] at hsum
          exact List.length_eq_zero_iff.1 (by omega)
        subst hnil
        exact ⟨[], by simpa using hs.symm, by simpa using hr.symm⟩
    refine ⟨between, after, rfl, ?_, ?_, hafter⟩
    · rw [List.length_append] at hlen
      omega
    · intro c hc
      refine hbefore c ?_
      rw [List.getLast?_append, Option.mem_def.1 hc]
      rfl
  · rintro ⟨before, after, rfl, rfl, hbefore, hafter⟩
    refine ⟨s ++ before, after, by simp, by simp, ?_, hafter⟩
    intro c hc
    rw [List.getLast?_append] at hc
    cases hlast : before.getLast? with
    | none =>
      rw [hlast] at hc
      rw [List.getLast?_eq_none_iff.1 hlast] at h
      exact h rfl c hc
    | some x =>
      rw [hlast] at hc
      exact hbefore c (hlast.trans hc)

/-- **A search in the second text** finds what it finds in this text alone, shifted. -/
theorem keywordFrom?_append_right (hkeyword : keyword ≠ [])
    (hname : ∀ c ∈ keyword, isNameChar c = true)
    (h : p = 0 → ∀ c ∈ s.getLast?, isNameChar c = false) :
    keywordFrom? keyword (s ++ r) (s.length + p) =
      (keywordFrom? keyword r p).map (s.length + ·) := by
  have hshift : ∀ k, p ≤ k →
      (StandsAt keyword (s ++ r) (s.length + k) ↔ StandsAt keyword r k) := by
    intro k hk
    refine standsAt_append_right fun hzero => h (by omega)
  cases hfound : keywordFrom? keyword r p with
  | none =>
    rw [keywordFrom?_eq_none_iff hkeyword hname] at hfound
    rw [Option.map_none, keywordFrom?_eq_none_iff hkeyword hname]
    intro k hk
    obtain ⟨j, rfl⟩ := Nat.exists_eq_add_of_le (Nat.le_trans (Nat.le_add_right _ _) hk)
    rw [hshift j (by omega)]
    exact hfound j (by omega)
  | some found =>
    obtain ⟨hle, hstands, hleast⟩ := (keywordFrom?_eq_some_iff hkeyword hname).1 hfound
    rw [Option.map_some, keywordFrom?_eq_some_iff hkeyword hname]
    refine ⟨by omega, (hshift found hle).2 hstands, ?_⟩
    intro k hk hlt
    obtain ⟨j, rfl⟩ := Nat.exists_eq_add_of_le (Nat.le_trans (Nat.le_add_right _ _) hk)
    rw [hshift j (by omega)]
    exact hleast j (by omega) (by omega)

/-- A keyword that is one of the names of a text stands in it. -/
theorem exists_standsAt_of_mem_names (hkeyword : keyword ≠ [])
    (hname : ∀ c ∈ keyword, isNameChar c = true) (h : keyword ∈ names text) :
    ∃ k, StandsAt keyword text k := by
  -- on the length of the text, which may have a character that is not in names
  induction hn : text.length using Nat.strongRecOn generalizing text with
  | _ n ih =>
    subst hn
    by_cases hall : ∀ c ∈ text, isNameChar c = true
    · rw [names_of_forall hall, List.mem_singleton] at h
      exact ⟨0, [], [], by simp [h], rfl, by simp, by simp⟩
    · obtain ⟨c, hc, hno⟩ : ∃ c ∈ text, isNameChar c = false := by simpa using hall
      obtain ⟨before, after, rfl⟩ := List.append_of_mem hc
      rw [names_append_cons before after hno, List.mem_append] at h
      rw [List.length_append, List.length_cons] at ih
      rcases h with h | h
      · obtain ⟨k, hk⟩ := ih before.length (by omega) h rfl
        have hlen := hk.length_le
        have hpos := List.length_pos_iff.2 hkeyword
        exact ⟨k, (standsAt_append_left hname (head?_not_nameChar hno after) (by omega)).2 hk⟩
      · obtain ⟨k, hk⟩ := ih after.length (by omega) h rfl
        refine ⟨(before ++ [c]).length + k, ?_⟩
        rw [List.append_cons]
        refine (standsAt_append_right fun _ x hx => ?_).2 hk
        obtain rfl : c = x := by simpa using hx
        exact hno

/-! ## Between keywords -/

/-- A keyword stands where a name character does. -/
theorem not_standsAt_of_not_nameChar (hkeyword : keyword ≠ [])
    (hname : ∀ c ∈ keyword, isNameChar c = true) {c : Char} (hc : text[k]? = some c)
    (hno : isNameChar c = false) : ¬ StandsAt keyword text k := by
  intro hstands
  obtain ⟨x, tail, rfl⟩ := List.exists_cons_of_ne_nil hkeyword
  obtain ⟨after, hafter⟩ := ((standsAt_iff hkeyword).1 hstands).1
  rw [← List.head?_drop, ← hafter] at hc
  obtain rfl : x = c := Option.some.inj hc
  rw [hname x List.mem_cons_self] at hno
  cases hno

/-- A search that starts at blanks goes on behind them. -/
theorem keywordFrom?_blanks (hkeyword : keyword ≠ [])
    (hname : ∀ c ∈ keyword, isNameChar c = true) {blanks : List Char}
    (hblanks : ∀ c ∈ blanks, isBlank c = true) :
    keywordFrom? keyword (s ++ (blanks ++ r)) s.length =
      keywordFrom? keyword (s ++ (blanks ++ r)) (s.length + blanks.length) := by
  refine keywordFrom?_skip hkeyword hname ?_
  intro i hi
  refine not_standsAt_of_not_nameChar hkeyword hname ?_
    (isNameChar_eq_false_of_isBlank (hblanks _ (List.getElem_mem hi)))
  rw [List.getElem?_append_right (Nat.le_add_right _ _), Nat.add_sub_cancel_left,
    List.getElem?_append_left hi, List.getElem?_eq_getElem hi]

/-- A search that finds nothing before an offset may start there. -/
theorem keywordFrom?_congr (hkeyword : keyword ≠ [])
    (hname : ∀ c ∈ keyword, isNameChar c = true) {q : Nat} (hq : p ≤ q)
    (h : ∀ k ∈ keywordFrom? keyword text p, q ≤ k) :
    keywordFrom? keyword text p = keywordFrom? keyword text q := by
  obtain ⟨n, rfl⟩ := Nat.exists_eq_add_of_le hq
  refine keywordFrom?_skip hkeyword hname ?_
  intro i hi hstands
  cases hfound : keywordFrom? keyword text p with
  | none => exact (keywordFrom?_eq_none_iff hkeyword hname).1 hfound _ (by omega) hstands
  | some k =>
    have hk := h k hfound
    obtain ⟨-, -, hleast⟩ := (keywordFrom?_eq_some_iff hkeyword hname).1 hfound
    exact hleast (p + i) (by omega) (by omega) hstands

/-- In a first text that ends with its line a keyword stands as it stands in this text alone. -/
theorem standsAt_append_of_line (hkeyword : keyword ≠ [])
    (hname : ∀ c ∈ keyword, isNameChar c = true) (hline : s.getLast? = some '\n')
    (hk : k < s.length) : StandsAt keyword (s ++ r) k ↔ StandsAt keyword s k := by
  obtain ⟨init, rfl⟩ := List.getLast?_eq_some_iff.1 hline
  rw [List.length_append, List.length_singleton] at hk
  have hnewline := head?_not_nameChar (x := '\n') (by decide)
  rw [List.append_assoc, List.singleton_append]
  by_cases hinit : k < init.length
  · rw [standsAt_append_left hname (hnewline r) hinit,
      standsAt_append_left hname (hnewline []) hinit]
  · -- at its end there is a newline
    obtain rfl : k = init.length := by omega
    have hnot : ∀ r : List Char, ¬ StandsAt keyword (init ++ '\n' :: r) init.length := fun r =>
      not_standsAt_of_not_nameChar hkeyword hname (c := '\n') (by simp) (by decide)
    exact iff_of_false (hnot r) (hnot [])

/-! ## Starts of lines -/

theorem atLineStart_append_left (hk : k ≤ s.length) : atLineStart (s ++ r) k = atLineStart s k := by
  rw [atLineStart, atLineStart, List.take_append_of_le_length hk]

/-- On a line that starts with another character than a blank, no line starts later. -/
theorem atLineStart_eq_false {c : Char} (hline : '\n' ∉ c :: s) (hc : isBlank c = false)
    (hk : 0 < k) : atLineStart (c :: s) k = false := by
  obtain ⟨n, rfl⟩ := Nat.exists_eq_add_of_lt hk
  have hall : ∀ x ∈ ((c :: s).take (0 + n + 1)).reverse, decide (x ≠ '\n') = true := by
    intro x hx
    have hmem := List.mem_of_mem_take (List.mem_reverse.1 hx)
    rw [decide_eq_true_eq]
    rintro rfl
    exact hline hmem
  rw [atLineStart, List.takeWhile_eq_self_iff.2 hall]
  simp [hc]

end Cursor

/-- From an offset on, a text behind another one is read as if it stood alone: from any offset, if
the other one ends with its line, and from later ones than its start, if its first character is not
a blank. -/
def FreshFrom (s r : List Char) (p : Nat) : Prop :=
  (∀ c ∈ s.getLast?, c = '\n') ∨ (0 < p ∧ ∃ c ∈ r.head?, isBlank c = false)

theorem FreshFrom.not_nameChar (h : FreshFrom s r p) :
    p = 0 → ∀ c ∈ s.getLast?, isNameChar c = false := by
  intro hp c hc
  rcases h with hs | ⟨hpos, -⟩
  · rw [hs c hc]
    decide
  · omega

theorem FreshFrom.mono {q : Nat} (h : FreshFrom s r p) (hq : p ≤ q) : FreshFrom s r q :=
  h.imp_right fun ⟨hpos, hhead⟩ => ⟨Nat.lt_of_lt_of_le hpos hq, hhead⟩

/-- A line starts in the second text as it does in this text alone. -/
theorem FreshFrom.atLineStart_append_right (h : FreshFrom s r p) (hk : p ≤ k) (hr : k ≤ r.length) :
    Cursor.atLineStart (s ++ r) (s.length + k) = Cursor.atLineStart r k := by
  have htake : ((s ++ r).take (s.length + k)).reverse = (r.take k).reverse ++ s.reverse := by
    rw [List.take_length_add_append, List.reverse_append]
  rw [Cursor.atLineStart, Cursor.atLineStart, htake, List.takeWhile_append]
  split
  · next hwhole =>
    have hown := (List.takeWhile_prefix (· ≠ '\n')).eq_of_length hwhole
    rw [List.all_append, hown]
    rcases h with hs | ⟨hpos, c, hc, hblank⟩
    · -- the line does not reach back into the first text
      have hnone : s.reverse.takeWhile (· ≠ '\n') = [] := by
        rcases List.eq_nil_or_concat s with rfl | ⟨init, c, rfl⟩
        · rfl
        · have hc := hs c (by simp)
          simp [hc]
      rw [hnone]
      simp
    · -- the first character of the second text stands before the offset on its line
      obtain ⟨rest, rfl⟩ := List.head?_eq_some_iff.1 hc
      obtain ⟨j, rfl⟩ := Nat.exists_eq_add_of_lt (Nat.lt_of_lt_of_le hpos hk)
      simp [hblank]
  · rfl

end SchemaDiagram
