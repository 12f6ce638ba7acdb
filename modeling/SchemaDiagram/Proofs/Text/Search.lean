/-
# What a search finds

A word occurs at an offset of a text when it is a prefix of what follows the offset.  A search
finds the least offset, from its start on, at which the word occurs.

* `Text.prefix_append_cons_iff` : a word in front of a character that it does not have;
* `Text.indexFrom?_eq_some_iff`, `Text.indexFrom?_eq_none_iff` : the answer of a search;
* `Text.indexFrom?_char` : the search for a single character;
* `Text.contains_eq_true_iff` : a text contains what stands inside it;
* `Text.slice_eq_take` : a part of a text as the beginning of what follows its start.
-/
import Mathlib.Data.Nat.Find
import SchemaDiagram.Text.Search

namespace SchemaDiagram

namespace Text

variable {needle text rest : List Char} {start found offset : Nat}

/-- What stands inside a text is a prefix of what follows some offset. -/
theorem infix_iff_prefix_drop : needle <:+: text ↔ ∃ k, needle <+: text.drop k := by
  rw [List.infix_iff_prefix_suffix]
  constructor
  · rintro ⟨tail, hneedle, htail⟩
    rw [List.suffix_iff_eq_drop] at htail
    exact ⟨_, htail ▸ hneedle⟩
  · rintro ⟨k, hk⟩
    exact ⟨text.drop k, hk, text.drop_suffix k⟩

/-- A word without the character is found in front of it or not at all. -/
theorem prefix_append_cons_iff {x : Char} {word s : List Char} (hx : x ∉ word) (r : List Char) :
    word <+: s ++ x :: r ↔ word <+: s := by
  constructor
  · intro h
    rcases List.prefix_or_prefix_of_prefix h (List.prefix_append s (x :: r)) with hs | ⟨t, rfl⟩
    · exact hs
    · rw [List.prefix_append_right_inj] at h
      cases t with
      | nil => exact (List.append_nil s).symm ▸ List.prefix_rfl
      | cons y t =>
        obtain rfl : y = x := (List.cons_prefix_cons.1 h).1
        simp at hx
  · exact fun h => h.trans (List.prefix_append s (x :: r))

/-- A search in a rest finds the least place where the word occurs. -/
theorem seek_eq_some_iff (hneedle : needle ≠ []) :
    seek needle rest offset = some found ↔
      ∃ i, found = offset + i ∧ needle <+: rest.drop i ∧
        ∀ k, k < i → ¬ needle <+: rest.drop k := by
  induction rest generalizing offset with
  | nil =>
    rw [seek, if_neg (by simpa using hneedle)]
    constructor
    · intro h
      cases h
    · rintro ⟨i, -, hi, -⟩
      rw [List.drop_nil, List.prefix_nil] at hi
      exact absurd hi hneedle
  | cons c rest ih =>
    rw [seek]
    split
    · next hhere =>
      rw [List.isPrefixOf_iff_prefix] at hhere
      constructor
      · intro h
        exact ⟨0, (Option.some.inj h).symm, hhere, fun k hk => absurd hk (Nat.not_lt_zero k)⟩
      · rintro ⟨i, rfl, -, hleast⟩
        cases i with
        | zero => rfl
        | succ i => exact absurd hhere (hleast 0 (Nat.succ_pos i))
    · next hhere =>
      rw [List.isPrefixOf_iff_prefix] at hhere
      -- the places in the rest are one further on
      rw [ih]
      constructor
      · rintro ⟨i, rfl, hi, hleast⟩
        refine ⟨i + 1, by omega, hi, ?_⟩
        intro k hk
        cases k with
        | zero => exact hhere
        | succ k => exact hleast k (by omega)
      · rintro ⟨i, rfl, hi, hleast⟩
        cases i with
        | zero => exact absurd hi hhere
        | succ i => exact ⟨i, by omega, hi, fun k hk => hleast (k + 1) (by omega)⟩

/-- A search in a rest finds nothing exactly when the word does not stand inside it. -/
theorem seek_eq_none_iff (hneedle : needle ≠ []) :
    seek needle rest offset = none ↔ ¬ needle <:+: rest := by
  rw [infix_iff_prefix_drop]
  constructor
  · rintro h ⟨k, hk⟩
    classical
    -- the least place would have been found
    have hex : ∃ k, needle <+: rest.drop k := ⟨k, hk⟩
    rw [(seek_eq_some_iff hneedle).2
      ⟨Nat.find hex, rfl, Nat.find_spec hex, fun j hj => Nat.find_min hex hj⟩] at h
    exact nomatch h
  · intro h
    cases hs : seek needle rest offset with
    | none => rfl
    | some found =>
      obtain ⟨i, -, hi, -⟩ := (seek_eq_some_iff hneedle).1 hs
      exact absurd ⟨i, hi⟩ h

/-- **A search** finds the least offset from its start on at which the word occurs. -/
theorem indexFrom?_eq_some_iff (hneedle : needle ≠ []) :
    indexFrom? needle text start = some found ↔
      start ≤ found ∧ needle <+: text.drop found ∧
        ∀ k, start ≤ k → k < found → ¬ needle <+: text.drop k := by
  rw [indexFrom?]
  split
  · next hend =>
    constructor
    · intro h
      cases h
    · rintro ⟨hle, hfound, -⟩
      rw [List.drop_eq_nil_of_le (by omega), List.prefix_nil] at hfound
      exact absurd hfound hneedle
  · rw [seek_eq_some_iff hneedle]
    simp only [List.drop_drop]
    constructor
    · rintro ⟨i, rfl, hi, hleast⟩
      refine ⟨by omega, hi, ?_⟩
      intro k hstart hk
      have := hleast (k - start) (by omega)
      rwa [Nat.add_sub_cancel' hstart] at this
    · rintro ⟨hle, hfound, hleast⟩
      refine ⟨found - start, by omega, ?_, fun k hk => hleast (start + k) (by omega) (by omega)⟩
      rwa [Nat.add_sub_cancel' hle]

/-- A search finds nothing exactly when the word does not occur from its start on. -/
theorem indexFrom?_eq_none_iff (hneedle : needle ≠ []) :
    indexFrom? needle text start = none ↔ ∀ k, start ≤ k → ¬ needle <+: text.drop k := by
  rw [indexFrom?]
  split
  · next hend =>
    refine iff_of_true rfl ?_
    intro k hk hpre
    rw [List.drop_eq_nil_of_le (by omega), List.prefix_nil] at hpre
    exact hneedle hpre
  · rw [seek_eq_none_iff hneedle, infix_iff_prefix_drop]
    constructor
    · intro h k hk hpre
      refine h ⟨k - start, ?_⟩
      rwa [List.drop_drop, Nat.add_sub_cancel' hk]
    · rintro h ⟨k, hk⟩
      rw [List.drop_drop] at hk
      exact h (start + k) (Nat.le_add_right start k) hk

/-- A single character is found where it first stands. -/
theorem indexFrom?_char {c : Char} {before after : List Char}
    (hrest : text.drop start = before ++ c :: after) (hbefore : c ∉ before) :
    indexFrom? [c] text start = some (start + before.length) := by
  rw [indexFrom?_eq_some_iff (List.cons_ne_nil c [])]
  refine ⟨Nat.le_add_right _ _, ?_, ?_⟩
  · rw [← List.drop_drop, hrest, List.drop_left]
    exact ⟨after, rfl⟩
  · intro k hstart hk hpre
    obtain ⟨i, rfl⟩ := Nat.exists_eq_add_of_le hstart
    have hi : i < before.length := by omega
    rw [← List.drop_drop, hrest, List.drop_append_of_le_length (Nat.le_of_lt hi),
      List.drop_eq_getElem_cons hi, List.cons_append, List.cons_prefix_cons] at hpre
    exact hbefore (hpre.1 ▸ List.getElem_mem hi)

/-- A single character that does not follow is not found. -/
theorem indexFrom?_char_eq_none {c : Char} (h : c ∉ text.drop start) :
    indexFrom? [c] text start = none := by
  rw [indexFrom?_eq_none_iff (List.cons_ne_nil c [])]
  intro k hk hpre
  obtain ⟨i, rfl⟩ := Nat.exists_eq_add_of_le hk
  rw [← List.drop_drop] at hpre
  exact h (List.mem_of_mem_drop (hpre.subset List.mem_cons_self))

/-- A text contains a word exactly when the word stands inside it. -/
theorem contains_eq_true_iff (hneedle : needle ≠ []) :
    contains text needle = true ↔ needle <:+: text := by
  rw [contains, Option.isSome_iff_ne_none, Ne, indexFrom?_eq_none_iff hneedle,
    infix_iff_prefix_drop]
  simp

/-- The part of a text from an offset on that has a given length. -/
theorem slice_eq_take (text : List Char) (start length : Nat) :
    slice text start (start + length) = (text.drop start).take length := by
  rw [slice, List.drop_take, Nat.add_sub_cancel_left]

end Text

end SchemaDiagram
