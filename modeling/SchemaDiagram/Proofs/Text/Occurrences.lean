/-
# How often a word occurs

* `occurrences` : the number of places of a text at which a word stands;
* `occurrences_singleton` : the places of a single character;
* `occurrences_append_cons`, `occurrences_intercalate` : a text that is taken apart at a character
  which the word does not have.
-/
import Mathlib.Algebra.GroupWithZero.Nat
import SchemaDiagram.Proofs.Text.Search

namespace SchemaDiagram

namespace Text

variable {word left right text : List Char} {sep : Char}

/-- The number of places of a text at which a word stands. -/
def occurrences (word : List Char) : List Char → ℕ
  | [] => 0
  | c :: rest => occurrences word rest + if word.isPrefixOf (c :: rest) then 1 else 0

@[simp] theorem occurrences_nil : occurrences word [] = 0 := rfl

theorem occurrences_cons (c : Char) (rest : List Char) :
    occurrences word (c :: rest) =
      occurrences word rest + if word.isPrefixOf (c :: rest) then 1 else 0 := rfl

/-- A single character stands at as many places as it is counted. -/
theorem occurrences_singleton (c : Char) (text : List Char) :
    occurrences [c] text = text.count c := by
  induction text with
  | nil => rfl
  | cons d rest ih =>
    rw [occurrences_cons, ih, List.count_cons, List.isPrefixOf_cons_cons, List.isPrefixOf_nil_left,
      Bool.and_true, Bool.beq_comm]

/-- The occurrences of a word before and after a character that it lacks. -/
theorem occurrences_append_cons (hword : word ≠ []) (hsep : sep ∉ word) :
    occurrences word (left ++ sep :: right) = occurrences word left + occurrences word right := by
  have hhere : ∀ rest, word.isPrefixOf (rest ++ sep :: right) = word.isPrefixOf rest := by
    intro rest
    rw [Bool.eq_iff_iff, List.isPrefixOf_iff_prefix, List.isPrefixOf_iff_prefix,
      prefix_append_cons_iff hsep right]
  induction left with
  | nil =>
    have hnone : word.isPrefixOf (sep :: right) = false := by
      rw [← List.nil_append (sep :: right), hhere, ← Bool.not_eq_true,
        List.isPrefixOf_iff_prefix, List.prefix_nil]
      exact hword
    rw [List.nil_append, occurrences_cons, hnone, occurrences_nil, Nat.zero_add]
    rfl
  | cons c left ih =>
    rw [List.cons_append, occurrences_cons, ih, ← List.cons_append, hhere, occurrences_cons]
    omega

/-- **Occurrences in lines** are counted line by line, when the word has no separator in it. -/
theorem occurrences_intercalate (hword : word ≠ []) (hsep : sep ∉ word) (lines : List (List Char)) :
    occurrences word (List.intercalate [sep] lines) = (lines.map (occurrences word)).sum := by
  induction lines with
  | nil => rfl
  | cons line rest ih =>
    cases rest with
    | nil => simp
    | cons next rest =>
      rw [List.intercalate_cons_cons, List.append_assoc, List.singleton_append,
        occurrences_append_cons hword hsep, ih]
      rfl

end Text

end SchemaDiagram
