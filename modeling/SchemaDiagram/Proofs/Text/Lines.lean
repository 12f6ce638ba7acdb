/-
# Lines of a text

A text is split at its newlines.  Every line but the last one ends with a newline, so the lines
before a line tell where it stands and how many newlines are passed there.

* `Text.not_mem_of_mem_splitOn` : no line has a newline;
* `Text.endLines`, `Text.exists_of_splitOn_eq` : what stands before a line of a text;
* `Text.count_endLines` : the newlines before it.
-/
import SchemaDiagram.Proofs.Text.Words

namespace SchemaDiagram

namespace Text

/-- No part of a list that is split has the separator. -/
theorem not_mem_of_mem_splitOn {α : Type} [BEq α] [LawfulBEq α] {x : α} {s part : List α}
    (h : part ∈ s.splitOn x) : x ∉ part := by
  intro hx
  rw [List.splitOn_eq_splitOnP] at h
  simpa using not_of_mem_splitOnP h x hx

/-- A list is split at a separator into the parts before it and those behind it. -/
theorem splitOn_append_cons {α : Type} [BEq α] [LawfulBEq α] (x : α) (s t : List α) :
    (s ++ x :: t).splitOn x = s.splitOn x ++ t.splitOn x := by
  rw [List.splitOn_eq_splitOnP, List.splitOn_eq_splitOnP, List.splitOn_eq_splitOnP,
    List.splitOnP_append_cons s t (by simp)]

/-- Lines with the newlines at their ends. -/
def endLines (lines : List (List Char)) : List Char := lines.flatMap fun line => line ++ ['\n']

theorem endLines_cons (line : List Char) (lines : List (List Char)) :
    endLines (line :: lines) = line ++ '\n' :: endLines lines := by
  simp [endLines]

/-- **A line of a text** stands behind the lines before it. -/
theorem exists_of_splitOn_eq {text line : List Char} {earlier later : List (List Char)}
    (h : text.splitOn '\n' = earlier ++ line :: later) :
    ∃ rest, text = endLines earlier ++ (line ++ rest) := by
  have htext : ['\n'].intercalate (text.splitOn '\n') = text := List.intercalate_splitOn '\n'
  rw [← htext, h]
  clear htext h
  induction earlier with
  | nil =>
    cases later with
    | nil => exact ⟨[], by simp [endLines]⟩
    | cons next later => exact ⟨'\n' :: ['\n'].intercalate (next :: later), by simp [endLines]⟩
  | cons first earlier ih =>
    obtain ⟨rest, hrest⟩ := ih
    have hfirst : ['\n'].intercalate (first :: (earlier ++ line :: later)) =
        first ++ '\n' :: ['\n'].intercalate (earlier ++ line :: later) := by
      have happend := intercalate_append ['\n'] (List.cons_ne_nil first [])
        (List.append_ne_nil_of_right_ne_nil earlier (List.cons_ne_nil line later))
      rwa [List.intercalate_singleton] at happend
    exact ⟨rest, by rw [List.cons_append, hfirst, hrest, endLines_cons, List.append_assoc]; rfl⟩

/-- There are as many newlines as lines end. -/
theorem count_endLines {lines : List (List Char)} (h : ∀ line ∈ lines, '\n' ∉ line) :
    (endLines lines).count '\n' = lines.length := by
  induction lines with
  | nil => rfl
  | cons line lines ih =>
    obtain ⟨hline, hlines⟩ := List.forall_mem_cons.1 h
    rw [endLines_cons, List.count_append, List.count_eq_zero.2 hline, List.count_cons_self,
      ih hlines, List.length_cons, Nat.zero_add]

end Text

end SchemaDiagram
