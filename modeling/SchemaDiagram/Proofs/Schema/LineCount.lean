/-
# The line of an offset

A cursor counts newlines from the last offset asked about, or from the start again.  Its counter
is right when it holds the line of that offset, and a right counter answers with the line of the
offset asked about and stays right.

* `Cursor.lineAt` : the line of an offset in a text;
* `Cursor.Counted`, `Cursor.Counted.lineNumber` : what a right counter answers;
* `Cursor.lineAt_append_left`, `Cursor.lineAt_append_right` : lines in a text that is continued,
  and in a text behind another one.
-/
import SchemaDiagram.Schema.Cursor

namespace SchemaDiagram

open Text

namespace Cursor

variable {text : List Char} {c : Cursor text}

/-- The one-based line of an offset: the newlines before it, and one. -/
def lineAt (text : List Char) (pos : Nat) : Nat := 1 + (text.take pos).count '\n'

/-- Lines do not change when a text is continued. -/
theorem lineAt_append_left {s r : List Char} {pos : Nat} (h : pos ≤ s.length) :
    lineAt (s ++ r) pos = lineAt s pos := by
  rw [lineAt, lineAt, List.take_append_of_le_length h]

/-- Behind another text the lines are later by its newlines. -/
theorem lineAt_append_right (s r : List Char) (pos : Nat) :
    lineAt (s ++ r) (s.length + pos) = lineAt r pos + s.count '\n' := by
  rw [lineAt, lineAt, List.take_append, List.take_of_length_le (Nat.le_add_right _ _),
    Nat.add_sub_cancel_left, List.count_append]
  omega

/-- A counter is right when its line is that of its offset. -/
def Counted (c : Cursor text) : Prop := c.counter.line = lineAt text c.counter.upTo

theorem startAt_counted (pos : Nat) : (startAt text pos).Counted := rfl

/-- Counting on from an offset gives the line of a later one. -/
theorem lineAt_add_count_slice {start stop : Nat} (h : start ≤ stop) :
    lineAt text start + (slice text start stop).count '\n' = lineAt text stop := by
  have hsplit : text.take stop = text.take start ++ slice text start stop := by
    have htake : (text.take stop).take start = text.take start := by
      rw [List.take_take, Nat.min_eq_left h]
    rw [slice, ← htake, List.take_append_drop]
  rw [lineAt, lineAt, hsplit, List.count_append]
  omega

/-- **A right counter** answers with the line of the offset asked about. -/
theorem Counted.lineNumber (h : c.Counted) (pos : Nat) :
    (c.lineNumber pos).1 = lineAt text pos := by
  unfold Cursor.lineNumber
  by_cases hback : pos < c.counter.upTo
  · -- the count starts again, and no newline stands before the start
    simp only [hback, if_true]
    exact lineAt_add_count_slice (Nat.zero_le pos)
  · simp only [hback, if_false]
    rw [h]
    exact lineAt_add_count_slice (Nat.le_of_not_lt hback)

/-- A right counter stays right. -/
theorem Counted.lineNumber_counted (h : c.Counted) (pos : Nat) : (c.lineNumber pos).2.Counted :=
  h.lineNumber pos

theorem Counted.moveTo (h : c.Counted) (pos : Nat) : (c.moveTo pos).Counted := h

end Cursor

end SchemaDiagram
