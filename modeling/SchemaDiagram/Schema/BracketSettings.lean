/-
# Bracket settings

The remarks on a field are written in groups `[a, b]`.  A group without its closing bracket
reaches to the end of its line.

* `bracketGroups` : the groups of a text;
* `bracketSettings` : their settings, trimmed, without the empty ones.
-/
import SchemaDiagram.Text.Blank

namespace SchemaDiagram

open Text

/-- The insides of the bracket groups of a text, in order. -/
def bracketGroups (text : List Char) : List (List Char) :=
  match _h : text.dropWhile (· ≠ '[') with
  | [] => []
  | _ :: inside =>
    if inside.contains ']' then
      inside.takeWhile (· ≠ ']') :: bracketGroups ((inside.dropWhile (· ≠ ']')).drop 1)
    else
      inside.takeWhile (· ≠ '\n') :: bracketGroups (inside.dropWhile (· ≠ '\n'))
termination_by text.length
decreasing_by
  all_goals
    have ht := (List.dropWhile_sublist (fun c => decide (c ≠ '[')) (l := text)).length_le
    rw [_h, List.length_cons] at ht
  · have := (List.dropWhile_sublist (fun c => decide (c ≠ ']')) (l := inside)).length_le
    rw [List.length_drop]
    omega
  · have := (List.dropWhile_sublist (fun c => decide (c ≠ '\n')) (l := inside)).length_le
    omega

/-- The settings of all bracket groups of a text, in order. -/
def bracketSettings (text : List Char) : List (List Char) :=
  (bracketGroups text).flatMap fun group =>
    ((group.splitOn ',').map trim).filter fun setting => !setting.isEmpty

end SchemaDiagram
