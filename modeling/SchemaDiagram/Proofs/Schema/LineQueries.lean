/-
# Lines asked for in any order

A cursor keeps the line of the last offset asked about.  It counts on from there, or from the start
again when an earlier offset is asked about.  In whatever order lines are asked for, and whatever is
done with the cursor in between, it answers like a reader that keeps nothing but its offset and
counts the newlines from the start of the text each time.

* `Cursor.Action`, `Cursor.Operation` : what can be done with a cursor, questions for lines included;
* `Cursor.replies`, `Cursor.plainReplies` : what a cursor and the plain reader reply;
* `Scan.IgnoresCounter` : an action does the same whatever was counted, closed under sequencing;
* `Cursor.Operation.step_eq_plainStep` : what one operation gives and keeps.

Main statement: `Cursor.replies_startAt` : the replies of a cursor are those of the plain reader, and
each line among them is the number of newlines before its offset, and one.
-/
import SchemaDiagram.Proofs.Schema.LineCount

namespace SchemaDiagram

open Text

/-! ## Operations and their replies -/

namespace Cursor

/-- What can be done with a cursor, besides asking for a line. -/
inductive Action where
  | atEnd
  | peek
  | atLineStart (pos : Nat)
  | moveTo (pos : Nat)
  | skipBlanks
  | findKeyword (keyword : List Char)
  | readName
  | readQualifiedName
  | accept (literal : List Char)
  | expect (literal : List Char)
  | readUntil (terminator : List Char)
  | restOfLine
deriving DecidableEq, Repr

/-- An action, or a question for a line. -/
inductive Operation where
  | act (action : Action)
  /-- Asks for the line of an offset, or of the cursor when no offset is given. -/
  | line (pos : Option Nat)
deriving DecidableEq, Repr

/-- What an operation gives. -/
inductive Reply where
  | done
  | line (number : Nat)
  | holds (b : Bool)
  | char (c : Option Char)
  | offset (start : Option Nat)
  | name (n : String)
  | qualifiedName (table field : String)
  | text (s : List Char)
  | fault (fault : ParseFault)
deriving DecidableEq, Repr

variable {text : List Char} {α β : Type}

/-- The reply to a reading action, which may be a fault, and the cursor behind it. -/
def replyOf (reply : α → Reply) :
    EStateM.Result ParseFault (Cursor text) α → Reply × Cursor text
  | .ok a c => (reply a, c)
  | .error fault c => (.fault fault, c)

/-- The reply to an action, and the cursor behind it. -/
def Action.perform (a : Action) (c : Cursor text) : Reply × Cursor text :=
  match a with
  | .atEnd => (.holds c.atEnd, c)
  | .peek => (.char c.peek, c)
  | .atLineStart pos => (.holds (Cursor.atLineStart text pos), c)
  | .moveTo pos => (.done, c.moveTo pos)
  | .skipBlanks => replyOf (fun _ => .done) (Scan.skipBlanks c)
  | .findKeyword keyword => (.offset (c.findKeyword keyword).1, (c.findKeyword keyword).2)
  | .readName => replyOf .name (Scan.readName c)
  | .readQualifiedName => replyOf (fun n => .qualifiedName n.1 n.2) (Scan.readQualifiedName c)
  | .accept literal => replyOf .holds (Scan.accept literal c)
  | .expect literal => replyOf (fun _ => .done) (Scan.expect literal c)
  | .readUntil terminator => replyOf .text (Scan.readUntil terminator c)
  | .restOfLine => replyOf .text (Scan.restOfLine c)

/-- The reply to an operation, and the cursor behind it. -/
def Operation.step (o : Operation) (c : Cursor text) : Reply × Cursor text :=
  match o with
  | .act a => a.perform c
  | .line pos =>
    let numbered := c.lineNumber (pos.getD c.pos)
    (.line numbered.1, numbered.2)

/-- The replies to operations, one after the other. -/
def replies : List Operation → Cursor text → List Reply
  | [], _ => []
  | o :: rest, c => (o.step c).1 :: replies rest (o.step c).2

/-- The cursor behind operations. -/
def behind : List Operation → Cursor text → Cursor text
  | [], c => c
  | o :: rest, c => behind rest (o.step c).2

/-- The reply of a reader at an offset that counts all newlines before an offset when it is asked
for a line, and the offset where it goes on.  Its actions are those of a cursor that has counted
nothing. -/
def Operation.plainStep (text : List Char) (o : Operation) (pos : Nat) : Reply × Nat :=
  match o with
  | .act a =>
    let performed := a.perform (startAt text pos)
    (performed.1, performed.2.pos)
  | .line asked => (.line (lineAt text (asked.getD pos)), pos)

/-- The replies of such a reader. -/
def plainReplies (text : List Char) : List Operation → Nat → List Reply
  | [], _ => []
  | o :: rest, pos => (o.plainStep text pos).1 :: plainReplies text rest (o.plainStep text pos).2

/-! ## Another counter -/

/-- The cursor with another counter. -/
def recount (c : Cursor text) (k : LineCounter) : Cursor text := { c with counter := k }

/-- Every cursor is one that has counted nothing, with its own counter. -/
theorem recount_startAt (c : Cursor text) : (startAt text c.pos).recount c.counter = c := rfl

theorem findKeyword_recount (c : Cursor text) (k : LineCounter) (keyword : List Char) :
    (c.recount k).findKeyword keyword =
      ((c.findKeyword keyword).1, (c.findKeyword keyword).2.recount k) := by
  have hpos : (c.recount k).pos = c.pos := rfl
  unfold findKeyword
  rw [hpos]
  cases keywordFrom? keyword text c.pos <;> rfl

end Cursor

namespace Scan

variable {text : List Char} {α β : Type}

/-- The same result with another counter. -/
def recounted (k : LineCounter) :
    EStateM.Result ParseFault (Cursor text) α → EStateM.Result ParseFault (Cursor text) α
  | .ok a c => .ok a (c.recount k)
  | .error fault c => .error fault (c.recount k)

-- A cursor may lie beyond the end of its text here, so nothing is said of what follows it.
/-- An action ignores the counter when at a cursor with another one it gives the same and moves to
the same place, and leaves this counter as it is. -/
def IgnoresCounter (m : Scan text α) : Prop := ∀ c k, m (c.recount k) = recounted k (m c)

/-- **A sequence** ignores the counter when its parts do. -/
theorem IgnoresCounter.bind {m : Scan text α} {f : α → Scan text β} (hm : IgnoresCounter m)
    (hf : ∀ a, IgnoresCounter (f a)) : IgnoresCounter (m >>= f) := by
  intro c k
  show EStateM.bind m f (c.recount k) = recounted k (EStateM.bind m f c)
  unfold EStateM.bind
  rw [hm c k]
  cases m c with
  | ok a c' => exact hf a c' k
  | error fault c' => rfl

theorem ignoresCounter_skipBlanks : IgnoresCounter (skipBlanks : Scan text Unit) :=
  fun _ _ => rfl

theorem ignoresCounter_readName : IgnoresCounter (readName : Scan text String) := by
  intro c k
  have hrest : (c.recount k).rest = c.rest := rfl
  unfold readName
  rw [hrest]
  cases c.rest.takeWhile isNameChar <;> rfl

theorem ignoresCounter_accept (literal : List Char) :
    IgnoresCounter (accept literal : Scan text Bool) := by
  intro c k
  have hrest : (c.recount k).rest = c.rest := rfl
  have hpos : (c.recount k).pos = c.pos := rfl
  unfold accept
  rw [hrest, hpos]
  split <;> rfl

theorem ignoresCounter_expect (literal : List Char) :
    IgnoresCounter (expect literal : Scan text Unit) := by
  apply (ignoresCounter_accept literal).bind
  intro found
  cases found with
  | true => exact fun _ _ => rfl
  | false => exact fun _ _ => rfl

theorem ignoresCounter_readQualifiedName :
    IgnoresCounter (readQualifiedName : Scan text (String × String)) := by
  apply ignoresCounter_readName.bind
  intro table
  apply (ignoresCounter_expect ['.']).bind
  intro _
  exact ignoresCounter_readName.bind fun _ _ _ => rfl

theorem ignoresCounter_readUntil (terminator : List Char) :
    IgnoresCounter (readUntil terminator : Scan text (List Char)) := by
  intro c k
  have hpos : (c.recount k).pos = c.pos := rfl
  unfold readUntil
  rw [hpos]
  cases indexFrom? terminator text c.pos <;> rfl

theorem ignoresCounter_restOfLine : IgnoresCounter (restOfLine : Scan text (List Char)) :=
  fun _ _ => rfl

end Scan

namespace Cursor

open Scan

variable {text : List Char} {α : Type} {c : Cursor text}

theorem replyOf_of_ignoresCounter {m : Scan text α} (hm : IgnoresCounter m) (reply : α → Reply)
    (c : Cursor text) (k : LineCounter) :
    replyOf reply (m (c.recount k)) =
      ((replyOf reply (m c)).1, (replyOf reply (m c)).2.recount k) := by
  rw [hm c k]
  cases m c <;> rfl

/-- **No action asks for the counter** or changes it. -/
theorem Action.perform_recount (a : Action) (c : Cursor text) (k : LineCounter) :
    a.perform (c.recount k) = ((a.perform c).1, (a.perform c).2.recount k) := by
  cases a with
  | atEnd => rfl
  | peek => rfl
  | atLineStart pos => rfl
  | moveTo pos => rfl
  | skipBlanks => exact replyOf_of_ignoresCounter ignoresCounter_skipBlanks (fun _ => .done) c k
  | findKeyword keyword =>
    simp only [Action.perform]
    rw [findKeyword_recount]
  | readName => exact replyOf_of_ignoresCounter ignoresCounter_readName .name c k
  | readQualifiedName =>
    exact replyOf_of_ignoresCounter ignoresCounter_readQualifiedName
      (fun n => .qualifiedName n.1 n.2) c k
  | accept literal => exact replyOf_of_ignoresCounter (ignoresCounter_accept literal) .holds c k
  | expect literal =>
    exact replyOf_of_ignoresCounter (ignoresCounter_expect literal) (fun _ => .done) c k
  | readUntil terminator =>
    exact replyOf_of_ignoresCounter (ignoresCounter_readUntil terminator) .text c k
  | restOfLine => exact replyOf_of_ignoresCounter ignoresCounter_restOfLine .text c k

/-! ## Runs -/

/-- **One operation** at a cursor with a right counter gives what the plain reader gives, moves to
the same offset, and leaves a right counter. -/
theorem Operation.step_eq_plainStep (h : c.Counted) (o : Operation) :
    ((o.step c).1, (o.step c).2.pos) = o.plainStep text c.pos ∧ (o.step c).2.Counted := by
  cases o with
  | act a =>
    have hact := a.perform_recount (startAt text c.pos) c.counter
    rw [recount_startAt] at hact
    show ((a.perform c).1, (a.perform c).2.pos) = _ ∧ (a.perform c).2.Counted
    rw [hact]
    exact ⟨rfl, h⟩
  | line pos =>
    refine ⟨?_, h.lineNumber_counted _⟩
    show (Reply.line (c.lineNumber (pos.getD c.pos)).1, c.pos) = _
    rw [h.lineNumber]
    rfl

/-- The replies of a cursor with a right counter are those of the plain reader at its offset. -/
theorem replies_eq_plainReplies (h : c.Counted) (ops : List Operation) :
    replies ops c = plainReplies text ops c.pos := by
  induction ops generalizing c with
  | nil => rfl
  | cons o rest ih =>
    obtain ⟨hstep, hcounted⟩ := o.step_eq_plainStep h
    rw [replies, plainReplies, ih hcounted, ← hstep]

/-- A right counter stays right in a run. -/
theorem Counted.behind (h : c.Counted) (ops : List Operation) : (behind ops c).Counted := by
  induction ops generalizing c with
  | nil => exact h
  | cons o rest ih => exact ih (o.step_eq_plainStep h).2

theorem length_replies (ops : List Operation) (c : Cursor text) :
    (replies ops c).length = ops.length := by
  induction ops generalizing c with
  | nil => rfl
  | cons o rest ih => rw [replies, List.length_cons, List.length_cons, ih]

theorem replies_append (ops more : List Operation) (c : Cursor text) :
    replies (ops ++ more) c = replies ops c ++ replies more (behind ops c) := by
  induction ops generalizing c with
  | nil => rfl
  | cons o rest ih => rw [List.cons_append, replies, ih, replies, List.cons_append, Cursor.behind]

/-- **Lines asked for in any order**, with any other operations in between: a cursor that starts at
any offset of a text replies like the reader that counts anew each time.  Each line that it gives is
the number of newlines before the offset asked about, which may lie beyond the end of the text, and
one. -/
theorem replies_startAt (text : List Char) (offset : Nat) :
    (∀ ops, replies ops (startAt text offset) = plainReplies text ops offset) ∧
      ∀ (earlier later : List Operation) (pos : Option Nat),
        (replies (earlier ++ .line pos :: later) (startAt text offset))[earlier.length]? =
          some (.line (1 + (text.take
            (pos.getD (behind earlier (startAt text offset)).pos)).count '\n')) := by
  have hstart : (startAt text offset).Counted := startAt_counted offset
  refine ⟨replies_eq_plainReplies hstart, fun earlier later pos => ?_⟩
  have hline := (hstart.behind earlier).lineNumber
    (pos.getD (behind earlier (startAt text offset)).pos)
  rw [replies_append, List.getElem?_append_right (Nat.le_of_eq (length_replies _ _)),
    length_replies, Nat.sub_self, replies, List.getElem?_cons_zero, Operation.step, hline, lineAt]

/-- Lines asked for beyond the end, back again, at the cursor, and behind a fault. -/
example :
    replies [.line (some 9), .line (some 2), .act .restOfLine, .line none,
      .act (.expect ['a']), .line (some 4), .act .skipBlanks, .line none]
      (startAt "a\nb\n\nc".toList 2) =
      [.line 4, .line 2, .text ['b'], .line 2, .fault (.expected ['a'] (some '\n')), .line 3,
        .done, .line 4] := by
  decide +kernel

end Cursor

end SchemaDiagram
