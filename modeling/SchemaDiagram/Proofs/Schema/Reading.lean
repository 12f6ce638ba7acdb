/-
# What reading actions read

An action reads a part of a text before a rest when at every cursor that the part and the rest
follow it succeeds, gives a value as it should, and moves just past the part.

* `IsName` : a name of a table or a field;
* `Scan.Reads` : what an action reads, closed under sequencing;
* `Scan.reads_readName` and the others : what the single actions read;
* `scanBlock_reads`, `scanReferenceLine_reads`, `scanExpression_reads`, `scanReference_reads` :
  what the actions for the constructs of a schema read.
-/
import SchemaDiagram.Proofs.Schema.Keyword
import SchemaDiagram.Schema.ReferenceLine
import SchemaDiagram.Schema.TableBlock

namespace SchemaDiagram

open Text

/-- A name is not empty and has only name characters. -/
structure IsName (n : String) : Prop where
  ne_nil : n.toList ≠ []
  nameChars : ∀ c ∈ n.toList, isNameChar c = true

instance (n : String) : Decidable (IsName n) :=
  decidable_of_iff (n.toList ≠ [] ∧ ∀ c ∈ n.toList, isNameChar c = true)
    ⟨fun h => ⟨h.1, h.2⟩, fun h => ⟨h.1, h.2⟩⟩

/-- A run of name characters is a name. -/
theorem isName_ofList {s : List Char} (hne : s ≠ []) (hs : ∀ c ∈ s, isNameChar c = true) :
    IsName (String.ofList s) where
  ne_nil := by rwa [String.toList_ofList]
  nameChars := by rwa [String.toList_ofList]

theorem IsName.head_name {n : String} (hn : IsName n) (r : List Char) :
    ∀ c ∈ (n.toList ++ r).head?, isNameChar c = true := by
  intro c hc
  cases hlist : n.toList with
  | nil => exact absurd hlist hn.ne_nil
  | cons first others =>
    rw [hlist] at hc
    cases hc
    exact hn.nameChars c (by rw [hlist]; exact List.mem_cons_self)

theorem IsName.head_not_blank {n : String} (hn : IsName n) (r : List Char) :
    ∀ c ∈ (n.toList ++ r).head?, isBlank c = false :=
  fun c hc => isBlank_eq_false_of_isNameChar (hn.head_name r c hc)

/-- A table name and a field name with a point between them. -/
def qualified (table field : String) : List Char := table.toList ++ '.' :: field.toList

theorem mem_qualified {table field : String} (htable : IsName table) (hfield : IsName field)
    {c : Char} (hc : c ∈ qualified table field) : isNameChar c = true ∨ c = '.' := by
  rcases List.mem_append.1 hc with hc | hc
  · exact Or.inl (htable.nameChars c hc)
  · rcases List.mem_cons.1 hc with rfl | hc
    · exact Or.inr rfl
    · exact Or.inl (hfield.nameChars c hc)

/-- The sign of a cardinality in a reference line. -/
def Cardinality.sign : Cardinality → List Char
  | .oneToMany => ['>']
  | .manyToOne => ['<']
  | .oneToOne => ['-']
  | .manyToMany => ['<', '>']

theorem takeWhile_append_of_stop {p : Char → Bool} {s r : List Char} (hs : ∀ c ∈ s, p c = true)
    (hr : ∀ c ∈ r.head?, p c = false) : (s ++ r).takeWhile p = s := by
  rw [List.takeWhile_append_of_pos hs]
  cases r with
  | nil => exact List.append_nil s
  | cons c rest =>
    rw [List.takeWhile_cons_of_neg (Bool.eq_false_iff.1 (hr c rfl)), List.append_nil]

namespace Cursor

variable {text s r : List Char} {c c' : Cursor text}

/-- A cursor that is followed by a rest of its text. -/
structure FollowedBy (c : Cursor text) (rest : List Char) : Prop where
  within : c.pos ≤ text.length
  rest_eq : c.rest = rest

theorem FollowedBy.drop (h : c.FollowedBy r) : text.drop c.pos = r := h.rest_eq

theorem FollowedBy.length (h : c.FollowedBy r) : c.pos + r.length = text.length := by
  rw [← h.drop, List.length_drop, Nat.add_sub_cancel' h.within]

/-- Behind what was read the rest follows. -/
theorem FollowedBy.advance (h : c.FollowedBy (s ++ r)) (hpos : c'.pos = c.pos + s.length) :
    c'.FollowedBy r where
  within := by
    have hlen := h.length
    rw [List.length_append] at hlen
    omega
  rest_eq := by rw [rest, hpos, ← List.drop_drop, h.drop, List.drop_left]

theorem startAt_followedBy (text : List Char) : (startAt text 0).FollowedBy text :=
  ⟨Nat.zero_le _, rfl⟩

end Cursor

namespace Scan

variable {text s t r : List Char} {α β : Type} {P : α → Prop} {Q : β → Prop}

/-- An action reads `s` before `r`, with values that satisfy `P`. -/
def Reads (m : Scan text α) (s r : List Char) (P : α → Prop) : Prop :=
  ∀ c : Cursor text, c.FollowedBy (s ++ r) →
    ∃ a c', m c = .ok a c' ∧ P a ∧ c'.pos = c.pos + s.length

theorem reads_pure {a : α} (ha : P a) : Reads (pure a : Scan text α) [] r P :=
  fun c _ => ⟨a, c, rfl, ha, rfl⟩

/-- **A sequence** reads what its parts read, one after the other. -/
theorem Reads.bind {m : Scan text α} {f : α → Scan text β} (hm : Reads m s (t ++ r) P)
    (hf : ∀ a, P a → Reads (f a) t r Q) : Reads (m >>= f) (s ++ t) r Q := by
  intro c hc
  rw [List.append_assoc] at hc
  obtain ⟨a, c₁, hm, ha, hpos₁⟩ := hm c hc
  obtain ⟨b, c₂, hf, hb, hpos₂⟩ := hf a ha c₁ (hc.advance hpos₁)
  refine ⟨b, c₂, ?_, hb, ?_⟩
  · show EStateM.bind m f c = .ok b c₂
    rw [EStateM.bind, hm]
    exact hf
  · rw [hpos₂, hpos₁, List.length_append, Nat.add_assoc]

/-- The last action of a sequence may read nothing. -/
theorem Reads.bind_last {m : Scan text α} {f : α → Scan text β} (hm : Reads m s r P)
    (hf : ∀ a, P a → Reads (f a) [] r Q) : Reads (m >>= f) s r Q := by
  have h := Reads.bind (t := []) hm hf
  rwa [List.append_nil] at h

/-- An action that reads a whole text gives a value for it. -/
theorem Reads.startAt {m : Scan text α} (h : Reads m text [] P) :
    ∃ a c, m (Cursor.startAt text 0) = .ok a c ∧ P a := by
  obtain ⟨a, c, hm, ha, -⟩ := h (Cursor.startAt text 0) <| by
    rw [List.append_nil]
    exact Cursor.startAt_followedBy text
  exact ⟨a, c, hm, ha⟩

/-! ## Single actions -/

theorem reads_skipBlanks (hs : ∀ c ∈ s, isBlank c = true) (hr : ∀ c ∈ r.head?, isBlank c = false) :
    Reads (skipBlanks : Scan text Unit) s r fun _ => True := by
  intro c hc
  refine ⟨(), c.moveTo (c.pos + s.length), ?_, trivial, rfl⟩
  rw [skipBlanks, hc.rest_eq, takeWhile_append_of_stop hs hr]

theorem reads_readName {n : String} (hn : IsName n) (hr : ∀ c ∈ r.head?, isNameChar c = false) :
    Reads (readName : Scan text String) n.toList r (· = n) := by
  intro c hc
  refine ⟨n, c.moveTo (c.pos + n.toList.length), ?_, rfl, rfl⟩
  rw [readName, hc.rest_eq, takeWhile_append_of_stop hn.nameChars hr]
  cases hlist : n.toList with
  | nil => exact absurd hlist hn.ne_nil
  | cons first others =>
    rw [← String.ofList_toList (s := n), hlist]

theorem reads_accept (literal : List Char) :
    Reads (accept literal : Scan text Bool) literal r (· = true) := by
  intro c hc
  refine ⟨true, c.moveTo (c.pos + literal.length), ?_, rfl, rfl⟩
  rw [accept, if_pos]
  rw [Bool.and_eq_true, decide_eq_true_eq, List.isPrefixOf_iff_prefix, hc.rest_eq]
  exact ⟨hc.within, List.prefix_append literal r⟩

/-- A literal that is not next is not accepted, and nothing is read. -/
theorem reads_accept_false {literal : List Char} (h : ¬ literal <+: r) :
    Reads (accept literal : Scan text Bool) [] r (· = false) := by
  intro c hc
  refine ⟨false, c, ?_, rfl, rfl⟩
  rw [accept, if_neg]
  rw [Bool.and_eq_true, List.isPrefixOf_iff_prefix, hc.rest_eq, List.nil_append]
  exact fun hboth => h hboth.2

/-- A choice takes its first branch behind a literal that is next. -/
theorem Reads.acceptThen {literal : List Char} {x y : Scan text β} (hx : Reads x t r Q) :
    Reads (accept literal >>= fun found => if found then x else y) (literal ++ t) r Q := by
  refine (reads_accept literal).bind ?_
  rintro _ rfl
  exact hx

/-- A choice takes its second branch where the literal is not next. -/
theorem Reads.acceptElse {literal : List Char} {x y : Scan text β} (h : ¬ literal <+: s ++ r)
    (hy : Reads y s r Q) : Reads (accept literal >>= fun found => if found then x else y) s r Q := by
  refine (reads_accept_false h).bind (s := []) ?_
  rintro _ rfl
  exact hy

theorem reads_expect (literal : List Char) :
    Reads (expect literal : Scan text Unit) literal r fun _ => True := by
  refine (reads_accept literal).bind_last ?_
  rintro _ rfl
  exact reads_pure trivial

theorem reads_readQualifiedName {table field : String} (htable : IsName table)
    (hfield : IsName field) (hr : ∀ c ∈ r.head?, isNameChar c = false) :
    Reads (readQualifiedName : Scan text (String × String)) (qualified table field) r
      (· = (table, field)) := by
  refine (reads_readName htable ?_).bind (t := ['.'] ++ field.toList) ?_
  · rintro c ⟨⟩
    decide
  rintro _ rfl
  refine (reads_expect ['.']).bind fun _ _ => ?_
  refine (reads_readName hfield hr).bind_last ?_
  rintro _ rfl
  exact reads_pure rfl

theorem reads_readUntil {stop : Char} (hs : stop ∉ s) :
    Reads (readUntil [stop] : Scan text (List Char)) (s ++ [stop]) r (· = s) := by
  intro c hc
  have hrest : text.drop c.pos = s ++ stop :: r := by
    rw [hc.drop, List.append_assoc, List.singleton_append]
  refine ⟨s, c.moveTo (c.pos + s.length + 1), ?_, rfl, ?_⟩
  · rw [readUntil, indexFrom?_char hrest hs]
    dsimp only
    rw [slice_eq_take, hrest, List.take_left]
    rfl
  · rw [List.length_append]
    rfl

theorem reads_restOfLine (hs : '\n' ∉ s) (hr : ∀ c ∈ r.head?, c = '\n') :
    Reads (restOfLine : Scan text (List Char)) s r (· = s) := by
  intro c hc
  have hstop : (indexFrom? ['\n'] text c.pos).getD text.length = c.pos + s.length := by
    cases r with
    | nil =>
      rw [List.append_nil] at hc
      rw [indexFrom?_char_eq_none (by rwa [hc.drop]), ← hc.length]
      rfl
    | cons c₁ rest =>
      rw [hr c₁ rfl] at hc
      rw [indexFrom?_char hc.drop hs]
      rfl
  refine ⟨s, c.moveTo (c.pos + s.length), ?_, rfl, rfl⟩
  rw [restOfLine, hstop, slice_eq_take, hc.drop, List.take_left]

theorem reads_lineHere : Reads (lineHere : Scan text Nat) [] r fun _ => True :=
  fun _ _ => ⟨_, _, rfl, trivial, rfl⟩

/-- At the end of a text the cursor says so. -/
theorem reads_get_atEnd : Reads (get : Scan text (Cursor text)) [] [] (·.atEnd = true) := by
  intro c hc
  refine ⟨c, c, rfl, ?_, rfl⟩
  exact decide_eq_true (Nat.le_of_eq hc.length.symm)

end Scan

/-! ## The constructs of a schema -/

section

variable {text r body : List Char} {name : String}

open Scan

/-- What stands between the keyword of a table block and its end. -/
def blockTail (name : String) (body : List Char) : List Char :=
  ' ' :: (name.toList ++ ' ' :: '\x7b' :: (body ++ ['\x7d']))

theorem scanBlock_reads (hname : IsName name) (hbody : '\x7d' ∉ body) :
    Reads (scanBlock : Scan text (String × Nat × List Char)) (blockTail name body) r
      fun read => read.1 = name ∧ read.2.2 = body := by
  refine (reads_skipBlanks (s := [' ']) (by decide) ?_).bind
    (t := name.toList ++ ' ' :: '\x7b' :: (body ++ ['\x7d'])) fun _ _ => ?_
  · rw [List.append_assoc]
    exact hname.head_not_blank _
  refine (reads_readName hname ?_).bind ?_
  · rintro c ⟨⟩
    decide
  rintro _ rfl
  refine (reads_skipBlanks (s := [' ']) (by decide) ?_).bind
    (t := '\x7b' :: (body ++ ['\x7d'])) fun _ _ => ?_
  · rintro c ⟨⟩
    decide
  refine (reads_expect ['\x7b']).bind fun _ _ => ?_
  refine reads_lineHere.bind (s := []) fun line _ => ?_
  refine (reads_readUntil hbody).bind_last ?_
  rintro _ rfl
  exact reads_pure ⟨rfl, rfl⟩

/-- An operator is read as the cardinality that it signs. -/
theorem scanOperator_reads (o : Cardinality) :
    Reads (scanOperator : Scan text Cardinality) o.sign (' ' :: r) (· = o) := by
  -- the longest operator is tried first
  cases o with
  | oneToMany =>
    refine Reads.acceptElse ?_ (Reads.acceptThen (t := []) (reads_pure rfl))
    simp [Cardinality.sign]
  | manyToOne =>
    refine Reads.acceptElse ?_ (Reads.acceptElse ?_ (Reads.acceptThen (t := []) (reads_pure rfl)))
    · simp [Cardinality.sign]
    · simp [Cardinality.sign]
  | oneToOne =>
    refine Reads.acceptElse ?_ (Reads.acceptElse ?_ (Reads.acceptElse ?_
      (Reads.acceptThen (t := []) (reads_pure rfl))))
    · simp [Cardinality.sign]
    · simp [Cardinality.sign]
    · simp [Cardinality.sign]
  | manyToMany => exact Reads.acceptThen (t := []) (reads_pure rfl)

/-- All four names of a relationship are names. -/
structure Relationship.Named (e : Relationship) : Prop where
  fromTable : IsName e.fromTable
  fromField : IsName e.fromField
  toTable : IsName e.toTable
  toField : IsName e.toField

instance (e : Relationship) : Decidable e.Named :=
  decidable_of_iff
    (IsName e.fromTable ∧ IsName e.fromField ∧ IsName e.toTable ∧ IsName e.toField)
    ⟨fun h => ⟨h.1, h.2.1, h.2.2.1, h.2.2.2⟩, fun h => ⟨h.1, h.2, h.3, h.4⟩⟩

/-- What stands behind the colon of a reference line. -/
def Relationship.expression (e : Relationship) : List Char :=
  ' ' :: (qualified e.fromTable e.fromField ++
    ' ' :: (e.cardinality.sign ++ ' ' :: qualified e.toTable e.toField))

/-- What stands behind the colon of a reference line: names, the signs between them, and spaces. -/
theorem Relationship.Named.mem_expression {e : Relationship} (he : e.Named) {c : Char}
    (hc : c ∈ e.expression) : isNameChar c = true ∨ c ∈ [' ', '.', '>', '<', '-'] := by
  have hsign : ∀ o : Cardinality, ∀ c ∈ o.sign, c ∈ [' ', '.', '>', '<', '-'] := by
    intro o
    cases o <;> decide
  rw [Relationship.expression, List.mem_cons, List.mem_append, List.mem_cons, List.mem_append,
    List.mem_cons] at hc
  rcases hc with rfl | hc | rfl | hc | rfl | hc
  · exact Or.inr (by decide)
  · exact (mem_qualified he.fromTable he.fromField hc).imp_right (by rintro rfl; decide)
  · exact Or.inr (by decide)
  · exact Or.inr (hsign _ c hc)
  · exact Or.inr (by decide)
  · exact (mem_qualified he.toTable he.toField hc).imp_right (by rintro rfl; decide)

/-- A reference line is one line. -/
theorem Relationship.Named.newline_not_mem {e : Relationship} (he : e.Named) :
    '\n' ∉ e.expression :=
  fun h => (he.mem_expression h).elim (absurd · (by decide)) (absurd · (by decide))

theorem scanExpression_reads {e : Relationship} (he : e.Named) :
    Reads (scanExpression : Scan text Relationship) e.expression [] (· = e) := by
  obtain ⟨a, b, c, d, o⟩ := e
  refine (reads_skipBlanks (s := [' ']) (by decide) ?_).bind
    (t := qualified a b ++ ' ' :: (o.sign ++ ' ' :: qualified c d)) fun _ _ => ?_
  · rw [qualified, List.append_assoc, List.append_assoc]
    exact he.fromTable.head_not_blank _
  refine (reads_readQualifiedName he.fromTable he.fromField ?_).bind ?_
  · rintro c ⟨⟩
    decide
  rintro _ rfl
  refine (reads_skipBlanks (s := [' ']) (by decide) ?_).bind
    (t := o.sign ++ ' ' :: qualified c d) fun _ _ => ?_
  · cases o <;> · rintro c ⟨⟩; decide
  refine (scanOperator_reads o).bind (t := ' ' :: qualified c d) ?_
  rintro _ rfl
  refine (reads_skipBlanks (s := [' ']) (by decide) ?_).bind (t := qualified c d) fun _ _ => ?_
  · rw [qualified, List.append_assoc]
    exact he.toTable.head_not_blank _
  refine (reads_readQualifiedName he.toTable he.toField ?_).bind_last ?_
  · intro c hc
    exact nomatch hc
  rintro _ rfl
  exact reads_pure rfl

/-- The part of a reference line behind its colon is read as its relationship. -/
theorem Relationship.ofExpression_expression {e : Relationship} (he : e.Named) :
    Relationship.ofExpression e.expression = .ok e := by
  obtain ⟨_, c, hread, rfl⟩ := (scanExpression_reads he).startAt
  rw [Relationship.ofExpression, hread]

/-- The label of a reference line, with the space before it. -/
def labelText : Option String → List Char
  | none => []
  | some label => ' ' :: label.toList

theorem scanReferenceLine_reads {label : Option String} (hlabel : ∀ n ∈ label, IsName n)
    {line : List Char} (hline : '\n' ∉ line) (hr : ∀ c ∈ r.head?, c = '\n') :
    Reads (scanReferenceLine : Scan text (List Char)) (labelText label ++ ':' :: line) r
      (· = line) := by
  cases label with
  | none =>
    refine (reads_skipBlanks (s := []) (by decide) ?_).bind (t := ':' :: line) fun _ _ => ?_
    · rintro c ⟨⟩
      decide
    refine Reads.bind (s := [':']) (P := fun _ => True) ?_ fun _ _ => reads_restOfLine hline hr
    exact Reads.acceptThen (t := []) (reads_pure trivial)
  | some n =>
    have hn := hlabel n rfl
    refine (reads_skipBlanks (s := [' ']) (by decide) ?_).bind
      (t := n.toList ++ ':' :: line) fun _ _ => ?_
    · rw [List.append_assoc]
      exact hn.head_not_blank _
    have hcolon : Reads (scanColon : Scan text Unit) (n.toList ++ [':']) (line ++ r)
        fun _ => True := by
      refine Reads.acceptElse ?_ ?_
      · rw [List.append_assoc]
        rintro ⟨tail, htail⟩
        have hcolon := hn.head_name (':' :: (line ++ r)) ':' (congrArg List.head? htail.symm)
        exact absurd hcolon (by decide)
      · refine (reads_readName hn ?_).bind ?_
        · rintro c ⟨⟩
          decide
        rintro _ rfl
        refine (reads_skipBlanks (s := []) (by decide) ?_).bind (t := [':']) fun _ _ => ?_
        · rintro c ⟨⟩
          decide
        exact reads_expect [':']
    have h := hcolon.bind fun _ _ => reads_restOfLine hline hr
    rwa [List.append_assoc] at h

theorem scanDirection_reads (setting : List Char) (d : Direction) :
    Reads (scanDirection setting : Scan text Direction) [d.sign] r (· = d) := by
  cases d with
  | toTarget => exact Reads.acceptThen (t := []) (reads_pure rfl)
  | fromTarget =>
    refine Reads.acceptElse ?_ (Reads.acceptThen (t := []) (reads_pure rfl))
    simp [Direction.sign]

/-- The setting that says a reference. -/
def Reference.setting (e : Reference) : List Char :=
  referenceMark ++ ' ' :: e.direction.sign :: ' ' :: qualified e.table e.field

theorem Direction.sign_not_blank (d : Direction) : isBlank d.sign = false := by
  cases d <;> decide

/-- The direction and the target of a reference are read with any blanks around them. -/
theorem scanReference_reads (setting : List Char) {e : Reference} (htable : IsName e.table)
    (hfield : IsName e.field) {lead gap trail : List Char} (hlead : ∀ c ∈ lead, isBlank c = true)
    (hgap : ∀ c ∈ gap, isBlank c = true) (htrail : ∀ c ∈ trail, isBlank c = true) :
    Reads (scanReference setting : Scan text Reference)
      (lead ++ e.direction.sign :: (gap ++ (qualified e.table e.field ++ trail))) [] (· = e) := by
  obtain ⟨d, table, field⟩ := e
  refine (reads_skipBlanks hlead ?_).bind fun _ _ => ?_
  · rintro c ⟨⟩
    exact d.sign_not_blank
  refine (scanDirection_reads setting d).bind (t := gap ++ (qualified table field ++ trail)) ?_
  rintro _ rfl
  refine (reads_skipBlanks hgap ?_).bind fun _ _ => ?_
  · rw [qualified, List.append_assoc, List.append_assoc]
    exact htable.head_not_blank _
  refine (reads_readQualifiedName htable hfield ?_).bind ?_
  · intro c hc
    rw [List.append_nil] at hc
    exact isNameChar_eq_false_of_isBlank (htrail c (List.mem_of_mem_head? hc))
  rintro _ rfl
  refine (reads_skipBlanks htrail ?_).bind_last fun _ _ => ?_
  · intro c hc
    exact nomatch hc
  refine reads_get_atEnd.bind (t := []) fun c hc => ?_
  rw [if_pos hc]
  exact reads_pure rfl

/-- A setting is read as the reference that it says. -/
theorem Reference.ofSetting_setting {e : Reference} (htable : IsName e.table)
    (hfield : IsName e.field) : Reference.ofSetting e.setting = .ok e := by
  have hspace : ∀ c ∈ [' '], isBlank c = true := by decide
  have hread : Reads
      (scanReference e.setting : Scan (e.setting.drop referenceMark.length) Reference)
      ([' '] ++ e.direction.sign :: ([' '] ++ (qualified e.table e.field ++ []))) [] (· = e) :=
    scanReference_reads e.setting htable hfield hspace hspace (List.forall_mem_nil _)
  rw [List.append_nil] at hread
  obtain ⟨_, c, hread, rfl⟩ := hread.startAt
  rw [Reference.ofSetting, hread]

end

end SchemaDiagram
