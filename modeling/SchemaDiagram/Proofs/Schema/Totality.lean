/-
# Every text is read

The reader of a document goes on as long as it finds keywords and brackets, gives up fragments with
a fault, and takes the first word of a line.  Here it is told once more without any promise: its
loops may go on forever, a fault that nothing catches ends it, and so does a line without a word.
For every text it nevertheless comes to its end, with the same document.

* `Reading` : readings that may go on forever or stop before their time;
* `Reading.Round`, `Reading.Round.loop` : a loop takes rounds until one of them gives a result;
* `Reading.Gives`, `Reading.Raises` : a reading gives a value, or ends with a fault;
* `Reading.Keeps.loop` : a loop ends when its rounds do and each of them moves the cursor on;
* `keywordRound_keeps`, `settingsRound_keeps`, `tablesRound_keeps`, `referencesRound_keeps` : what
  one round of each loop does;
* `fieldsOf_gives` : every line of a body that is not blank has a first word.

Main statement: `Document.read_total` : the loops move on, and every text is read to its end.
-/
import SchemaDiagram.Proofs.Schema.ActionCases
import SchemaDiagram.Proofs.Schema.ReferencePass
import SchemaDiagram.Proofs.Schema.Remarks
import SchemaDiagram.Schema.Document

namespace SchemaDiagram

open Text

/-- What ends a reading before its time: a fault that nothing catches, or the first word of a line
that has none. -/
inductive Stop where
  | fault (fault : ParseFault)
  | noWord
deriving DecidableEq, Repr

/-- A reading moves a cursor.  It may go on forever, stop before its time, or give a value. -/
abbrev Reading (text : List Char) := ExceptT Stop (StateT (Cursor text) Option)

namespace Reading

variable {text part : List Char} {α β σ : Type}

/-- A reading action, with its faults not caught. -/
def ofScan (m : Scan text α) : Reading text α := fun c =>
  match m c with
  | .ok a c => some (.ok a, c)
  | .error fault c => some (.error (.fault fault), c)

/-- A reading with its faults caught, but no other stop. -/
def caught (m : Reading text α) : Reading text (Except ParseFault α) := fun c =>
  match m c with
  | some (.ok a, c) => some (.ok (.ok a), c)
  | some (.error (.fault fault), c) => some (.ok (.error fault), c)
  | some (.error .noWord, c) => some (.error .noWord, c)
  | none => none

/-- A reading of another text, from its start on, that leaves the cursor where it is. -/
def within (part : List Char) (m : Reading part α) : Reading text α := fun c =>
  (m (Cursor.startAt part 0)).map fun read => (read.1, c)

/-- The line of an offset. -/
def lineOf (pos : Nat) : Reading text Nat := fun c =>
  some (.ok (c.lineNumber pos).1, (c.lineNumber pos).2)

/-- A round of a loop starts from what is found so far, and gives more of it or a result. -/
abbrev Round (text : List Char) (σ β : Type) := σ → Reading text (σ ⊕ β)

/-- Takes rounds until one of them gives a result. -/
def Round.loop (round : Round text σ β) (s : σ) : Reading text β := do
  match ← round s with
  | .inl s' => round |>.loop s'
  | .inr b => return b
partial_fixpoint

/-! ## What readings give -/

/-- A reading comes to its end with a value. -/
def Gives (m : Reading text α) (c : Cursor text) (P : α → Cursor text → Prop) : Prop :=
  ∃ a c', m c = some (.ok a, c') ∧ P a c'

variable {m : Reading text α} {c : Cursor text} {P : α → Cursor text → Prop}

theorem gives_pure {a : α} (h : P a c) : Gives (pure a) c P := ⟨a, c, rfl, h⟩

theorem gives_get_bind {k : Cursor text → Reading text β} {Q : β → Cursor text → Prop}
    (h : (k c).Gives c Q) : Gives (get >>= k) c Q := h

theorem gives_modify_bind {f : Cursor text → Cursor text} {k : PUnit → Reading text β}
    {Q : β → Cursor text → Prop} (h : (k ⟨⟩).Gives (f c) Q) : Gives (modify f >>= k) c Q := h

theorem gives_set_bind {d : Cursor text} {k : PUnit → Reading text β}
    {Q : β → Cursor text → Prop} (h : (k ⟨⟩).Gives d Q) : Gives (set d >>= k) c Q := h

theorem gives_lineOf_bind {pos : Nat} {k : Nat → Reading text β} {Q : β → Cursor text → Prop}
    (h : (k (c.lineNumber pos).1).Gives (c.lineNumber pos).2 Q) : Gives (lineOf pos >>= k) c Q := h

theorem Gives.mono {Q : α → Cursor text → Prop} (h : m.Gives c P)
    (hPQ : ∀ a c', P a c' → Q a c') : m.Gives c Q := by
  obtain ⟨a, c', hm, ha⟩ := h
  exact ⟨a, c', hm, hPQ a c' ha⟩

/-- **A sequence** gives a value when its parts do. -/
theorem Gives.bind {k : α → Reading text β} {Q : β → Cursor text → Prop} (h : m.Gives c P)
    (hk : ∀ a c', P a c' → (k a).Gives c' Q) : Gives (m >>= k) c Q := by
  obtain ⟨a, c₁, hm, ha⟩ := h
  obtain ⟨b, c₂, hk, hb⟩ := hk a c₁ ha
  refine ⟨b, c₂, ?_, hb⟩
  show (m c >>= fun read => ExceptT.bindCont k read.1 read.2) = _
  rw [hm]
  exact hk

/-- The rounds of a loop come to their ends, and those that go on move the cursor on.  Whatever
`results` says of the results from there, it says from the start of the round, and also of the
result that the last round gives. -/
def Keeps (round : Round text σ β) (results : σ → Cursor text → β → Cursor text → Prop) : Prop :=
  ∀ s c, (round s).Gives c fun next c' =>
    match next with
    | .inl s' => c'.remaining < c.remaining ∧ ∀ b d, results s' c' b d → results s c b d
    | .inr b => results s c b c'

/-- **A loop** comes to its end when its rounds do and move the cursor on. -/
theorem Keeps.loop {round : Round text σ β} {results : σ → Cursor text → β → Cursor text → Prop}
    (h : Keeps round results) (s : σ) (c : Cursor text) :
    (round.loop s).Gives c (results s c) := by
  induction hn : c.remaining using Nat.strongRecOn generalizing s c with
  | _ n ih =>
    subst hn
    rw [Round.loop]
    refine (h s c).bind ?_
    rintro (s' | b) c' hnext
    · exact (ih _ hnext.1 s' c' rfl).mono hnext.2
    · exact gives_pure hnext

/-- The rounds of a loop that go on move the cursor on. -/
def MovesOn (round : Round text σ β) : Prop :=
  ∀ s s' c c', round s c = some (.ok (.inl s'), c') → c'.remaining < c.remaining

theorem Keeps.movesOn {round : Round text σ β}
    {results : σ → Cursor text → β → Cursor text → Prop} (h : Keeps round results) :
    MovesOn round := by
  intro s s' c c' hround
  obtain ⟨next, d, hgiven, hnext⟩ := h s c
  rw [hround] at hgiven
  cases hgiven
  exact hnext.1

/-- A reading ends with a fault that nothing in it catches. -/
def Raises (m : Reading text α) (c : Cursor text) (fault : ParseFault) (c' : Cursor text) : Prop :=
  m c = some (.error (.fault fault), c')

theorem Raises.bind {fault : ParseFault} {c' : Cursor text} (h : m.Raises c fault c')
    (k : α → Reading text β) : Raises (m >>= k) c fault c' := by
  show (m c >>= fun read => ExceptT.bindCont k read.1 read.2) = _
  rw [h]
  rfl

theorem gives_ofScan {n : Scan text α} {a : α} {c' : Cursor text} (hn : n c = .ok a c')
    (h : P a c') : (ofScan n).Gives c P := by
  refine ⟨a, c', ?_, h⟩
  unfold ofScan
  rw [hn]

theorem raises_ofScan {n : Scan text α} {fault : ParseFault} {c' : Cursor text}
    (hn : n c = .error fault c') : (ofScan n).Raises c fault c' := by
  unfold Raises ofScan
  rw [hn]

theorem gives_ofScan_bind {n : Scan text α} {a : α} {c' : Cursor text} {k : α → Reading text β}
    {Q : β → Cursor text → Prop} (hn : n c = .ok a c') (h : (k a).Gives c' Q) :
    (ofScan n >>= k).Gives c Q :=
  (gives_ofScan (P := fun b d => b = a ∧ d = c') hn ⟨rfl, rfl⟩).bind fun _ _ hsame => by
    rw [hsame.1, hsame.2]
    exact h

theorem raises_ofScan_bind {n : Scan text α} {a : α} {c' d : Cursor text} {fault : ParseFault}
    {k : α → Reading text β} (hn : n c = .ok a c') (h : (k a).Raises c' fault d) :
    (ofScan n >>= k).Raises c fault d := by
  show (ofScan n c >>= fun read => ExceptT.bindCont k read.1 read.2) = _
  unfold ofScan
  rw [hn]
  exact h

theorem gives_within {n : Reading part α} {Q : α → Cursor part → Prop}
    (hn : n.Gives (Cursor.startAt part 0) Q) (h : ∀ a d, Q a d → P a c) :
    (within part n).Gives c P := by
  obtain ⟨a, d, hn, ha⟩ := hn
  refine ⟨a, c, ?_, h a d ha⟩
  unfold within
  rw [hn]
  rfl

theorem raises_within {n : Reading part α} {fault : ParseFault} {d : Cursor part}
    (hn : n.Raises (Cursor.startAt part 0) fault d) : (within part n).Raises c fault c := by
  unfold Raises within
  rw [hn]
  rfl

/-- A reading that gives a value gives it when its faults are caught. -/
theorem gives_caught_bind {k : Except ParseFault α → Reading text β} {Q : β → Cursor text → Prop}
    (h : m.Gives c fun a c' => (k (.ok a)).Gives c' Q) : (m.caught >>= k).Gives c Q := by
  obtain ⟨a, c', hm, hk⟩ := h
  have hcaught : m.caught.Gives c fun read d => read = .ok a ∧ d = c' := by
    refine ⟨.ok a, c', ?_, rfl, rfl⟩
    unfold caught
    rw [hm]
  refine hcaught.bind ?_
  rintro _ _ ⟨rfl, rfl⟩
  exact hk

/-- **A fault that is caught** does not end the reading. -/
theorem Raises.caught_bind {fault : ParseFault} {c' : Cursor text} (h : m.Raises c fault c')
    {k : Except ParseFault α → Reading text β} {Q : β → Cursor text → Prop}
    (hk : (k (.error fault)).Gives c' Q) : (m.caught >>= k).Gives c Q := by
  have hcaught : m.caught.Gives c fun read d => read = .error fault ∧ d = c' := by
    refine ⟨.error fault, c', ?_, rfl, rfl⟩
    unfold caught
    rw [h]
  refine hcaught.bind ?_
  rintro _ _ ⟨rfl, rfl⟩
  exact hk

end Reading

/-! ## The search for a keyword -/

section

open Reading

variable {text keyword : List Char} {c : Cursor text} {start first : Nat}

theorem Cursor.keywordFrom?_of_index_none (h : indexFrom? keyword text start = none) :
    Cursor.keywordFrom? keyword text start = none := by
  rw [Cursor.keywordFrom?]
  split
  · rfl
  · next found hfound =>
    rw [h] at hfound
    cases hfound

/-- The search takes the first occurrence if it stands alone, and goes on behind it if not. -/
theorem Cursor.keywordFrom?_of_index_some (hkeyword : keyword ≠ [])
    (h : indexFrom? keyword text start = some first) :
    Cursor.keywordFrom? keyword text start =
      if Cursor.standsAlone text first (first + keyword.length) then some first
      else Cursor.keywordFrom? keyword text (first + keyword.length) := by
  conv_lhs => rw [Cursor.keywordFrom?]
  split
  · next hnone =>
    rw [h] at hnone
    cases hnone
  · next found hfound =>
    rw [h] at hfound
    cases hfound
    rw [dif_neg hkeyword]

/-- A round of the search for a keyword. -/
def keywordRound (keyword : List Char) : Round text Unit (Option Nat) := fun _ => do
  match indexFrom? keyword text (← get).pos with
  | none =>
    modify fun c => c.moveTo text.length
    return .inr none
  | some start =>
    modify fun c => c.moveTo (start + keyword.length)
    if Cursor.standsAlone text start (start + keyword.length) then return .inr (some start)
    else return .inl ()

/-- A round moves behind an occurrence of the keyword. -/
theorem keywordRound_keeps (text : List Char) (hkeyword : keyword ≠ []) :
    Keeps (keywordRound keyword) fun _ (c : Cursor text) found d =>
      (found, d) = c.findKeyword keyword := by
  intro s c
  have hpos := List.length_pos_iff.2 hkeyword
  refine gives_get_bind ?_
  cases hindex : indexFrom? keyword text c.pos with
  | none =>
    refine gives_modify_bind (gives_pure ?_)
    show (none, c.moveTo text.length) = c.findKeyword keyword
    rw [Cursor.findKeyword, Cursor.keywordFrom?_of_index_none hindex]
  | some first =>
    have hbounds := indexFrom?_bounds hindex
    have hsearch := Cursor.keywordFrom?_of_index_some hkeyword hindex
    refine gives_modify_bind ?_
    by_cases halone : Cursor.standsAlone text first (first + keyword.length) = true
    · rw [if_pos halone] at hsearch ⊢
      refine gives_pure ?_
      show (some first, c.moveTo (first + keyword.length)) = c.findKeyword keyword
      rw [Cursor.findKeyword, hsearch]
    · rw [if_neg halone] at hsearch ⊢
      refine gives_pure ⟨?_, fun found d hd => ?_⟩
      · show text.length - (first + keyword.length) < text.length - c.pos
        omega
      · show (found, d) = c.findKeyword keyword
        have hrest : (found, d) =
            (c.moveTo (first + keyword.length)).findKeyword keyword := hd
        rw [hrest, Cursor.findKeyword, Cursor.findKeyword, hsearch]
        rfl

/-- **The search for a keyword** ends with what it finds. -/
theorem keywordLoop_gives (hkeyword : keyword ≠ []) (c : Cursor text) :
    ((keywordRound keyword).loop ()).Gives c fun found d => (found, d) = c.findKeyword keyword :=
  (keywordRound_keeps text hkeyword).loop () c

/-! ## Settings -/

/-- Reads a group behind its opening bracket, up to its closing bracket or to the end of its
line. -/
def readGroup : Reading text (List Char) := do
  match ← (ofScan (Scan.readUntil [']'])).caught with
  | .ok group => return group
  | .error _ => ofScan Scan.restOfLine

/-- A round of the search for bracket settings: the settings of the next group are added. -/
def settingsRound : Round text (List (List Char)) (List (List Char)) := fun found => do
  if (← get).atEnd then return .inr found
  match indexFrom? ['['] text (← get).pos with
  | none => return .inr found
  | some start =>
    modify fun c => c.moveTo (start + 1)
    let group ← readGroup
    return .inl (found ++ ((group.splitOn ',').map trim).filter fun setting => !setting.isEmpty)

/-- A group is read, and the cursor stands behind it. -/
theorem readGroup_gives {inside : List Char} (hc : c.FollowedBy inside) :
    readGroup.Gives c fun group c' => ∃ after, c'.FollowedBy after ∧
      after.length ≤ inside.length ∧
      bracketGroups ('[' :: inside) = group :: bracketGroups after := by
  rcases Scan.readUntil_cases ']' hc with
    ⟨group, after, c', rfl, hgroup, hread, hc', -⟩ | ⟨hopen, hread⟩
  · refine gives_caught_bind (gives_ofScan hread (gives_pure ⟨after, hc', ?_,
      bracketGroups_cons hgroup after⟩))
    rw [List.length_append, List.length_cons]
    omega
  · obtain ⟨c', hread', hc', -⟩ := Scan.restOfLine_ok hc
    refine (raises_ofScan hread).caught_bind (gives_ofScan hread' ⟨_, hc', ?_,
      bracketGroups_cons_of_unclosed hopen⟩)
    exact (List.dropWhile_sublist _).length_le

/-- A round moves behind a group. -/
theorem settingsRound_keeps (text : List Char) :
    Keeps settingsRound fun found (c : Cursor text) settings _ =>
      settings = found ++ bracketSettings c.rest := by
  intro found c
  refine gives_get_bind ?_
  by_cases hend : c.atEnd = true
  · have hrest : c.rest = [] := List.drop_eq_nil_of_le (of_decide_eq_true hend)
    rw [if_pos hend]
    refine gives_pure ?_
    show found = found ++ bracketSettings c.rest
    rw [hrest, bracketSettings_eq_nil List.not_mem_nil, List.append_nil]
  rw [if_neg hend]
  refine gives_get_bind ?_
  have hlt : c.pos < text.length := Nat.lt_of_not_le fun hle => hend (decide_eq_true hle)
  by_cases hbracket : '[' ∈ c.rest
  · obtain ⟨before, inside, hrest, hbefore⟩ := List.eq_append_cons_of_mem hbracket
    have hc : c.FollowedBy (before ++ '[' :: inside) := ⟨Nat.le_of_lt hlt, hrest⟩
    rw [indexFrom?_char hc.drop hbefore]
    refine gives_modify_bind ?_
    have hinside : (c.moveTo (c.pos + before.length + 1)).FollowedBy inside := by
      rw [List.append_cons] at hc
      refine hc.advance ?_
      rw [List.length_append, ← Nat.add_assoc]
      rfl
    refine (readGroup_gives hinside).bind ?_
    rintro group c' ⟨after, hc', hlen, hgroup⟩
    refine gives_pure ⟨?_, fun settings _ hsettings => ?_⟩
    · have hlen' := hinside.length
      have hlen'' := hc'.length
      show text.length - c'.pos < text.length - c.pos
      replace hlen' : c.pos + before.length + 1 + inside.length = text.length := hlen'
      omega
    · have hsettings : settings = (found ++ ((group.splitOn ',').map trim).filter fun setting =>
          !setting.isEmpty) ++ bracketSettings c'.rest := hsettings
      show settings = found ++ bracketSettings c.rest
      have hgroups : bracketGroups (before ++ '[' :: inside) = group :: bracketGroups after := by
        rw [bracketGroups_append hbefore, hgroup]
      rw [hsettings, hrest, bracketSettings_of_groups hgroups, hc'.rest_eq, List.append_assoc]
  · rw [indexFrom?_char_eq_none hbracket]
    refine gives_pure ?_
    show found = found ++ bracketSettings c.rest
    rw [bracketSettings_eq_nil hbracket, List.append_nil]

/-- **The search for bracket settings** ends with the settings of the text. -/
theorem settingsLoop_gives (text : List Char) :
    (settingsRound.loop []).Gives (Cursor.startAt text 0) fun settings _ =>
      settings = bracketSettings text :=
  (settingsRound_keeps text).loop [] (Cursor.startAt text 0)

/-! ## Fields -/

/-- The first setting that is a well-formed reference, and the faults of the references before
it. -/
def referenceOf : List (List Char) → Reading text (Option Reference × List ParseFault)
  | [] => return (none, [])
  | setting :: rest => do
    if referenceMark.isPrefixOf setting then
      match ← (within (setting.drop referenceMark.length) (ofScan (scanReference setting))).caught
      with
      | .ok r => return (some r, [])
      | .error fault =>
        let (r, faults) ← referenceOf rest
        return (r, fault :: faults)
    else referenceOf rest

/-- The first word of a line and the others; the line must have one. -/
def firstWord (line : List Char) : Reading text (List Char × List (List Char)) :=
  match words line with
  | [] => throw .noWord
  | name :: rest => return (name, rest)

/-- A field from a line of the given number. -/
def fieldOf (number : Nat) (line : List Char) : Reading text (Field × List Issue) := do
  let (name, rest) ← firstWord line
  let remarks := unwords (rest.drop 1)
  let settings ← within remarks (settingsRound.loop [])
  let (reference, faults) ← referenceOf settings
  let fieldName := String.ofList name
  return ({ name := fieldName
            type := (rest.head?.map String.ofList).getD unknownType
            primary := contains remarks "[primary key]".toList
            required := !contains remarks "nullable".toList || contains remarks "not null".toList
            reference },
    faults.map fun fault => ⟨number, .field fieldName fault⟩)

/-- The fields of the lines of a body that are not blank. -/
def fieldsOf : List (List Char × Nat) → Reading text (List (Field × List Issue))
  | [] => return []
  | (raw, number) :: rest => do
    let line := trim raw
    if line.isEmpty then fieldsOf rest
    else
      let field ← fieldOf number line
      let fields ← fieldsOf rest
      return field :: fields

/-- The faults of references are caught one by one. -/
theorem referenceOf_gives (settings : List (List Char)) (c : Cursor text) :
    (referenceOf settings).Gives c fun read c' => read = firstReference settings ∧ c' = c := by
  induction settings with
  | nil => exact gives_pure ⟨rfl, rfl⟩
  | cons setting rest ih =>
    rw [referenceOf, firstReference]
    by_cases hmark : referenceMark.isPrefixOf setting = true
    · rw [if_pos hmark, if_pos hmark]
      cases hread : scanReference setting
          (Cursor.startAt (setting.drop referenceMark.length) 0) with
      | ok r d =>
        have hsetting : Reference.ofSetting setting = .ok r := by
          unfold Reference.ofSetting
          dsimp only
          rw [hread]
        rw [hsetting]
        refine gives_caught_bind (gives_within (Q := fun b _ => b = r) (gives_ofScan hread rfl) ?_)
        rintro _ _ rfl
        exact gives_pure ⟨rfl, rfl⟩
      | error fault d =>
        have hsetting : Reference.ofSetting setting = .error fault := by
          unfold Reference.ofSetting
          dsimp only
          rw [hread]
        rw [hsetting]
        refine (raises_within (raises_ofScan hread)).caught_bind (ih.bind ?_)
        rintro _ _ ⟨rfl, rfl⟩
        exact gives_pure ⟨rfl, rfl⟩
    · rw [if_neg hmark, if_neg hmark]
      exact ih

/-- A line with a word gives its field. -/
theorem fieldOf_gives {line name : List Char} {rest : List (List Char)} (number : Nat)
    (h : words line = name :: rest) (c : Cursor text) :
    (fieldOf number line).Gives c fun read c' =>
      read = Field.ofWords number name rest ∧ c' = c := by
  have hfirst : (firstWord line).Gives c fun read c' => read = (name, rest) ∧ c' = c := by
    unfold firstWord
    rw [h]
    exact gives_pure ⟨rfl, rfl⟩
  refine hfirst.bind ?_
  rintro _ c ⟨rfl, rfl⟩
  have hsettings := settingsLoop_gives (unwords (rest.drop 1))
  refine (gives_within (P := fun settings d =>
    settings = bracketSettings (unwords (rest.drop 1)) ∧ d = c) hsettings
    fun settings _ hsettings => ⟨hsettings, rfl⟩).bind ?_
  rintro _ c ⟨rfl, rfl⟩
  refine (referenceOf_gives _ c).bind ?_
  rintro _ _ ⟨rfl, rfl⟩
  exact gives_pure ⟨rfl, rfl⟩

/-- **Every line that is not blank has a first word**, so all fields of a body are read. -/
theorem fieldsOf_gives (lines : List (List Char × Nat)) (c : Cursor text) :
    (fieldsOf lines).Gives c fun fields c' =>
      fields = lines.filterMap (fun line => Field.ofLine? line.2 line.1) ∧ c' = c := by
  induction lines with
  | nil => exact gives_pure ⟨rfl, rfl⟩
  | cons line rest ih =>
    obtain ⟨raw, number⟩ := line
    rw [fieldsOf, List.filterMap_cons]
    unfold Field.ofLine?
    dsimp only
    by_cases hblank : (trim raw).isEmpty = true
    · have hwords : words raw = [] := by
        rw [← words_trim, List.isEmpty_iff.1 hblank]
        rfl
      rw [if_pos hblank, hwords]
      exact ih
    · rw [if_neg hblank]
      obtain ⟨x, others, htrim⟩ := List.exists_cons_of_ne_nil (mt List.isEmpty_iff.2 hblank)
      have hx : isBlank x = false := head?_trim raw x (by rw [htrim]; rfl)
      have hne : words (trim raw) ≠ [] :=
        words_ne_nil (by rw [htrim]; exact List.mem_cons_self) hx
      obtain ⟨name, others, hwords⟩ := List.exists_cons_of_ne_nil hne
      refine (fieldOf_gives number hwords c).bind ?_
      rintro _ _ ⟨rfl, rfl⟩
      refine ih.bind ?_
      rintro _ _ ⟨rfl, rfl⟩
      rw [words_trim] at hwords
      rw [hwords]
      exact gives_pure ⟨rfl, rfl⟩

/-! ## The two passes -/

/-- A round of the table pass: the fragment at the next keyword is added. -/
def tablesRound : Round text (List TableFragment) (List TableFragment) := fun found => do
  match ← (keywordRound tableKeyword).loop () with
  | none => return .inr found
  | some start =>
    let line ← lineOf start
    match ← (ofScan scanBlock).caught with
    | .error fault => return .inl (found ++ [.skipped ⟨line, .table fault⟩])
    | .ok (name, bodyLine, body) =>
      let fields ← fieldsOf ((body.splitOn '\n').zipIdx bodyLine)
      let stop := (← get).pos
      return .inl (found ++
        [.block ⟨name, line, fields.map Prod.fst, (start, stop), fields.flatMap Prod.snd⟩])

/-- The relationship behind a reference keyword. -/
def relationshipOf : Reading text Relationship := do
  let expression ← ofScan scanReferenceLine
  within expression (ofScan scanExpression)

/-- A round of the reference pass: the fragment at the next keyword is added, unless it is passed
over. -/
def referencesRound (spans : List (Nat × Nat)) :
    Round text (List ReferenceFragment) (List ReferenceFragment) := fun found => do
  match ← (keywordRound referenceKeyword).loop () with
  | none => return .inr found
  | some start =>
    if !Cursor.atLineStart text start || insideAny spans start then return .inl found
    else
      let line ← lineOf start
      match ← relationshipOf.caught with
      | .ok r => return .inl (found ++ [.relationship r])
      | .error fault => return .inl (found ++ [.skipped ⟨line, .reference fault⟩])

/-- A relationship is read, or a fault that makes the fragment a skipped one. -/
theorem relationshipOf_cases (line : Nat) (c : Cursor text) :
    (∃ r c', relationshipOf.Gives c (fun e d => e = r ∧ d = c') ∧
      referenceFragment line c = (.relationship r, c')) ∨
    ∃ fault c', relationshipOf.Raises c fault c' ∧
      referenceFragment line c = (.skipped ⟨line, .reference fault⟩, c') := by
  unfold referenceFragment Relationship.ofExpression
  cases hread : scanReferenceLine c with
  | error fault c' => exact Or.inr ⟨fault, c', (raises_ofScan hread).bind _, rfl⟩
  | ok expression c' =>
    dsimp only
    cases hsaid : scanExpression (Cursor.startAt expression 0) with
    | ok r d =>
      refine Or.inl ⟨r, c', gives_ofScan_bind hread (gives_within (Q := fun b _ => b = r)
        (gives_ofScan hsaid rfl) fun b _ hb => ⟨hb, rfl⟩), rfl⟩
    | error fault d =>
      exact Or.inr ⟨fault, c', raises_ofScan_bind hread (raises_within (raises_ofScan hsaid)), rfl⟩

/-- A round moves behind a fragment. -/
theorem tablesRound_keeps (text : List Char) :
    Keeps tablesRound fun found (c : Cursor text) fragments _ =>
      fragments = found ++ tableFragments c := by
  intro found c
  refine (keywordLoop_gives (by decide) c).bind ?_
  intro keyword c₁ hfind
  cases keyword with
  | none =>
    refine gives_pure ?_
    show found = found ++ tableFragments c
    rw [tableFragments_of_none hfind.symm, List.append_nil]
  | some start =>
    have hlt := Cursor.findKeyword_remaining_lt (by decide) hfind.symm
    have hnext := tableFragments_of_some hfind.symm
    have hmoves := tableFragment_remaining start (c₁.lineNumber start).1 (c₁.lineNumber start).2
    rw [Cursor.lineNumber_remaining] at hmoves
    refine gives_lineOf_bind ?_
    -- the fragment is added to those found before
    have hadd : ∀ fragment c', tableFragment start (c₁.lineNumber start).1
        (c₁.lineNumber start).2 = (fragment, c') →
        c'.remaining < c.remaining ∧ ∀ fragments (_ : Cursor text),
          fragments = found ++ [fragment] ++ tableFragments c' →
            fragments = found ++ tableFragments c := by
      intro fragment c' hfragment
      rw [hfragment] at hnext hmoves
      refine ⟨Nat.lt_of_le_of_lt hmoves hlt, ?_⟩
      rintro _ _ rfl
      rw [hnext, List.append_assoc]
      rfl
    cases hread : scanBlock (c₁.lineNumber start).2 with
    | error fault c₂ =>
      refine (raises_ofScan hread).caught_bind (gives_pure ?_)
      refine hadd _ c₂ ?_
      rw [tableFragment, hread]
    | ok block c₂ =>
      obtain ⟨name, bodyLine, body⟩ := block
      refine gives_caught_bind (gives_ofScan hread ?_)
      refine (fieldsOf_gives _ c₂).bind ?_
      rintro _ c₂ ⟨rfl, rfl⟩
      refine gives_get_bind (gives_pure ?_)
      refine hadd _ c₂ ?_
      rw [tableFragment, hread]
      rfl

/-- A round moves behind a fragment, or behind a keyword that is passed over. -/
theorem referencesRound_keeps (text : List Char) (spans : List (Nat × Nat)) :
    Keeps (referencesRound spans) fun found (c : Cursor text) fragments _ =>
      fragments = found ++ referenceFragments spans c := by
  intro found c
  refine (keywordLoop_gives (by decide) c).bind ?_
  intro keyword c₁ hfind
  cases keyword with
  | none =>
    refine gives_pure ?_
    show found = found ++ referenceFragments spans c
    rw [referenceFragments_of_none hfind.symm, List.append_nil]
  | some start =>
    have hlt := Cursor.findKeyword_remaining_lt (by decide) hfind.symm
    by_cases hpassed : (!Cursor.atLineStart text start || insideAny spans start) = true
    · dsimp only
      rw [if_pos hpassed]
      rw [Bool.or_eq_true, Bool.not_eq_true'] at hpassed
      refine gives_pure ⟨hlt, ?_⟩
      rintro _ _ rfl
      show found ++ referenceFragments spans c₁ = found ++ referenceFragments spans c
      rw [referenceFragments_of_passed hfind.symm hpassed]
    · dsimp only
      rw [if_neg hpassed]
      rw [Bool.or_eq_true, not_or, Bool.not_eq_true', Bool.not_eq_false, Bool.not_eq_true]
        at hpassed
      have hnext := referenceFragments_of_some hfind.symm hpassed.1 hpassed.2
      have hmoves := referenceFragment_remaining (c₁.lineNumber start).1 (c₁.lineNumber start).2
      rw [Cursor.lineNumber_remaining] at hmoves
      refine gives_lineOf_bind ?_
      -- the fragment is added to those found before
      have hadd : ∀ fragment c', referenceFragment (c₁.lineNumber start).1
          (c₁.lineNumber start).2 = (fragment, c') →
          c'.remaining < c.remaining ∧ ∀ fragments (_ : Cursor text),
            fragments = found ++ [fragment] ++ referenceFragments spans c' →
              fragments = found ++ referenceFragments spans c := by
        intro fragment c' hfragment
        rw [hfragment] at hnext hmoves
        refine ⟨Nat.lt_of_le_of_lt hmoves hlt, ?_⟩
        rintro _ _ rfl
        rw [hnext, List.append_assoc]
        rfl
      rcases relationshipOf_cases (c₁.lineNumber start).1 (c₁.lineNumber start).2 with
        ⟨r, c₂, hgives, hfragment⟩ | ⟨fault, c₂, hraises, hfragment⟩
      · refine gives_caught_bind (hgives.mono ?_)
        rintro _ _ ⟨rfl, rfl⟩
        exact gives_pure (hadd _ _ hfragment)
      · exact hraises.caught_bind (gives_pure (hadd _ _ hfragment))

/-- Reads a document: the table pass, and the reference pass from the start again. -/
def documentOf (text : List Char) : Reading text Document := do
  let fragments ← tablesRound.loop []
  let blocks := fragments.filterMap TableFragment.block?
  set (Cursor.startAt text 0)
  let references ← (referencesRound (blocks.map TableBlock.span)).loop []
  return {
    tables := Document.tablesOf blocks
    relationships := references.filterMap ReferenceFragment.relationship? ++
      blocks.flatMap fun b => b.entity.inlineRelationships
    found := Document.tableIssues [] fragments ++ references.filterMap ReferenceFragment.issue? }

end

namespace Document

open Reading

/-- **Every text is read**: whatever a text holds, the rounds of all loops move the cursor on, and
the reading comes to its end with the document of the text. -/
theorem read_total (text : List Char) :
    (∃ c, documentOf text (Cursor.startAt text 0) = some (.ok (ofText text), c)) ∧
      MovesOn (@keywordRound text tableKeyword) ∧
      MovesOn (@keywordRound text referenceKeyword) ∧
      MovesOn (@tablesRound text) ∧
      (∀ spans, MovesOn (@referencesRound text spans)) ∧
      ∀ remarks, MovesOn (@settingsRound remarks) := by
  refine ⟨?_, (keywordRound_keeps text (by decide)).movesOn,
    (keywordRound_keeps text (by decide)).movesOn, (tablesRound_keeps text).movesOn,
    fun spans => (referencesRound_keeps text spans).movesOn,
    fun remarks => (settingsRound_keeps remarks).movesOn⟩
  have hread : (documentOf text).Gives (Cursor.startAt text 0) fun d _ => d = ofText text := by
    refine ((tablesRound_keeps text).loop [] (Cursor.startAt text 0)).bind ?_
    rintro _ c rfl
    refine gives_set_bind ?_
    refine ((referencesRound_keeps text _).loop [] (Cursor.startAt text 0)).bind ?_
    rintro _ _ rfl
    exact gives_pure rfl
  obtain ⟨d, c, hread, rfl⟩ := hread
  exact ⟨c, hread⟩

end Document

end SchemaDiagram
