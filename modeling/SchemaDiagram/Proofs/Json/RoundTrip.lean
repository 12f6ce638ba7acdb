/-
# Reading written JSON

A value that is written with one item or entry on a line is read back as itself.  The two halves
of the proof meet at the tokens of the value: the text is cut into them, and the machine builds the
value from them.

* `Datum.Plain` : the values that JSON text can hold;
* `Datum.isWritable_list_iff`, `Datum.isWritable_dict_iff` : which of them can be written;
* `Datum.tokens` : the tokens of a value;
* `Datum.Plain.scans_write` : the written value is cut into its tokens;
* `Datum.Plain.builds` : the tokens are built into the value;
* `Datum.ofJson_indented` : the round trip.
-/
import SchemaDiagram.Json.Reader
import SchemaDiagram.Proofs.Json.Scan
import SchemaDiagram.Proofs.Registry

namespace SchemaDiagram

open JsonToken

namespace Datum

/-- A value that JSON text can hold: all its texts are strings, each of its dictionaries has
different names, and there are no moments. -/
inductive Plain : Datum → Prop
  | null : Plain .null
  | bool (b : Bool) : Plain (.bool b)
  | int (n : ℤ) : Plain (.int n)
  | real (x : Binary64) : Plain (.real x)
  | text (s : String) : Plain (.text s)
  | list {items : List Datum} (items_plain : ∀ d ∈ items, Plain d) : Plain (.list items)
  | dict {entries : List (String × Datum)} (nodup : (entries.map Prod.fst).Nodup)
      (values_plain : ∀ e ∈ entries, Plain e.2) :
      Plain (.dict (entries.map fun e => (.ofString e.1, e.2)))

/-! ## Whole numbers -/

theorem itemWholes_eq (items : List Datum) : itemWholes items = items.flatMap wholes := by
  induction items with
  | nil => rw [itemWholes, List.flatMap_nil]
  | cons d rest ih => rw [itemWholes, ih, List.flatMap_cons]

theorem entryWholes_eq (entries : List (LooseText × Datum)) :
    entryWholes entries = entries.flatMap fun e => e.2.wholes := by
  induction entries with
  | nil => rw [entryWholes, List.flatMap_nil]
  | cons e rest ih => rw [entryWholes, ih, List.flatMap_cons]

/-- A list can be written exactly when all its items can. -/
theorem isWritable_list_iff {items : List Datum} :
    (Datum.list items).IsWritable ↔ ∀ d ∈ items, d.IsWritable := by
  rw [IsWritable, wholes, itemWholes_eq, List.forall_mem_flatMap]
  rfl

/-- A dictionary can be written exactly when all its values can. -/
theorem isWritable_dict_iff {entries : List (LooseText × Datum)} :
    (Datum.dict entries).IsWritable ↔ ∀ e ∈ entries, e.2.IsWritable := by
  rw [IsWritable, wholes, entryWholes_eq, List.forall_mem_flatMap]
  rfl

/-! ## Tokens of a value -/

mutual

/-- The tokens of a value. -/
def tokens : Datum → List JsonToken
  | .null => [.scalar .null]
  | .bool b => [.scalar (.bool b)]
  | .int n => [.scalar (.int n)]
  | .real x => [.scalar (.real x)]
  | .text t => [.text t]
  | .moment m => [.text m.literal]
  | .list items => .openList :: (List.intercalate [.comma] (itemTokens items) ++ [.closeList])
  | .dict entries =>
    .openDict :: (List.intercalate [.comma] (entryTokens entries) ++ [.closeDict])

/-- The tokens of the items of a list. -/
def itemTokens : List Datum → List (List JsonToken)
  | [] => []
  | d :: rest => d.tokens :: itemTokens rest

/-- The tokens of the entries of a dictionary. -/
def entryTokens : List (LooseText × Datum) → List (List JsonToken)
  | [] => []
  | (name, d) :: rest => (.text name :: .colon :: d.tokens) :: entryTokens rest

end

theorem itemTokens_eq (items : List Datum) : itemTokens items = items.map tokens := by
  induction items with
  | nil => rw [itemTokens, List.map_nil]
  | cons d rest ih => rw [itemTokens, ih, List.map_cons]

theorem entryTokens_eq (entries : List (LooseText × Datum)) :
    entryTokens entries = entries.map fun e => .text e.1 :: .colon :: e.2.tokens := by
  induction entries with
  | nil => rw [entryTokens, List.map_nil]
  | cons e rest ih => rw [entryTokens, ih, List.map_cons]

/-- The tokens of a value begin with one that does not close a list. -/
theorem tokens_eq_cons (d : Datum) : ∃ t rest, d.tokens = t :: rest ∧ t ≠ .closeList := by
  cases d
  all_goals
    rw [tokens]
    refine ⟨_, _, rfl, ?_⟩
    exact nofun

/-! ## Cutting the text -/

/-- Texts with a separator between them are cut into their tokens with commas between them. -/
theorem scans_intercalate {α : Type} {separator : List Char} {f : α → List Char}
    {g : α → List JsonToken} (hseparator : Scans (fun _ => True) separator [.comma])
    (hends : ∀ rest, EndsNumber (separator ++ rest)) {items : List α}
    (h : ∀ a ∈ items, Scans EndsNumber (f a) (g a)) :
    Scans EndsNumber (List.intercalate separator (items.map f))
      (List.intercalate [.comma] (items.map g)) := by
  induction items with
  | nil => exact Scans.nil
  | cons a rest ih =>
    rw [List.forall_mem_cons] at h
    cases rest with
    | nil =>
      rw [List.map_singleton, List.map_singleton, List.intercalate_singleton,
        List.intercalate_singleton]
      exact h.1
    | cons b rest =>
      rw [List.map_cons, List.map_cons, List.map_cons, List.map_cons, List.intercalate_cons_cons,
        List.intercalate_cons_cons]
      exact (h.1.append hseparator fun rest _ => hends rest).append (ih h.2) fun _ _ => trivial

/-- The start of a line at a depth, as characters. -/
theorem isSpace_newline (n : ℕ) : ∀ c ∈ '\n' :: List.replicate n ' ', isSpace c = true := by
  rw [List.forall_mem_cons]
  refine ⟨rfl, fun c hc => ?_⟩
  rw [List.eq_of_mem_replicate hc]
  rfl

/-- Items in brackets are cut into their tokens between those of the brackets. -/
theorem scans_encloseLines {α : Type} (depth : ℕ) {opening closing : String}
    {first last : JsonToken} {f : α → String} {g : α → List JsonToken} {items : List α}
    (hopening : Scans (fun _ => True) opening.toList [first])
    (hclosing : Scans EndsNumber closing.toList [last])
    (h : ∀ a ∈ items, Scans EndsNumber (f a).toList (g a)) :
    Scans EndsNumber (Json.encloseLines depth opening closing (items.map f)).toList
      (first :: (List.intercalate [.comma] (items.map g) ++ [last])) := by
  have hspaces : ∀ n, Scans (fun _ => True) ('\n' :: List.replicate n ' ') [] := fun n =>
    Scans.spaces (isSpace_newline n)
  cases items with
  | nil =>
    have htext : (Json.encloseLines depth opening closing ([].map f)).toList =
        opening.toList ++ closing.toList := String.toList_append
    rw [htext]
    exact hopening.append hclosing fun _ _ => trivial
  | cons a rest =>
    have htext : (Json.encloseLines depth opening closing ((a :: rest).map f)).toList =
        opening.toList ++ '\n' :: List.replicate (2 * (depth + 1)) ' ' ++
          List.intercalate (',' :: '\n' :: List.replicate (2 * (depth + 1)) ' ')
            ((a :: rest).map fun a => (f a).toList) ++
          '\n' :: List.replicate (2 * depth) ' ' ++ closing.toList := by
      rw [Json.encloseLines, if_neg (by simp)]
      simp only [String.toList_append, String.toList_ofList, String.toList_intercalate,
        List.map_map]
      rfl
    have hcomma : Scans (fun _ => True) [','] [.comma] := Scans.of_read? rfl fun _ _ => rfl
    have hitems : Scans EndsNumber _ (List.intercalate [.comma] ((a :: rest).map g)) :=
      scans_intercalate (hcomma.append (hspaces (2 * (depth + 1))) fun _ _ => trivial)
        (fun rest c hc => by rw [← Option.some.inj hc]; decide) h
    rw [htext]
    have hall := (((hopening.append (hspaces (2 * (depth + 1))) fun _ _ => trivial).append
      hitems fun _ _ => trivial).append (hspaces (2 * depth))
        fun rest _ c hc => by rw [← Option.some.inj hc]; decide).append hclosing fun _ _ => trivial
    simpa only [List.append_nil, List.nil_append, List.cons_append] using hall

theorem writeItems_eq (layout : ℕ → String → String → List String → String) (depth : ℕ)
    (items : List Datum) :
    Json.writeItems layout depth items = items.map (Json.write layout depth) := by
  induction items with
  | nil => rw [Json.writeItems, List.map_nil]
  | cons d rest ih => rw [Json.writeItems, ih, List.map_cons]

theorem writeEntries_eq (layout : ℕ → String → String → List String → String) (depth : ℕ)
    (entries : List (LooseText × Datum)) :
    Json.writeEntries layout depth entries =
      entries.map fun e => Json.quoted e.1 ++ ": " ++ Json.write layout depth e.2 := by
  induction entries with
  | nil => rw [Json.writeEntries, List.map_nil]
  | cons e rest ih => rw [Json.writeEntries, ih, List.map_cons]

/-- **A written value** is cut into its tokens, at any depth. -/
theorem Plain.scans_write {d : Datum} (h : d.Plain) (hwritable : d.IsWritable) (depth : ℕ) :
    Scans EndsNumber (Json.write Json.encloseLines depth d).toList d.tokens := by
  have hmark : ∀ {c : Char} {t : JsonToken} {follows : List Char → Prop}, isSpace c = false →
      (∀ rest, read? c rest = some (t, rest)) → Scans follows [c] [t] := fun hc ht =>
    Scans.of_read? hc fun rest _ => ht rest
  induction h generalizing depth with
  | null =>
    rw [Json.write, tokens]
    exact Scans.word (w := ("null".toList, .null)) (by simp [words])
  | bool b =>
    rw [Json.write, tokens]
    cases b with
    | true => exact Scans.word (w := ("true".toList, .bool true)) (by simp [words])
    | false => exact Scans.word (w := ("false".toList, .bool false)) (by simp [words])
  | int n =>
    rw [Json.write, tokens]
    exact Scans.int (hwritable n (List.mem_singleton_self n))
  | real x =>
    rw [Json.write, tokens]
    exact Scans.real x
  | text s =>
    rw [Json.write, tokens]
    exact Scans.text s
  | list items_plain ih =>
    rw [Json.write, tokens, itemTokens_eq, writeItems_eq]
    exact scans_encloseLines depth (hmark rfl fun _ => rfl) (hmark rfl fun _ => rfl)
      fun d hd => ih d hd (isWritable_list_iff.1 hwritable d hd) (depth + 1)
  | dict nodup values_plain ih =>
    rw [Json.write, tokens, entryTokens_eq, writeEntries_eq, List.map_map, List.map_map]
    refine scans_encloseLines depth (hmark rfl fun _ => rfl) (hmark rfl fun _ => rfl) ?_
    intro e he
    have hvalues := List.forall_mem_map.1 (isWritable_dict_iff.1 hwritable)
    have hname : Scans (fun _ => True) (Json.quoted (.ofString e.1)).toList _ := Scans.text e.1
    have hcolon : Scans (fun _ => True) [':'] [.colon] := hmark rfl fun _ => rfl
    have hspace : Scans (fun _ => True) [' '] [] := Scans.spaces (by simp [isSpace])
    have hentry := ((hname.append hcolon fun _ _ => trivial).append hspace
      fun _ _ => trivial).append (ih e he (hvalues e he) (depth + 1)) fun _ _ => trivial
    have hseparator : ": ".toList = [':'] ++ [' '] := rfl
    show Scans EndsNumber (Json.quoted (.ofString e.1) ++ ": " ++ Json.write _ _ e.2).toList _
    rw [String.toList_append, String.toList_append, hseparator, ← List.append_assoc]
    exact hentry

end Datum

/-! ## Building the value -/

namespace JsonState

/-- The state after some tokens. -/
def run (s : JsonState) (tokens : List JsonToken) : Except JsonFault JsonState :=
  tokens.foldlM step s

theorem run_cons_of_step {s s' : JsonState} {t : JsonToken} (h : s.step t = .ok s')
    (tokens : List JsonToken) : s.run (t :: tokens) = s'.run tokens := by
  rw [run, List.foldlM_cons, h]
  rfl

theorem run_append_of_run {s s' : JsonState} {tokens : List JsonToken} (h : s.run tokens = .ok s')
    (others : List JsonToken) : s.run (tokens ++ others) = s'.run others := by
  rw [run] at h
  rw [run, List.foldlM_append, h]
  rfl

/-- Whether a value is built from its tokens wherever a value may come. -/
def Builds (d : Datum) : Prop := ∀ outer, run (.value outer) d.tokens = .ok (.after d outer)

/-- The items of a list are built one after the other up to its end. -/
theorem run_items {d : Datum} {rest : List Datum} (h : ∀ e ∈ d :: rest, Builds e)
    (items : List Datum) (outer : List JsonFrame) :
    run (.value (.list items :: outer))
        (List.intercalate [.comma] ((d :: rest).map Datum.tokens) ++ [.closeList]) =
      .ok (.after (.list (items.reverse ++ d :: rest)) outer) := by
  induction rest generalizing d items with
  | nil =>
    rw [List.map_singleton, List.intercalate_singleton,
      run_append_of_run (h d List.mem_cons_self _), ← List.reverse_cons]
    rfl
  | cons e rest ih =>
    rw [List.forall_mem_cons] at h
    have hcomma : step (.after d (.list items :: outer)) .comma =
        .ok (.value (.list (d :: items) :: outer)) := rfl
    rw [List.map_cons, List.map_cons, List.intercalate_cons_cons, List.append_assoc,
      List.append_assoc, run_append_of_run (h.1 _), List.singleton_append, run_cons_of_step hcomma,
      ← List.map_cons, ih h.2, List.reverse_cons, List.append_assoc]
    rfl

/-- An entry with a new name goes to the end. -/
theorem put_of_nodup {e : LooseText × Datum} {entries rest : List (LooseText × Datum)}
    (hnodup : ((entries ++ e :: rest).map Prod.fst).Nodup) :
    Registry.put e.1 e.2 entries = entries ++ [e] := by
  refine Registry.put_of_not_mem e.1 e.2 entries fun hmem => ?_
  rw [List.map_append, List.nodup_append] at hnodup
  exact hnodup.2.2 _ hmem _ List.mem_cons_self rfl

/-- The entries of a dictionary are built one after the other up to its end. -/
theorem run_entries {e : LooseText × Datum} {rest : List (LooseText × Datum)}
    (h : ∀ e' ∈ e :: rest, Builds e'.2) (entries : List (LooseText × Datum))
    (hnodup : ((entries ++ e :: rest).map Prod.fst).Nodup) (outer : List JsonFrame) :
    run (.name entries outer)
        (List.intercalate [.comma]
          ((e :: rest).map fun e => .text e.1 :: .colon :: e.2.tokens) ++ [.closeDict]) =
      .ok (.after (.dict (entries ++ e :: rest)) outer) := by
  induction rest generalizing e entries with
  | nil =>
    rw [List.map_singleton, List.intercalate_singleton]
    show run (.value (.dict entries e.1 :: outer)) (e.2.tokens ++ [.closeDict]) = _
    rw [run_append_of_run (h e List.mem_cons_self _)]
    show Except.ok (after (.dict (Registry.put e.1 e.2 entries)) outer) = _
    rw [put_of_nodup hnodup]
  | cons e' rest ih =>
    rw [List.forall_mem_cons] at h
    rw [List.map_cons, List.map_cons, List.intercalate_cons_cons, List.append_assoc,
      List.append_assoc]
    show run (.value (.dict entries e.1 :: outer)) (e.2.tokens ++ _) = _
    have hcomma : step (.after e.2 (.dict entries e.1 :: outer)) .comma =
        .ok (.name (Registry.put e.1 e.2 entries) outer) := rfl
    rw [run_append_of_run (h.1 _), List.singleton_append, run_cons_of_step hcomma]
    have hsplit : entries ++ e :: e' :: rest = (entries ++ [e]) ++ e' :: rest := by
      rw [List.append_assoc]
      rfl
    rw [put_of_nodup hnodup, hsplit]
    rw [hsplit] at hnodup
    exact ih h.2 (entries ++ [e]) hnodup

/-- The first item of a list is built as any other one. -/
theorem run_firstItem {t : JsonToken} (h : t ≠ .closeList) (tokens : List JsonToken)
    (outer : List JsonFrame) :
    run (.firstItem outer) (t :: tokens) = run (.value (.list [] :: outer)) (t :: tokens) := by
  cases t with
  | closeList => exact absurd rfl h
  | openList | openDict | closeDict | comma | colon | text | scalar | tooLong | junk => rfl

/-- The first name of a dictionary is read as any other one. -/
theorem run_firstName (s : LooseText) (tokens : List JsonToken) (outer : List JsonFrame) :
    run (.firstName outer) (.text s :: tokens) = run (.name [] outer) (.text s :: tokens) := rfl

end JsonState

/-- **The tokens** of a plain value are built into it, wherever a value may come. -/
theorem Datum.Plain.builds {d : Datum} (h : d.Plain) : JsonState.Builds d := by
  induction h with
  | null => exact fun outer => rfl
  | bool b => exact fun outer => rfl
  | int n => exact fun outer => rfl
  | real x => exact fun outer => rfl
  | text s => exact fun outer => rfl
  | @list items items_plain ih =>
    intro outer
    rw [tokens, itemTokens_eq]
    -- behind the bracket the list may end, unlike behind a comma
    show JsonState.run (.firstItem outer) _ = _
    cases items with
    | nil => rfl
    | cons d rest =>
      have hitems := JsonState.run_items ih [] outer
      obtain ⟨t, tokens, ht, hne⟩ := tokens_eq_cons d
      rw [List.map_cons, ht, List.intercalate_cons_cons_left, List.cons_append] at hitems ⊢
      rw [JsonState.run_firstItem hne, hitems]
      rfl
  | @dict entries nodup values_plain ih =>
    intro outer
    rw [tokens, entryTokens_eq]
    show JsonState.run (.firstName outer) _ = _
    have hnames : ((entries.map fun e => (LooseText.ofString e.1, e.2)).map Prod.fst).Nodup := by
      have hstrings := nodup.map LooseText.ofString_injective
      rw [List.map_map] at hstrings ⊢
      exact hstrings
    have hvalues : ∀ e ∈ entries.map fun e => (LooseText.ofString e.1, e.2),
        JsonState.Builds e.2 := List.forall_mem_map.2 ih
    cases hentries : entries.map fun e => (LooseText.ofString e.1, e.2) with
    | nil => rfl
    | cons e rest =>
      rw [hentries] at hnames hvalues
      have hread := JsonState.run_entries hvalues [] hnames outer
      rw [List.map_cons, List.intercalate_cons_cons_left, List.cons_append] at hread ⊢
      rw [JsonState.run_firstName, hread]
      rfl

/-- **A plain value** is written as JSON text if it can be, and read back as itself. -/
theorem Datum.ofJson_indented {d : Datum} (h : d.Plain) (hwritable : d.IsWritable) :
    ∃ text, Json.indented d = .ok text ∧ Datum.ofJson text.toList = .ok d := by
  refine ⟨Json.write Json.encloseLines 0 d, if_pos hwritable, ?_⟩
  have hends : EndsNumber [] := nofun
  have hscan := h.scans_write hwritable 0 [] hends
  have hbuild : d.tokens.foldlM JsonState.step (.value []) = .ok (.after d []) := h.builds []
  have hempty : ofText [] = [] := by rw [ofText]
  rw [List.append_nil, hempty, List.append_nil] at hscan
  rw [ofJson, hscan, ofJsonTokens, hbuild]
  rfl

end SchemaDiagram
