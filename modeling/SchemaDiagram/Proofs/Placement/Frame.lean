/-
# What each table of a layout is placed beside

A layout keeps the tables, their order and their known positions.  Every other table is allocated
beside all known tables, wherever they stand in the source, and the other tables before it; and
all of these are already where they are in the end.

* `Allocates.keys_tables` : in which order a run enters the tables;
* `layOut_placed` : every table has a position;
* `layOut_kept` : a table whose position is known has it;
* `layOut_allocated` : what every other table was allocated beside;
* `layOut_of_given` : when all positions are given, the layout cannot fail;
* `layOut_again` : tables that are laid out again where they already are stay there.
-/
import SchemaDiagram.Proofs.Placement.Run

namespace SchemaDiagram

variable {α : Type}

/-! ## Known tables -/

/-- Whether the position of the table of a name is known. -/
def isKnown (tables : Registry (Table α)) (positions : Registry (Point α)) (name : String) : Bool :=
  (knownTables tables positions).contains name

theorem isKnown_eq_false_iff {tables : Registry (Table α)} {positions : Registry (Point α)}
    {name : String} :
    isKnown tables positions name = false ↔ (knownTables tables positions).get? name = none :=
  Registry.contains_eq_false_iff _ _

/-- The known tables stand in source order. -/
theorem keys_knownTables (tables : Registry (Table α)) (positions : Registry (Point α)) :
    (knownTables tables positions).keys = tables.keys.filter (isKnown tables positions) :=
  Registry.keys_filterMap_eq_filter tables _

/-- The new tables among some of the tables are those whose position is not known. -/
theorem map_fst_filter_isNew {tables : Registry (Table α)} {positions : Registry (Point α)}
    {entries : List (String × Table α)} (h : entries ⊆ tables.entries) :
    (entries.filter (isNew positions)).map Prod.fst =
      (entries.map Prod.fst).filter fun name => !isKnown tables positions name := by
  rw [List.filter_map, Function.comp_def]
  refine congrArg _ (List.filter_congr fun e he => ?_)
  rw [Bool.eq_iff_iff, isNew_iff (h he), Bool.not_eq_true', isKnown_eq_false_iff]

/-! ## Runs -/

variable [Arithmetic α]

/-- A run enters the allocated tables behind the known ones. -/
theorem Allocates.keys_tables {c : Config} {known : Registry (Table α)}
    {news : List (String × Table α)} {done : Layout α} (h : Allocates c known news done) :
    done.tables.keys = known.keys ++ news.map Prod.fst := by
  induction h with
  | start => exact (List.append_nil _).symm
  | @next news done name t p run new allocated ih =>
    rw [Registry.keys_insert, if_neg ((Registry.get?_eq_none_iff _ _).1 new), ih, List.map_append,
      List.append_assoc]
    rfl

/-! ## Layouts -/

section

variable {c : Config} {tables : Registry (Table α)} {positions : Registry (Point α)} {l : Layout α}

/-- Every table of a layout is the one of its name, at a position. -/
theorem layOut_placed (h : layOut c tables positions = .ok l) {name : String} {t : Table α}
    (ht : tables.get? name = some t) :
    ∃ p, l.tables.get? name = some (t.moveTo p) := by
  obtain ⟨done, hrun, -, -, hget⟩ := layOut_run h
  rw [hget]
  cases hknown : (knownTables tables positions).get? name with
  | some u =>
    rw [hrun.get?_known hknown]
    obtain ⟨t', ht', hu⟩ := get?_knownTables hknown
    rw [ht, Option.some.injEq] at ht'
    subst ht'
    rcases hu with ⟨p, -, rfl⟩ | ⟨-, hplaced, rfl⟩
    · exact ⟨p, rfl⟩
    · obtain ⟨p, hp⟩ := Option.isSome_iff_exists.1 hplaced
      exact ⟨p, by rw [Table.moveTo, ← hp]⟩
  | none =>
    have he := (Registry.mem_entries_iff tables name t).2 ht
    obtain ⟨before, after, hnews⟩ :=
      List.append_of_mem (List.mem_filter.2 ⟨he, (isNew_iff he).2 hknown⟩)
    obtain ⟨mid, p, -, -, -, hname, -⟩ := hrun.beside hnews
    exact ⟨_, hname⟩

/-- A table whose position is given is there. -/
theorem layOut_kept (h : layOut c tables positions = .ok l) {name : String} {t : Table α}
    {p : Point α} (ht : tables.get? name = some t) (hp : positions.get? name = some p) :
    l.tables.get? name = some (t.moveTo p) := by
  obtain ⟨done, hrun, -, -, hget⟩ := layOut_run h
  rw [hget]
  refine hrun.get?_known ?_
  rw [knownTables, Registry.get?_filterMap, ht, Option.bind_some]
  simp only [hp]

/-- **A table whose position is not known** is allocated beside all known tables and the other
tables before it, at the positions that they have in the layout. -/
theorem layOut_allocated (h : layOut c tables positions = .ok l) {before after : List String}
    {name : String} (hkeys : tables.keys = before ++ name :: after)
    (hnew : isKnown tables positions name = false) :
    ∃ t p, tables.get? name = some t ∧
      c.allocate t.fields.length (boxesOf
        ((tables.keys.filter (isKnown tables positions) ++
          before.filter fun other => !isKnown tables positions other).filterMap l.tables.get?)) =
        .ok p ∧
      l.tables.get? name = some (t.moveTo (.ofInts p.position)) := by
  obtain ⟨done, hrun, -, -, hget⟩ := layOut_run h
  obtain ⟨entries, rest, hentries, hbefore, hrest⟩ := List.map_eq_append_iff.1 hkeys
  obtain ⟨⟨first, t⟩, later, rfl, hfirst, -⟩ := List.map_eq_cons_iff.1 hrest
  obtain rfl : first = name := hfirst
  have ht : (first, t) ∈ tables.entries := by simp [hentries]
  have hnews : newTables tables positions = entries.filter (isNew positions) ++
      (first, t) :: later.filter (isNew positions) := by
    rw [newTables, hentries, List.filter_append,
      List.filter_cons_of_pos ((isNew_iff ht).2 (isKnown_eq_false_iff.1 hnew))]
  obtain ⟨mid, p, hmid, hp, -, hname, hsame⟩ := hrun.beside hnews
  have hmidKeys : mid.tables.keys = tables.keys.filter (isKnown tables positions) ++
      before.filter fun other => !isKnown tables positions other := by
    have hsub : entries ⊆ tables.entries := by simp [hentries]
    rw [hmid.keys_tables, keys_knownTables, map_fst_filter_isNew hsub, hbefore]
  refine ⟨t, p, (Registry.mem_entries_iff tables first t).1 ht, ?_, by rw [hget, hname]⟩
  rw [← hp, Registry.values_eq_filterMap_keys mid.tables, hmidKeys]
  refine congrArg (fun placed => c.allocate _ (boxesOf placed)) (List.filterMap_congr ?_)
  intro other hother
  rw [hget]
  -- the names of the run up to here and those that follow are different
  have hdone : done.tables.keys =
      mid.tables.keys ++ ((first, t) :: later.filter (isNew positions)).map Prod.fst := by
    rw [hrun.keys_tables, hmid.keys_tables, hnews, List.map_append, List.append_assoc]
  have hnodup : done.tables.keys.Nodup := done.tables.nodup_keys
  rw [hdone, hmidKeys] at hnodup
  exact hsame other fun hlater => (List.nodup_append.1 hnodup).2.2 _ hother _ hlater rfl

/-- Placing tables that are all there changes nothing. -/
theorem foldlM_placeNext_of_contains (c : Config) {done : Layout α}
    {entries : List (String × Table α)}
    (h : ∀ e ∈ entries, done.tables.contains e.1 = true) :
    entries.foldlM (placeNext c) done = .ok done := by
  induction entries with
  | nil => rfl
  | cons e rest ih =>
    have hstep : placeNext c done e = .ok done := by
      rw [placeNext, if_pos (h e List.mem_cons_self)]
      rfl
    rw [List.foldlM_cons, hstep]
    exact ih fun e' he' => h e' (List.mem_cons_of_mem e he')

/-- When all positions are given, nothing is allocated, so the layout cannot fail. -/
theorem layOut_of_given (c : Config) {tables : Registry (Table α)} {positions : Registry (Point α)}
    (h : ∀ name t, tables.get? name = some t → ∃ p, positions.get? name = some p) :
    ∃ l, layOut c tables positions = .ok l := by
  have hthere : ∀ e ∈ tables.entries, (knownTables tables positions).contains e.1 = true := by
    intro e he
    have ht := (Registry.mem_entries_iff tables e.1 e.2).1 he
    obtain ⟨p, hp⟩ := h e.1 e.2 ht
    rw [Registry.contains, knownTables, Registry.get?_filterMap, ht, Option.bind_some]
    simp only [hp]
    rfl
  exact ⟨_, bind_eq_ok.2 ⟨_, foldlM_placeNext_of_contains c hthere, rfl⟩⟩

/-- **Tables** that are laid out again where they are in a layout are all there. -/
theorem layOut_again (h : layOut c tables positions = .ok l) {positions' : Registry (Point α)}
    (hthere : ∀ name t, l.tables.get? name = some t → positions'.get? name = t.position) :
    ∃ l', layOut c tables positions' = .ok l' ∧ l'.tables = l.tables := by
  have hgiven : ∀ name t, tables.get? name = some t →
      ∃ p, positions'.get? name = some p ∧ l.tables.get? name = some (t.moveTo p) := by
    intro name t ht
    obtain ⟨p, hp⟩ := layOut_placed h ht
    exact ⟨p, hthere name _ hp, hp⟩
  obtain ⟨l', hl'⟩ := layOut_of_given c fun name t ht => (hgiven name t ht).imp fun _ hp => hp.1
  obtain ⟨-, -, -, hkeys, -⟩ := layOut_run h
  obtain ⟨-, -, -, hkeys', -⟩ := layOut_run hl'
  refine ⟨l', hl', Registry.ext_of_keys (hkeys'.trans hkeys.symm) fun name hname => ?_⟩
  rw [hkeys', Registry.mem_keys_iff] at hname
  obtain ⟨t, ht⟩ := hname
  obtain ⟨p, hp, hl⟩ := hgiven name t ht
  rw [layOut_kept hl' ht hp, hl]

end

end SchemaDiagram
