/-
# Layouts as runs of allocations

A layout starts from the tables whose position is known.  The other tables, the new ones, are
allocated one after another in source order, each beside all known tables and all tables that were
allocated before it.

* `newTables` : the tables that are allocated;
* `Allocates` : the run of allocations that leads to a layout;
* `layOut_run` : every layout is the end of a run;
* `Allocates.beside` : what one table of a run was allocated beside, and that this stays as it was.
-/
import SchemaDiagram.Placement.Layout
import SchemaDiagram.Proofs.Outcome
import SchemaDiagram.Proofs.Registry

namespace SchemaDiagram

variable {α : Type}

/-! ## Known and new tables -/

/-- Whether the position of a table is neither given nor its own. -/
def isNew (positions : Registry (Point α)) (e : String × Table α) : Bool :=
  (positions.get? e.1).isNone && e.2.position.isNone

/-- The tables whose position is not known, in source order. -/
def newTables (tables : Registry (Table α)) (positions : Registry (Point α)) :
    List (String × Table α) :=
  tables.entries.filter (isNew positions)

/-- The new tables have different names. -/
theorem nodup_newTables (tables : Registry (Table α)) (positions : Registry (Point α)) :
    ((newTables tables positions).map Prod.fst).Nodup :=
  tables.nodup_keys.sublist (List.filter_sublist.map Prod.fst)

/-- A new table is one that is not among the known tables. -/
theorem isNew_iff {tables : Registry (Table α)} {positions : Registry (Point α)}
    {e : String × Table α} (he : e ∈ tables.entries) :
    isNew positions e = true ↔ (knownTables tables positions).get? e.1 = none := by
  rw [knownTables, Registry.get?_filterMap, (Registry.mem_entries_iff tables e.1 e.2).1 he,
    Option.bind_some, isNew]
  cases positions.get? e.1 with
  | some p => simp
  | none => cases e.2.position <;> simp

/-- A known table has the position that is given, or else its own. -/
theorem get?_knownTables {tables : Registry (Table α)} {positions : Registry (Point α)}
    {name : String} {u : Table α} (h : (knownTables tables positions).get? name = some u) :
    ∃ t, tables.get? name = some t ∧
      ((∃ p, positions.get? name = some p ∧ u = t.moveTo p) ∨
        (positions.get? name = none ∧ t.position.isSome ∧ u = t)) := by
  rw [knownTables, Registry.get?_filterMap, Option.bind_eq_some_iff] at h
  obtain ⟨t, ht, hu⟩ := h
  refine ⟨t, ht, ?_⟩
  cases hp : positions.get? name with
  | some p =>
    simp only [hp] at hu
    exact Or.inl ⟨p, rfl, (Option.some.inj hu).symm⟩
  | none =>
    simp only [hp] at hu
    split at hu
    · next hplaced => exact Or.inr ⟨rfl, hplaced, (Option.some.inj hu).symm⟩
    · cases hu

/-! ## Runs -/

variable [Arithmetic α]

/-- A run of allocations from known tables: the tables that were allocated, in order, and the
layout that is reached. -/
inductive Allocates (c : Config) (known : Registry (Table α)) :
    List (String × Table α) → Layout α → Prop where
  | start : Allocates c known [] ⟨known, []⟩
  | next {news : List (String × Table α)} {done : Layout α} {name : String} {t : Table α}
      {p : Placement} (run : Allocates c known news done)
      (new : done.tables.get? name = none)
      (allocated : c.allocate t.fields.length (boxesOf done.tables.values) = .ok p) :
      Allocates c known (news ++ [(name, t)])
        ⟨done.tables.insert name (t.moveTo (.ofInts p.position)), done.placements ++ [(name, p)]⟩

namespace Allocates

variable {c : Config} {known : Registry (Table α)} {news : List (String × Table α)}
  {done : Layout α}

/-- A run tells of each allocation, in order. -/
theorem placements_fst (h : Allocates c known news done) :
    done.placements.map Prod.fst = news.map Prod.fst := by
  induction h with
  | start => rfl
  | next run new allocated ih => rw [List.map_append, List.map_append, ih]; rfl

/-- The tables of a run are the known and the allocated ones. -/
theorem get?_eq_none_iff (h : Allocates c known news done) (name : String) :
    done.tables.get? name = none ↔ known.get? name = none ∧ name ∉ news.map Prod.fst := by
  induction h with
  | start => simp
  | @next news done last t p run new allocated ih =>
    rw [Registry.get?_insert, List.map_append, List.mem_append, not_or]
    by_cases hl : name = last
    · simp [hl]
    · rw [if_neg hl, ih]
      simp [hl]

/-- A known table stays as it is. -/
theorem get?_known (h : Allocates c known news done) {name : String} {u : Table α}
    (hu : known.get? name = some u) : done.tables.get? name = some u := by
  induction h with
  | start => exact hu
  | @next news done last t p run new allocated ih =>
    have hne : name ≠ last := by
      rintro rfl
      rw [new] at ih
      exact nomatch ih
    rw [Registry.get?_insert, if_neg hne]
    exact ih

/-- **One allocation of a run**: the table was allocated beside the tables that were there before,
it has the position that was found, and the tables from before are still the same. -/
theorem beside (h : Allocates c known news done) {before after : List (String × Table α)}
    {name : String} {t : Table α} (hnews : news = before ++ (name, t) :: after) :
    ∃ mid p, Allocates c known before mid ∧
      c.allocate t.fields.length (boxesOf mid.tables.values) = .ok p ∧
      (name, p) ∈ done.placements ∧
      done.tables.get? name = some (t.moveTo (.ofInts p.position)) ∧
      ∀ other, other ∉ ((name, t) :: after).map Prod.fst →
        done.tables.get? other = mid.tables.get? other := by
  induction h generalizing after with
  | start => exact absurd hnews (by simp)
  | @next news done last u q run new allocated ih =>
    rcases List.eq_nil_or_concat after with rfl | ⟨after', e, rfl⟩
    · -- the allocation is the last one
      obtain ⟨rfl, hlast⟩ := List.append_singleton_inj.1 hnews
      obtain ⟨rfl, rfl⟩ := Prod.mk.inj hlast
      refine ⟨done, q, run, allocated, List.mem_append_right _ (List.mem_singleton_self _), ?_, ?_⟩
      · rw [Registry.get?_insert, if_pos rfl]
      · intro other hother
        rw [List.map_cons, List.mem_cons, not_or] at hother
        rw [Registry.get?_insert, if_neg hother.1]
    · -- a later allocation is of another name, and leaves the table as it is
      rw [List.concat_eq_append, ← List.cons_append, ← List.append_assoc] at hnews
      obtain ⟨hinit, rfl⟩ := List.append_singleton_inj.1 hnews
      obtain ⟨mid, p, hmid, halloc, hp, hname, hother⟩ := ih hinit
      have hne : name ≠ last := by
        rintro rfl
        rw [new] at hname
        exact nomatch hname
      refine ⟨mid, p, hmid, halloc, List.mem_append_left _ hp, ?_, ?_⟩
      · rw [Registry.get?_insert, if_neg hne, hname]
      · intro other hnot
        rw [List.concat_eq_append, ← List.cons_append, List.map_append, List.mem_append,
          not_or] at hnot
        have hlast : other ≠ last := fun he => hnot.2 (he ▸ List.mem_cons_self)
        rw [Registry.get?_insert, if_neg hlast, hother other hnot.1]

end Allocates

/-! ## Every layout is the end of a run -/

/-- A step of a layout passes over a table that is there, and allocates one that is not. -/
theorem placeNext_cases {c : Config} {done done' : Layout α} {e : String × Table α}
    (h : placeNext c done e = .ok done') :
    (done.tables.get? e.1 ≠ none ∧ done' = done) ∨
      (done.tables.get? e.1 = none ∧ ∃ p,
        c.allocate e.2.fields.length (boxesOf done.tables.values) = .ok p ∧
        done' = ⟨done.tables.insert e.1 (e.2.moveTo (.ofInts p.position)),
          done.placements ++ [(e.1, p)]⟩) := by
  obtain ⟨name, t⟩ := e
  rw [placeNext] at h
  dsimp only at h ⊢
  by_cases hc : done.tables.contains name = true
  · rw [if_pos hc] at h
    refine Or.inl ⟨fun hnone => ?_, (pure_eq_ok.1 h).symm⟩
    rw [← Registry.contains_eq_false_iff, hc] at hnone
    exact nomatch hnone
  · rw [if_neg hc] at h
    obtain ⟨p, hp, h⟩ := bind_eq_ok.1 h
    exact Or.inr ⟨(Registry.contains_eq_false_iff _ _).1 (Bool.eq_false_iff.2 hc), p, hp,
      (pure_eq_ok.1 h).symm⟩

/-- Placing the tables of a registry from the known ones on is a run of its new tables. -/
theorem allocates_of_foldlM {c : Config} {tables : Registry (Table α)}
    {positions : Registry (Point α)} {done : Layout α}
    (h : tables.entries.foldlM (placeNext c) ⟨knownTables tables positions, []⟩ = .ok done) :
    Allocates c (knownTables tables positions) (newTables tables positions) done := by
  refine foldlM_invariant (fun before done => Allocates c (knownTables tables positions)
    (before.filter (isNew positions)) done) ?_ .start h
  intro before e after b b' hentries hb hstep
  have he : e ∈ tables.entries := by rw [hentries]; simp
  have hnodup := tables.nodup_keys
  rw [hentries, List.map_append, List.map_cons] at hnodup
  have hbefore : e.1 ∉ (before.filter (isNew positions)).map Prod.fst := by
    intro hmem
    have hmem' : e.1 ∈ before.map Prod.fst := (List.filter_sublist.map Prod.fst).subset hmem
    exact (List.nodup_append.1 hnodup).2.2 _ hmem' _ List.mem_cons_self rfl
  rw [List.filter_append]
  rcases placeNext_cases hstep with ⟨hthere, rfl⟩ | ⟨hnew, p, hp, rfl⟩
  · -- a name is met once, so a table that is there was known from the beginning
    have hold : ¬ isNew positions e = true := by
      rw [isNew_iff he]
      intro hknown
      exact hthere ((hb.get?_eq_none_iff e.1).2 ⟨hknown, hbefore⟩)
    rw [List.filter_cons_of_neg hold, List.filter_nil, List.append_nil]
    exact hb
  · have hknown := ((hb.get?_eq_none_iff e.1).1 hnew).1
    rw [List.filter_cons_of_pos ((isNew_iff he).2 hknown), List.filter_nil]
    exact .next hb hnew hp

/-- The names of a layout's run are those of the tables. -/
theorem get?_eq_none_iff_of_run {c : Config} {tables : Registry (Table α)}
    {positions : Registry (Point α)} {done : Layout α}
    (h : Allocates c (knownTables tables positions) (newTables tables positions) done)
    (name : String) : done.tables.get? name = none ↔ tables.get? name = none := by
  rw [h.get?_eq_none_iff]
  constructor
  · rintro ⟨hknown, hnews⟩
    rw [Registry.get?_eq_none_iff, Registry.mem_keys_iff]
    rintro ⟨t, ht⟩
    have he := (Registry.mem_entries_iff tables name t).2 ht
    exact hnews (List.mem_map.2 ⟨(name, t), List.mem_filter.2 ⟨he, (isNew_iff he).2 hknown⟩, rfl⟩)
  · intro ht
    refine ⟨?_, fun hmem => ?_⟩
    · rw [knownTables, Registry.get?_filterMap, ht]
      rfl
    · obtain ⟨e, he, rfl⟩ := List.mem_map.1 hmem
      rw [(Registry.mem_entries_iff tables e.1 e.2).1 (List.mem_filter.1 he).1] at ht
      exact nomatch ht

/-- **Every layout** is the end of a run that allocates the new tables in source order, with the
tables in the order of the source. -/
theorem layOut_run {c : Config} {tables : Registry (Table α)} {positions : Registry (Point α)}
    {l : Layout α} (h : layOut c tables positions = .ok l) :
    ∃ done, Allocates c (knownTables tables positions) (newTables tables positions) done ∧
      l.placements = done.placements ∧
      l.tables.keys = tables.keys ∧
      ∀ name, l.tables.get? name = done.tables.get? name := by
  obtain ⟨done, hdone, h⟩ := bind_eq_ok.1 h
  have hl := pure_eq_ok.1 h
  have hrun := allocates_of_foldlM hdone
  refine ⟨done, hrun, by rw [← hl], ?_, ?_⟩
  · rw [← hl]
    refine Registry.keys_filterMap tables _ fun name t ht => ?_
    rw [Option.isSome_iff_ne_none, ne_eq, get?_eq_none_iff_of_run hrun, ht]
    exact Option.some_ne_none t
  · intro name
    rw [← hl]
    show (tables.filterMap fun name _ => done.tables.get? name).get? name = _
    rw [Registry.get?_filterMap]
    cases ht : tables.get? name with
    | some t => rfl
    | none => exact ((get?_eq_none_iff_of_run hrun name).2 ht).symm

/-- A table of a layout is known or new. -/
theorem layOut_known_or_new {c : Config} {tables : Registry (Table α)}
    {positions : Registry (Point α)} {l : Layout α} (h : layOut c tables positions = .ok l)
    {name : String} {u : Table α} (hu : l.tables.get? name = some u) :
    (knownTables tables positions).get? name = some u ∨
      name ∈ (newTables tables positions).map Prod.fst := by
  obtain ⟨done, hrun, -, -, hget⟩ := layOut_run h
  rw [hget] at hu
  by_cases hnew : name ∈ (newTables tables positions).map Prod.fst
  · exact Or.inr hnew
  · refine Or.inl ?_
    cases hknown : (knownTables tables positions).get? name with
    | none =>
      rw [(hrun.get?_eq_none_iff name).2 ⟨hknown, hnew⟩] at hu
      exact nomatch hu
    | some v =>
      rw [hrun.get?_known hknown] at hu
      exact hu

/-- A layout changes nothing but positions. -/
theorem layOut_entity {c : Config} {tables : Registry (Table α)}
    {positions : Registry (Point α)} {l : Layout α} (h : layOut c tables positions = .ok l)
    {name : String} {u : Table α} (hu : l.tables.get? name = some u) :
    ∃ t, tables.get? name = some t ∧ u.toEntity = t.toEntity := by
  rcases layOut_known_or_new h hu with hknown | hnew
  · obtain ⟨t, ht, ⟨p, -, rfl⟩ | ⟨-, -, rfl⟩⟩ := get?_knownTables hknown
    · exact ⟨t, ht, rfl⟩
    · exact ⟨_, ht, rfl⟩
  · obtain ⟨⟨_, t⟩, he, rfl⟩ := List.mem_map.1 hnew
    obtain ⟨done, hrun, -, -, hget⟩ := layOut_run h
    obtain ⟨before, after, hnews⟩ := List.append_of_mem he
    obtain ⟨mid, p, -, -, -, hname, -⟩ := hrun.beside hnews
    rw [hget, hname, Option.some.injEq] at hu
    refine ⟨t, (Registry.mem_entries_iff tables _ t).1 (List.mem_filter.1 he).1, ?_⟩
    rw [← hu]
    rfl

end SchemaDiagram
