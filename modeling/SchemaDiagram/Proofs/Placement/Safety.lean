/-
# Layouts are safe

When all positions that are given are whole, every table that a layout allocates lies between the
limits of the canvas, and is clear at the table spacing of every known table and of every table
allocated before it, unless a warning is told about it.

* `WholePositions` : the positions that are given are whole;
* `AllocatedAfter` : one table is allocated beside another one;
* `SafeLayout` : what is promised of a layout;
* `layOut_safe` : every layout keeps the promise.
-/
import SchemaDiagram.Proofs.Placement.Run
import SchemaDiagram.Proofs.Placement.Search

namespace SchemaDiagram

variable {tables : Registry (Table Quantity)} {positions : Registry (Point Quantity)}

/-- All positions that are given, with the tables or apart from them, are whole. -/
structure WholePositions (tables : Registry (Table Quantity))
    (positions : Registry (Point Quantity)) : Prop where
  own : ∀ e ∈ tables.entries, ∀ p ∈ e.2.position, p.IsWhole
  given : ∀ e ∈ positions.entries, e.2.IsWhole

/-- A new table is allocated when another table has its place: the other one is known, or it is
allocated earlier. -/
def AllocatedAfter (tables : Registry (Table Quantity)) (positions : Registry (Point Quantity))
    (name other : String) : Prop :=
  ∃ before t after, newTables tables positions = before ++ (name, t) :: after ∧
    (other ∉ (newTables tables positions).map Prod.fst ∨ other ∈ before.map Prod.fst)

/-- A warning is told when a table is allocated. -/
def Layout.Warned (l : Layout Quantity) (name : String) : Prop :=
  ∃ p, (name, p) ∈ l.placements ∧ ∃ e ∈ p.log, e.level = .warning

/-- What is promised of the layout of tables with positions. -/
structure SafeLayout (c : Config) (tables : Registry (Table Quantity))
    (positions : Registry (Point Quantity)) (l : Layout Quantity) : Prop where
  /-- The new tables are allocated, and no others. -/
  allocated : l.placements.map Prod.fst = (newTables tables positions).map Prod.fst
  /-- A known table stays where it is. -/
  kept : ∀ name u, (knownTables tables positions).get? name = some u → l.tables.get? name = some u
  /-- A new table has a whole position between the limits. -/
  within : ∀ name t, (name, t) ∈ newTables tables positions → ∃ p, (name, p) ∈ l.placements ∧
    l.tables.get? name = some (t.moveTo (.ofInts p.position)) ∧
    c.Within t.fields.length p.position
  /-- A table that was allocated without a warning is clear of all that had their place. -/
  clear : ∀ name other u v, AllocatedAfter tables positions name other → ¬ l.Warned name →
    l.tables.get? name = some u → l.tables.get? other = some v →
    Table.ClearOf c.metrics c.tableSpacing u v
  /-- Of two tables that overlap, both are known or the one allocated later has a warning. -/
  overlapping : ∀ name other u v, name ≠ other → l.tables.get? name = some u →
    l.tables.get? other = some v → ¬ Table.ClearOf c.metrics c.tableSpacing u v →
    (name ∉ (newTables tables positions).map Prod.fst ∧
        other ∉ (newTables tables positions).map Prod.fst) ∨
      (AllocatedAfter tables positions name other ∧ l.Warned name) ∨
      (AllocatedAfter tables positions other name ∧ l.Warned other)

/-! ## Warnings -/

/-- A warning is told about a placement exactly when it is the last resort. -/
theorem Placement.warning_iff (p : Placement) :
    (∃ e ∈ p.log, e.level = .warning) ↔ p.stage = .lastResort := by
  rw [log]
  cases p.stage <;> simp

/-! ## Whole positions -/

theorem WholePositions.known (h : WholePositions tables positions) {name : String}
    {u : Table Quantity} (hu : (knownTables tables positions).get? name = some u) :
    ∃ q : Point Int, u.position = some (.ofInts q) := by
  obtain ⟨t, ht, ⟨p, hp, rfl⟩ | ⟨-, hplaced, rfl⟩⟩ := get?_knownTables hu
  · obtain ⟨q, rfl⟩ := h.given _ ((Registry.mem_entries_iff positions name p).2 hp)
    exact ⟨q, rfl⟩
  · obtain ⟨p, hp⟩ := Option.isSome_iff_exists.1 hplaced
    obtain ⟨q, rfl⟩ := h.own _ ((Registry.mem_entries_iff tables name _).2 ht) p hp
    exact ⟨q, hp⟩

/-- All tables of a run from whole positions have whole positions. -/
theorem WholePositions.run (h : WholePositions tables positions) {c : Config}
    {news : List (String × Table Quantity)} {done : Layout Quantity}
    (hrun : Allocates c (knownTables tables positions) news done) {name : String}
    {u : Table Quantity} (hu : done.tables.get? name = some u) :
    ∃ q : Point Int, u.position = some (.ofInts q) := by
  cases hknown : (knownTables tables positions).get? name with
  | some v =>
    rw [hrun.get?_known hknown, Option.some.injEq] at hu
    rw [← hu]
    exact h.known hknown
  | none =>
    have hmem : name ∈ news.map Prod.fst := by
      refine Decidable.byContradiction fun hnot => ?_
      rw [(hrun.get?_eq_none_iff name).2 ⟨hknown, hnot⟩] at hu
      exact nomatch hu
    obtain ⟨⟨_, t⟩, he, rfl⟩ := List.mem_map.1 hmem
    obtain ⟨before, after, hnews⟩ := List.append_of_mem he
    obtain ⟨mid, p, -, -, -, hname, -⟩ := hrun.beside hnews
    rw [hname, Option.some.injEq] at hu
    rw [← hu]
    exact ⟨p.position, rfl⟩

/-! ## Clear placements -/

/-- A table of a run that is placed clear of the tables before it is clear of each of them, as
they are in the end. -/
theorem clearOf_of_clear (h : WholePositions tables positions) {c : Config}
    {news : List (String × Table Quantity)} {done : Layout Quantity}
    (hrun : Allocates c (knownTables tables positions) news done) {t : Table Quantity}
    {p : Point Int} (hp : c.Clear t.fields.length (boxesOf done.tables.values) p)
    {other : String} {v : Table Quantity} (hv : done.tables.get? other = some v) :
    Table.ClearOf c.metrics c.tableSpacing (t.moveTo (.ofInts p)) v := by
  obtain ⟨q, hq⟩ := h.run hrun hv
  have hbox := Table.box?_of_position hq
  have hmem : Box.whole ⟨q, v.fields.length⟩ ∈ boxesOf done.tables.values :=
    List.mem_filterMap.2 ⟨v, (Registry.mem_values_iff _ _).2 ⟨other, hv⟩, hbox⟩
  have hapart := Box.overlaps_whole_eq_false_iff.1
    (show Box.overlaps c.metrics (Arithmetic.ofInt (c.layout.tableSpacing : Nat))
      (Box.whole ⟨p, t.fields.length⟩) (Box.whole ⟨q, v.fields.length⟩) = .ok false
      from hp _ hmem)
  exact (Table.clearOf_iff (u := t.moveTo (.ofInts p)) rfl hq).2 hapart

/-- A table that was allocated without a warning is clear of a table that had its place. -/
theorem Allocates.clearOf (h : WholePositions tables positions) {c : Config}
    {done : Layout Quantity}
    (hrun : Allocates c (knownTables tables positions) (newTables tables positions) done)
    {name other : String} {u v : Table Quantity}
    (hafter : AllocatedAfter tables positions name other) (hwarned : ¬ done.Warned name)
    (hu : done.tables.get? name = some u) (hv : done.tables.get? other = some v) :
    Table.ClearOf c.metrics c.tableSpacing u v := by
  obtain ⟨before, t, after, hnews, hother⟩ := hafter
  obtain ⟨mid, p, hmid, hp, hmem, hname, hsame⟩ := hrun.beside hnews
  rw [hname, Option.some.injEq] at hu
  have hnodup := nodup_newTables tables positions
  have hnot : other ∉ ((name, t) :: after).map Prod.fst := by
    rw [hnews, List.map_append] at hnodup hother
    rcases hother with hother | hother
    · exact fun hm => hother (List.mem_append_right _ hm)
    · exact fun hm => (List.nodup_append.1 hnodup).2.2 _ hother _ hm rfl
  rw [hsame other hnot] at hv
  rw [← hu]
  rcases (Config.allocate_spec hp).2 with hlast | hclear
  · exact absurd ⟨p, hmem, (Placement.warning_iff p).2 hlast⟩ hwarned
  · exact clearOf_of_clear h hmid hclear hv

/-- Of two tables of which one is new, one is allocated when the other one has its place. -/
theorem allocatedAfter_or {name other : String} (hne : name ≠ other)
    (hname : name ∈ (newTables tables positions).map Prod.fst) :
    AllocatedAfter tables positions name other ∨ AllocatedAfter tables positions other name := by
  obtain ⟨⟨first, t⟩, he, rfl⟩ := List.mem_map.1 hname
  obtain ⟨before, after, hnews⟩ := List.append_of_mem he
  by_cases hbefore : other ∈ before.map Prod.fst
  · exact Or.inl ⟨before, t, after, hnews, Or.inr hbefore⟩
  · by_cases hnew : other ∈ (newTables tables positions).map Prod.fst
    · -- the other table is new and follows
      rw [hnews, List.map_append, List.mem_append, List.map_cons, List.mem_cons] at hnew
      rcases hnew with hnew | hnew | hnew
      · exact absurd hnew hbefore
      · exact absurd hnew.symm hne
      · obtain ⟨⟨_, t'⟩, he', rfl⟩ := List.mem_map.1 hnew
        obtain ⟨between, rest, hafter⟩ := List.append_of_mem he'
        refine Or.inr ⟨before ++ (first, t) :: between, t', rest, ?_, Or.inr ?_⟩
        · rw [hnews, hafter, List.append_assoc, List.cons_append]
        · rw [List.map_append, List.map_cons]
          exact List.mem_append_right _ List.mem_cons_self
    · exact Or.inl ⟨before, t, after, hnews, Or.inl hnew⟩

/-! ## The promise -/

section

variable {c : Config} {l : Layout Quantity}

/-- A table that was allocated without a warning is clear, in the layout, of a table that had its
place. -/
theorem layOut_clearOf (hwhole : WholePositions tables positions)
    (h : layOut c tables positions = .ok l) {name other : String} {u v : Table Quantity}
    (hafter : AllocatedAfter tables positions name other) (hwarned : ¬ l.Warned name)
    (hu : l.tables.get? name = some u) (hv : l.tables.get? other = some v) :
    Table.ClearOf c.metrics c.tableSpacing u v := by
  obtain ⟨done, hrun, hplacements, -, hget⟩ := layOut_run h
  rw [hget] at hu hv
  rw [Layout.Warned, hplacements] at hwarned
  exact hrun.clearOf hwhole hafter hwarned hu hv

/-- Of two tables of a layout that overlap, both are known or the one that was allocated later has
a warning. -/
theorem layOut_overlapping (hwhole : WholePositions tables positions)
    (h : layOut c tables positions = .ok l) {name other : String} {u v : Table Quantity}
    (hne : name ≠ other) (hu : l.tables.get? name = some u) (hv : l.tables.get? other = some v)
    (hoverlap : ¬ Table.ClearOf c.metrics c.tableSpacing u v) :
    (name ∉ (newTables tables positions).map Prod.fst ∧
        other ∉ (newTables tables positions).map Prod.fst) ∨
      (AllocatedAfter tables positions name other ∧ l.Warned name) ∨
      (AllocatedAfter tables positions other name ∧ l.Warned other) := by
  -- in either order, a table without a warning would be clear of the other one
  have hswap : ¬ Table.ClearOf c.metrics c.tableSpacing v u := fun hc =>
    hoverlap fun a b ha hb => (hc b a hb ha).symm
  have hname : AllocatedAfter tables positions name other → l.Warned name := fun hafter =>
    Classical.byContradiction fun hno => hoverlap (layOut_clearOf hwhole h hafter hno hu hv)
  have hother : AllocatedAfter tables positions other name → l.Warned other := fun hafter =>
    Classical.byContradiction fun hno => hswap (layOut_clearOf hwhole h hafter hno hv hu)
  have hnew : name ∈ (newTables tables positions).map Prod.fst ∨
      other ∈ (newTables tables positions).map Prod.fst →
      AllocatedAfter tables positions name other ∨
        AllocatedAfter tables positions other name := by
    rintro (hn | ho)
    · exact allocatedAfter_or hne hn
    · exact (allocatedAfter_or hne.symm ho).symm
  by_cases hboth : name ∉ (newTables tables positions).map Prod.fst ∧
      other ∉ (newTables tables positions).map Prod.fst
  · exact Or.inl hboth
  · rw [Decidable.not_and_iff_not_or_not, Decidable.not_not, Decidable.not_not] at hboth
    rcases hnew hboth with hafter | hafter
    · exact Or.inr (Or.inl ⟨hafter, hname hafter⟩)
    · exact Or.inr (Or.inr ⟨hafter, hother hafter⟩)

/-- **Every layout** of tables with whole positions is safe. -/
theorem layOut_safe (hwhole : WholePositions tables positions)
    (h : layOut c tables positions = .ok l) : SafeLayout c tables positions l := by
  obtain ⟨done, hrun, hplacements, -, hget⟩ := layOut_run h
  refine {
    allocated := ?_
    kept := ?_
    within := ?_
    clear := fun _ _ _ _ => layOut_clearOf hwhole h
    overlapping := fun _ _ _ _ => layOut_overlapping hwhole h }
  · rw [hplacements, hrun.placements_fst]
  · intro name u hu
    rw [hget]
    exact hrun.get?_known hu
  · intro name t he
    obtain ⟨before, after, hnews⟩ := List.append_of_mem he
    obtain ⟨mid, p, -, hp, hmem, hname, -⟩ := hrun.beside hnews
    exact ⟨p, hplacements ▸ hmem, (hget name).trans hname, (Config.allocate_spec hp).1⟩

end

/-- Three tables, of which the first one is known and lies where the second one would go. -/
def crowdedTables : Registry (Table Quantity) :=
  .ofList [("a", .unplaced ⟨"a", []⟩), ("b", .unplaced ⟨"b", []⟩), ("c", .unplaced ⟨"c", []⟩)]

/-- The position of the first of the three tables. -/
def crowdedPositions : Registry (Point Quantity) := .ofList [("a", ⟨.whole 380, .whole 60⟩)]

theorem layOut_safe_crowded :
    WholePositions crowdedTables crowdedPositions ∧
      ∃ l, layOut Config.default crowdedTables crowdedPositions = .ok l ∧
        SafeLayout Config.default crowdedTables crowdedPositions l := by
  have hwhole : WholePositions crowdedTables crowdedPositions :=
    ⟨by decide +kernel, by decide +kernel⟩
  have hok : (layOut Config.default crowdedTables crowdedPositions).isOk = true := by
    decide +kernel
  refine ⟨hwhole, ?_⟩
  cases h : layOut Config.default crowdedTables crowdedPositions with
  | error fault => rw [h] at hok; exact nomatch hok
  | ok l => exact ⟨l, rfl, layOut_safe hwhole h⟩

end SchemaDiagram
