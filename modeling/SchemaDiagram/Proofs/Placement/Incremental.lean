/-
# Laying out a schema that grows

A schema whose tables are laid out at once looks as if its tables had been added one after the
other: what stands at the end of a schema moves nothing that stands before it, and a layout that is
taken up again with the positions of its first tables goes on as it did before.  The tables are held
in another order then, the known ones first, but no allocation depends on that.

* `Reordered` : two layouts with the same tables in another order;
* `placeNext_reordered`, `foldlM_reordered` : one placement, and any number of them, from either;
* `layOut_prefix` : the first tables of a schema are laid out as they would be alone;
* `layOut_resumed` : the others are laid out as before when the first ones are known;
* `layOut_append` : both for two schemas, one after the other;
* `layOut_growing` : a schema that grows from edit to edit is laid out as it is at once.
-/
import SchemaDiagram.Proofs.Placement.Frame
import SchemaDiagram.Proofs.Placement.Order
import SchemaDiagram.Proofs.Placement.Safety

namespace SchemaDiagram

/-- The positions of the tables of a layout. -/
def Layout.positions (l : Layout Quantity) : Registry (Point Quantity) :=
  l.tables.filterMap fun _ t => t.position

theorem Layout.get?_positions (l : Layout Quantity) (name : String) :
    l.positions.get? name = (l.tables.get? name).bind Table.position :=
  Registry.get?_filterMap l.tables _ name

/-! ## Layouts in another order -/

/-- Two layouts have the same tables, all at whole positions, perhaps in another order. -/
structure Reordered (l l' : Layout Quantity) : Prop where
  perm : l.tables.entries.Perm l'.tables.entries
  whole : ∀ name t, l.tables.get? name = some t → ∃ q : Point Int, t.position = some (.ofInts q)

namespace Reordered

variable {l l' : Layout Quantity}

theorem get? (h : Reordered l l') (name : String) : l.tables.get? name = l'.tables.get? name :=
  Registry.perm_entries_iff.1 h.perm name

theorem perm_boxes (h : Reordered l l') :
    (boxesOf l.tables.values).Perm (boxesOf l'.tables.values) :=
  (h.perm.map Prod.snd).filterMap Table.box?

theorem wholeBoxes (h : Reordered l l') : WholeBoxes (boxesOf l.tables.values) := by
  refine wholeBoxes_boxesOf fun t ht p hp => ?_
  obtain ⟨name, hname⟩ := (Registry.mem_values_iff _ t).1 ht
  obtain ⟨q, hq⟩ := h.whole name t hname
  exact ⟨q, Option.some.inj (hp.symm.trans hq)⟩

/-- The same table added to both. -/
theorem insert (h : Reordered l l') (name : String) (t : Table Quantity) (p : Point Int)
    (placements placements' : List (String × Placement)) :
    Reordered ⟨l.tables.insert name (t.moveTo (.ofInts p)), placements⟩
      ⟨l'.tables.insert name (t.moveTo (.ofInts p)), placements'⟩ where
  perm := by
    rw [Registry.perm_entries_iff]
    intro other
    rw [Registry.get?_insert, Registry.get?_insert, h.get? other]
  whole := by
    intro other u hu
    rw [Registry.get?_insert] at hu
    split at hu
    · exact ⟨p, by rw [← Option.some.inj hu]; rfl⟩
    · exact h.whole other u hu

end Reordered

variable {c : Config}

/-- **One placement** is the same in layouts with the same tables in another order. -/
theorem placeNext_reordered {l l' r : Layout Quantity} (h : Reordered l l')
    {e : String × Table Quantity} (hstep : placeNext c l e = .ok r) :
    ∃ r', placeNext c l' e = .ok r' ∧ Reordered r r' := by
  rcases placeNext_cases hstep with ⟨hthere, rfl⟩ | ⟨hnew, p, hp, rfl⟩
  · -- the table is there in both
    have hthere' : l'.tables.contains e.1 = true := by
      rw [Registry.contains, ← h.get? e.1]
      exact Option.isSome_iff_ne_none.2 hthere
    refine ⟨l', ?_, h⟩
    rw [placeNext, if_pos hthere']
    rfl
  · have hnew' : ¬l'.tables.contains e.1 = true := by
      rw [Bool.not_eq_true, Registry.contains_eq_false_iff, ← h.get? e.1]
      exact hnew
    rw [Config.allocate_perm h.wholeBoxes h.perm_boxes] at hp
    refine ⟨_, ?_, h.insert e.1 e.2 p.position _ (l'.placements ++ [(e.1, p)])⟩
    rw [placeNext, if_neg hnew']
    exact bind_eq_ok.2 ⟨p, hp, rfl⟩

/-- **Any number of placements** are the same in layouts with the same tables in another order. -/
theorem foldlM_reordered {entries : List (String × Table Quantity)} {l l' r : Layout Quantity}
    (h : Reordered l l') (hfold : entries.foldlM (placeNext c) l = .ok r) :
    ∃ r', entries.foldlM (placeNext c) l' = .ok r' ∧ Reordered r r' := by
  induction entries generalizing l l' with
  | nil =>
    rw [List.foldlM_nil, pure_eq_ok] at hfold
    subst hfold
    exact ⟨l', rfl, h⟩
  | cons e rest ih =>
    rw [List.foldlM_cons, bind_eq_ok] at hfold
    obtain ⟨next, hnext, hrest⟩ := hfold
    obtain ⟨next', hnext', hreordered⟩ := placeNext_reordered h hnext
    obtain ⟨r', hr', hr⟩ := ih hreordered hrest
    refine ⟨r', ?_, hr⟩
    rw [List.foldlM_cons, bind_eq_ok]
    exact ⟨next', hnext', hr'⟩

/-- A table that is there stays as it is when others are placed. -/
theorem foldlM_placeNext_get? {entries : List (String × Table Quantity)} {l r : Layout Quantity}
    (hfold : entries.foldlM (placeNext c) l = .ok r) {name : String} {t : Table Quantity}
    (ht : l.tables.get? name = some t) : r.tables.get? name = some t := by
  refine foldlM_invariant (fun _ done => done.tables.get? name = some t) ?_ ht hfold
  intro before e after done done' _ hdone hstep
  rcases placeNext_cases hstep with ⟨-, rfl⟩ | ⟨hnew, p, -, rfl⟩
  · exact hdone
  · have hne : name ≠ e.1 := by
      rintro rfl
      rw [hnew] at hdone
      exact nomatch hdone
    rw [Registry.get?_insert, if_neg hne]
    exact hdone

/-! ## Layouts that are taken up again -/

section

variable {tables : Registry (Table Quantity)} {positions : Registry (Point Quantity)}
  {l : Layout Quantity}

/-- A layout holds what its placements lead to. -/
theorem get?_of_layOut {done : Layout Quantity}
    (hdone : tables.entries.foldlM (placeNext c) ⟨knownTables tables positions, []⟩ = .ok done)
    (hl : layOut c tables positions = .ok l) (name : String) :
    done.tables.get? name = l.tables.get? name := by
  obtain ⟨done', hdone', hl⟩ := bind_eq_ok.1 hl
  rw [hdone, Except.ok.injEq] at hdone'
  subst hdone'
  rw [← pure_eq_ok.1 hl]
  show _ = (tables.filterMap fun name _ => done.tables.get? name).get? name
  rw [Registry.get?_filterMap]
  cases ht : tables.get? name with
  | some t => rfl
  | none => exact (get?_eq_none_iff_of_run (allocates_of_foldlM hdone) name).2 ht

theorem keys_of_layOut (hl : layOut c tables positions = .ok l) : l.tables.keys = tables.keys := by
  obtain ⟨-, -, -, hkeys, -⟩ := layOut_run hl
  exact hkeys

/-- With the positions of a layout, all its tables are known to be where they are. -/
theorem knownTables_positions (hl : layOut c tables positions = .ok l) :
    knownTables tables l.positions = l.tables := by
  have hget : ∀ name t, tables.get? name = some t →
      (knownTables tables l.positions).get? name = l.tables.get? name := by
    intro name t ht
    obtain ⟨p, hp⟩ := layOut_placed hl ht
    rw [knownTables, Registry.get?_filterMap, ht, Option.bind_some, Layout.get?_positions, hp]
    rfl
  have hall : ∀ name t, tables.get? name = some t →
      ((knownTables tables l.positions).get? name).isSome := by
    intro name t ht
    obtain ⟨p, hp⟩ := layOut_placed hl ht
    rw [hget name t ht, hp, Option.isSome_some]
  have hkeys : (knownTables tables l.positions).keys = tables.keys := by
    refine Registry.keys_filterMap tables _ fun name t ht => ?_
    have hsome := hall name t ht
    rw [knownTables, Registry.get?_filterMap, ht, Option.bind_some] at hsome
    exact hsome
  refine Registry.ext_of_keys (hkeys.trans (keys_of_layOut hl).symm) fun name hname => ?_
  rw [hkeys, Registry.mem_keys_iff] at hname
  obtain ⟨t, ht⟩ := hname
  exact hget name t ht

end

/-! ## Schemas that begin with another one -/

/-- A schema begins with the tables of another one, and nothing is known of where its other tables
are. -/
structure Extends (first all : Registry (Table Quantity)) (positions : Registry (Point Quantity)) :
    Prop where
  starts : first.entries <+: all.entries
  unplaced : ∀ name t, all.get? name = some t → t.position = none
  unknown : ∀ name ∈ all.keys, name ∉ first.keys → positions.get? name = none

namespace Extends

variable {first all : Registry (Table Quantity)} {positions : Registry (Point Quantity)}

theorem keys_eq (h : Extends first all positions) :
    ∃ others, all.keys = first.keys ++ others ∧ ∀ name ∈ others, name ∉ first.keys := by
  obtain ⟨rest, hrest⟩ := h.starts
  have hkeys : all.keys = first.keys ++ rest.map Prod.fst := by
    rw [Registry.keys, ← hrest, List.map_append, Registry.keys]
  have hnodup : all.keys.Nodup := all.nodup_keys
  rw [hkeys, List.nodup_append] at hnodup
  exact ⟨_, hkeys, fun name hname hfirst => hnodup.2.2 name hfirst name hname rfl⟩

/-- The first schema is the part of the whole one that has its names. -/
theorem restrict_eq (h : Extends first all positions) : all.restrict first.keys = first := by
  obtain ⟨others, hkeys, hothers⟩ := h.keys_eq
  refine Registry.ext_of_keys ?_ fun name hname => ?_
  · rw [Registry.keys_restrict, hkeys, List.filter_append, List.filter_eq_self.2 (by simp),
      List.filter_eq_nil_iff.2 (by simpa using hothers), List.append_nil]
  · rw [Registry.keys_restrict, List.mem_filter, decide_eq_true_iff] at hname
    obtain ⟨t, ht⟩ := (Registry.mem_keys_iff first name).1 hname.2
    have hall : all.get? name = some t := by
      rw [← Registry.mem_entries_iff] at ht ⊢
      exact h.starts.subset ht
    rw [Registry.get?_restrict, if_pos hname.2, ht, hall]

theorem get?_first (h : Extends first all positions) (name : String) :
    first.get? name = if name ∈ first.keys then all.get? name else none := by
  rw [← Registry.get?_restrict, h.restrict_eq]

/-- Names that hold for the first tables only select the same of both schemas. -/
theorem filter_keys (h : Extends first all positions) {P : String → Bool}
    (hP : ∀ name, P name = true → name ∈ first.keys) :
    all.keys.filter P = first.keys.filter P := by
  obtain ⟨others, hkeys, hothers⟩ := h.keys_eq
  have hnone : others.filter P = [] :=
    List.filter_eq_nil_iff.2 fun name hname hp => hothers name hname (hP name hp)
  rw [hkeys, List.filter_append, hnone, List.append_nil]

/-- The tables of a schema whose position is known are among the first ones. -/
theorem knownTables_eq (h : Extends first all positions) :
    knownTables all positions = knownTables first positions := by
  have hget : ∀ name, (knownTables all positions).get? name =
      (knownTables first positions).get? name := by
    intro name
    rw [knownTables, knownTables, Registry.get?_filterMap, Registry.get?_filterMap, h.get?_first]
    by_cases hname : name ∈ first.keys
    · rw [if_pos hname]
    · rw [if_neg hname]
      cases ht : all.get? name with
      | none => rfl
      | some t =>
        have hunknown := h.unknown name ((Registry.mem_keys_iff all name).2 ⟨t, ht⟩) hname
        simp [hunknown, h.unplaced name t ht]
  refine Registry.ext_of_keys ?_ fun name _ => hget name
  have hknown : isKnown all positions = isKnown first positions := by
    funext name
    rw [isKnown, isKnown, Registry.contains, Registry.contains, hget]
  rw [keys_knownTables, keys_knownTables, hknown]
  refine h.filter_keys fun name hname => ?_
  obtain ⟨u, hu⟩ := Option.isSome_iff_exists.1 hname
  obtain ⟨t, ht, -⟩ := get?_knownTables hu
  exact (Registry.mem_keys_iff first name).2 ⟨t, ht⟩

/-- The placements of a schema are those of its first tables, and then those of the others. -/
theorem foldlM_eq (h : Extends first all positions) {l : Layout Quantity}
    (hl : layOut c all positions = .ok l) :
    ∃ rest mid done, all.entries = first.entries ++ rest ∧
      first.entries.foldlM (placeNext c) ⟨knownTables first positions, []⟩ = .ok mid ∧
      rest.foldlM (placeNext c) mid = .ok done ∧
      l.tables = all.filterMap fun name _ => done.tables.get? name := by
  obtain ⟨rest, hrest⟩ := h.starts
  obtain ⟨done, hdone, hl⟩ := bind_eq_ok.1 hl
  rw [← hrest, List.foldlM_append, h.knownTables_eq] at hdone
  obtain ⟨mid, hmid, hdone⟩ := bind_eq_ok.1 hdone
  exact ⟨rest, mid, done, hrest.symm, hmid, hdone, by rw [← pure_eq_ok.1 hl]⟩

end Extends

section

variable {first all : Registry (Table Quantity)} {positions : Registry (Point Quantity)}
  {l : Layout Quantity}

/-- **The first tables** of a schema are laid out as they are without the others. -/
theorem layOut_prefix (h : Extends first all positions) (hl : layOut c all positions = .ok l) :
    ∃ l₁, layOut c first positions = .ok l₁ ∧ l₁.tables = l.tables.restrict first.keys := by
  obtain ⟨rest, mid, done, hall, hmid, hdone, htables⟩ := h.foldlM_eq hl
  have hl₁ : layOut c first positions =
      .ok { mid with tables := first.filterMap fun name _ => mid.tables.get? name } :=
    bind_eq_ok.2 ⟨mid, hmid, rfl⟩
  refine ⟨_, hl₁, Registry.ext_of_keys ?_ fun name hname => ?_⟩
  · rw [keys_of_layOut hl₁, Registry.keys_restrict, keys_of_layOut hl, h.filter_keys (by simp),
      List.filter_eq_self.2 (by simp)]
  · rw [keys_of_layOut hl₁] at hname
    obtain ⟨t, ht⟩ := (Registry.mem_keys_iff first name).1 hname
    have hthere := h.get?_first name
    rw [if_pos hname, ht] at hthere
    -- a first table is placed before the others, which leave it where it is
    obtain ⟨p, hp⟩ := layOut_placed hl₁ ht
    rw [← get?_of_layOut hmid hl₁] at hp ⊢
    rw [Registry.get?_restrict, if_pos hname, htables, Registry.get?_filterMap, ← hthere,
      Option.bind_some, hp, foldlM_placeNext_get? hdone hp]

/-- Nothing is known of the other tables either when the first ones are laid out. -/
theorem Extends.positions_of_layOut (h : Extends first all positions) {l₁ : Layout Quantity}
    (hl₁ : layOut c first positions = .ok l₁) : Extends first all l₁.positions where
  starts := h.starts
  unplaced := h.unplaced
  unknown := by
    intro name _ hname
    rw [← keys_of_layOut hl₁, ← Registry.get?_eq_none_iff] at hname
    rw [Layout.get?_positions, hname]
    rfl

/-- **The other tables** of a schema are laid out as before when the layout is taken up again with
the positions of the first ones. -/
theorem layOut_resumed (h : Extends first all positions) (hwhole : WholePositions first positions)
    (hl : layOut c all positions = .ok l) {l₁ : Layout Quantity}
    (hl₁ : layOut c first positions = .ok l₁) :
    ∃ l₂, layOut c all l₁.positions = .ok l₂ ∧ l₂.tables = l.tables := by
  obtain ⟨rest, mid, done, hall, hmid, hdone, htables⟩ := h.foldlM_eq hl
  have hmid₁ := get?_of_layOut hmid hl₁
  have hreordered : Reordered mid ⟨l₁.tables, []⟩ :=
    { perm := Registry.perm_entries_iff.2 hmid₁
      whole := fun name t ht => hwhole.run (allocates_of_foldlM hmid) ht }
  obtain ⟨done', hdone', hsame⟩ := foldlM_reordered hreordered hdone
  -- the first tables are passed over now
  have hstay : first.entries.foldlM (placeNext c) ⟨l₁.tables, []⟩ =
      .ok (⟨l₁.tables, []⟩ : Layout Quantity) := by
    refine foldlM_placeNext_of_contains c fun e he => ?_
    obtain ⟨p, hp⟩ := layOut_placed hl₁ ((Registry.mem_entries_iff first e.1 e.2).1 he)
    rw [Registry.contains, hp]
    rfl
  have hknown : knownTables all l₁.positions = l₁.tables := by
    rw [(h.positions_of_layOut hl₁).knownTables_eq, knownTables_positions hl₁]
  refine ⟨{ done' with tables := all.filterMap fun name _ => done'.tables.get? name }, ?_, ?_⟩
  · refine bind_eq_ok.2 ⟨done', ?_, rfl⟩
    rw [hall, List.foldlM_append, hknown, hstay]
    exact hdone'
  · rw [htables]
    exact congrArg all.filterMap (funext fun name => funext fun _ => (hsame.get? name).symm)

end

/-! ## Two schemas -/

/-- Tables without positions, with whole positions that are given for some of them. -/
theorem wholePositions_of_unplaced {tables : Registry (Table Quantity)}
    {positions : Registry (Point Quantity)}
    (hunplaced : ∀ e ∈ tables.entries, e.2.position = none)
    (hwhole : ∀ e ∈ positions.entries, e.2.IsWhole) : WholePositions tables positions where
  own := by
    intro e he p hp
    rw [hunplaced e he] at hp
    exact nomatch hp
  given := hwhole

/-- A schema that is followed by another one, of which nothing is known. -/
theorem extends_append {first second : Registry (Table Quantity)}
    {positions : Registry (Point Quantity)} (disjoint : ∀ name ∈ second.keys, name ∉ first.keys)
    (hfirst : ∀ e ∈ first.entries, e.2.position = none)
    (hsecond : ∀ e ∈ second.entries, e.2.position = none)
    (hunknown : ∀ name ∈ second.keys, positions.get? name = none) :
    Extends first (first.append second disjoint) positions where
  starts := List.prefix_append _ _
  unplaced := by
    intro name t ht
    rcases List.mem_append.1 ((Registry.mem_entries_iff _ name t).2 ht) with he | he
    · exact hfirst _ he
    · exact hsecond _ he
  unknown := by
    intro name hname hnot
    rw [Registry.keys, Registry.append, List.map_append] at hname
    rcases List.mem_append.1 hname with hmem | hmem
    · exact absurd hmem hnot
    · exact hunknown name hmem

/-- **Tables that follow others** change nothing: the others are laid out as they are without them,
and when all are laid out again with the positions of the others, the layout is the same. -/
theorem layOut_append {first second : Registry (Table Quantity)}
    {positions : Registry (Point Quantity)} {l : Layout Quantity}
    (disjoint : ∀ name ∈ second.keys, name ∉ first.keys)
    (hfirst : ∀ e ∈ first.entries, e.2.position = none)
    (hsecond : ∀ e ∈ second.entries, e.2.position = none)
    (hwhole : ∀ e ∈ positions.entries, e.2.IsWhole)
    (hunknown : ∀ name ∈ second.keys, positions.get? name = none)
    (hl : layOut c (first.append second disjoint) positions = .ok l) :
    ∃ l₁, layOut c first positions = .ok l₁ ∧ l₁.tables = l.tables.restrict first.keys ∧
      ∃ l₂, layOut c (first.append second disjoint) l₁.positions = .ok l₂ ∧
        l₂.tables = l.tables := by
  have h := extends_append disjoint hfirst hsecond hunknown
  obtain ⟨l₁, hl₁, htables⟩ := layOut_prefix h hl
  exact ⟨l₁, hl₁, htables,
    layOut_resumed h (wholePositions_of_unplaced hfirst hwhole) hl hl₁⟩

/-- Two tables, of which the second one will be known, and two more. -/
def grownTables : Registry (Table Quantity) × Registry (Table Quantity) :=
  (.ofList [("a", .unplaced ⟨"a", []⟩), ("b", .unplaced ⟨"b", []⟩)],
    .ofList [("c", .unplaced ⟨"c", []⟩), ("d", .unplaced ⟨"d", []⟩)])

/-- The second table lies where the third one would go, and there is a table that has gone. -/
def grownPositions : Registry (Point Quantity) :=
  .ofList [("b", ⟨.whole 700, .whole 60⟩), ("gone", ⟨.whole (-40), .whole 0⟩)]

theorem disjoint_grownTables : ∀ name ∈ grownTables.2.keys, name ∉ grownTables.1.keys := by
  decide +kernel

/-- All four tables. -/
def allGrownTables : Registry (Table Quantity) :=
  grownTables.1.append grownTables.2 disjoint_grownTables

theorem layOut_append_known :
    (∀ e ∈ grownTables.1.entries, e.2.position = none) ∧
      (∀ e ∈ grownTables.2.entries, e.2.position = none) ∧
      (∀ e ∈ grownPositions.entries, e.2.IsWhole) ∧
      (∀ name ∈ grownTables.2.keys, grownPositions.get? name = none) ∧
      ∃ l, layOut Config.default allGrownTables grownPositions = .ok l ∧
        ∃ l₁, layOut Config.default grownTables.1 grownPositions = .ok l₁ ∧
          l₁.tables = l.tables.restrict grownTables.1.keys ∧
          ∃ l₂, layOut Config.default allGrownTables l₁.positions = .ok l₂ ∧
            l₂.tables = l.tables := by
  have hfirst : ∀ e ∈ grownTables.1.entries, e.2.position = none := by decide +kernel
  have hsecond : ∀ e ∈ grownTables.2.entries, e.2.position = none := by decide +kernel
  have hwhole : ∀ e ∈ grownPositions.entries, e.2.IsWhole := by decide +kernel
  have hunknown : ∀ name ∈ grownTables.2.keys, grownPositions.get? name = none := by
    decide +kernel
  have hok : (layOut Config.default allGrownTables grownPositions).isOk = true := by
    decide +kernel
  obtain ⟨l, hl⟩ := exists_of_isOk hok
  exact ⟨hfirst, hsecond, hwhole, hunknown, l, hl,
    layOut_append disjoint_grownTables hfirst hsecond hwhole hunknown hl⟩

/-! ## From edit to edit -/

/-- Schemas from a first to a last one, each of which begins with the one before it. -/
inductive Grows : (first : Registry (Table Quantity)) → List (Registry (Table Quantity)) →
    (last : Registry (Table Quantity)) → Prop
  | done {last : Registry (Table Quantity)} : Grows last [] last
  | edit {first next last : Registry (Table Quantity)} {more : List (Registry (Table Quantity))}
      (starts : first.entries <+: next.entries) (rest : Grows next more last) :
      Grows first (next :: more) last

theorem Grows.starts_last {first last : Registry (Table Quantity)}
    {schemas : List (Registry (Table Quantity))} (h : Grows first schemas last) :
    first.entries <+: last.entries := by
  induction h with
  | done => exact List.prefix_refl _
  | edit starts rest ih => exact starts.trans ih

/-- Lays out schemas one after the other, each with the positions of the one before it. -/
def layOutEach (c : Config) (l : Layout Quantity) (schemas : List (Registry (Table Quantity))) :
    Except DrawingFault (Layout Quantity) :=
  schemas.foldlM (fun l tables => layOut c tables l.positions) l

/-- Between the first and the last schema there are others that extend and are extended. -/
theorem Extends.between {first next last : Registry (Table Quantity)}
    {positions : Registry (Point Quantity)} (h : Extends first last positions)
    (hnext : first.entries <+: next.entries) (hlast : next.entries <+: last.entries) :
    Extends first next positions ∧ Extends next last positions := by
  have hthere : ∀ name t, next.get? name = some t → last.get? name = some t := by
    intro name t ht
    rw [← Registry.mem_entries_iff] at ht ⊢
    exact hlast.subset ht
  have hsub : next.keys ⊆ last.keys := List.map_subset _ hlast.subset
  have hfirst : first.keys ⊆ next.keys := List.map_subset _ hnext.subset
  constructor
  · exact {
      starts := hnext
      unplaced := fun name t ht => h.unplaced name t (hthere name t ht)
      unknown := fun name hname hnot => h.unknown name (hsub hname) hnot }
  · exact {
      starts := hlast
      unplaced := h.unplaced
      unknown := fun name hname hnot => h.unknown name hname fun hmem => hnot (hfirst hmem) }

/-- **A schema that grows** from edit to edit is laid out in the end as it is at once. -/
theorem layOut_growing {first last : Registry (Table Quantity)}
    {schemas : List (Registry (Table Quantity))} {positions : Registry (Point Quantity)}
    {l l₁ : Layout Quantity} (hgrows : Grows first schemas last)
    (h : Extends first last positions) (hwhole : ∀ e ∈ positions.entries, e.2.IsWhole)
    (hl : layOut c last positions = .ok l) (hl₁ : layOut c first positions = .ok l₁) :
    ∃ l', layOutEach c l₁ schemas = .ok l' ∧ l'.tables = l.tables := by
  -- what comes next depends on the tables so far, however they were laid out
  suffices hgen : ∀ reached : Layout Quantity, reached.tables = l₁.tables →
      ∃ l', layOutEach c reached schemas = .ok l' ∧ l'.tables = l.tables from hgen l₁ rfl
  induction hgrows generalizing l₁ with
  | done =>
    intro reached hreached
    rw [hl, Except.ok.injEq] at hl₁
    exact ⟨reached, rfl, by rw [hreached, hl₁]⟩
  | @edit first next last more starts rest ih =>
    intro reached hreached
    obtain ⟨hnext, hlast⟩ := h.between starts rest.starts_last
    obtain ⟨lnext, hlnext, -⟩ := layOut_prefix hlast hl
    have hunplaced : ∀ e ∈ first.entries, e.2.position = none := fun e he =>
      h.unplaced e.1 e.2 ((Registry.mem_entries_iff _ _ _).1 (h.starts.subset he))
    obtain ⟨l₂, hl₂, htables⟩ :=
      layOut_resumed hnext (wholePositions_of_unplaced hunplaced hwhole) hlnext hl₁
    have hpositions : reached.positions = l₁.positions := by
      rw [Layout.positions, hreached, Layout.positions]
    obtain ⟨l', hl', hsame⟩ := ih hlast hl hlnext l₂ htables
    refine ⟨l', ?_, hsame⟩
    rw [layOutEach, List.foldlM_cons, hpositions, bind_eq_ok]
    exact ⟨l₂, hl₂, hl'⟩

end SchemaDiagram
