/-
# Tables in rows

Tables that all have the same number of fields are laid out row by row, each at the grid point
nearest to its slot, as long as the canvas has room for these points.  Rounding moves two slots
towards each other by a grid step at most, and slots are twice the table spacing apart: so the first
candidate for every table is clear when a grid step is not wider than the spacing.

* `Config.rowPoint` : the grid point nearest to a slot;
* `Config.apart_rowBox` : the boxes at two of these points keep the table spacing;
* `Config.allocate_row` : the placement of a table beside those before it;
* `foldlM_placeNext_rows` : the tables placed so far, by induction;
* `layOut_rows` : the layout, on exact coordinates and on those that a program computes with.
-/
import SchemaDiagram.Proofs.Canvas.Clearance
import SchemaDiagram.Proofs.Canvas.Nearest
import SchemaDiagram.Proofs.Placement.Run

namespace SchemaDiagram

instance : ExactOnWhole ℚ where
  add := fun _ _ => congrArg Except.ok (Int.cast_add _ _).symm
  lt := fun _ _ => decide_eq_decide.2 Int.cast_lt

namespace Config

variable {c : Config} {fieldCount : ℕ}

/-! ## Grid points in rows -/

/-- The multiple of the grid size nearest to a whole coordinate. -/
def onGrid (c : Config) (a : ℤ) : ℤ := nearestInt ((a : ℚ) / c.layout.gridSize) * c.layout.gridSize

/-- The grid point nearest to a slot. -/
def rowPoint (c : Config) (fieldCount index : ℕ) : Point ℤ :=
  (c.slot fieldCount index).map c.onGrid

/-- The box of a table at the grid point nearest to a slot. -/
def rowBox (c : Config) (fieldCount index : ℕ) : Box ℤ := ⟨c.rowPoint fieldCount index, fieldCount⟩

/-- Rounding brings two coordinates closer by one grid step at most. -/
theorem onGrid_gap (c : Config) {a b d : ℤ} (h : a + d ≤ b) :
    c.onGrid a + d ≤ c.onGrid b + c.layout.gridSize := by
  have ha := (abs_le.1 (abs_nearestInt_mul_sub_le c.layout.gridSize_pos a)).2
  have hb := (abs_le.1 (abs_nearestInt_mul_sub_le c.layout.gridSize_pos b)).1
  have hgap : (a : ℚ) + d ≤ b := by exact_mod_cast h
  have hrounded : (c.onGrid a : ℚ) + d ≤ c.onGrid b + (c.layout.gridSize : ℤ) := by
    rw [onGrid, onGrid, Int.cast_natCast]
    linarith
  exact_mod_cast hrounded

/-- A multiple of a pitch that is farther on is farther by the pitch. -/
theorem mul_pitch_gap {i j pitch : ℕ} (start : ℤ) (h : i < j) :
    start + i * pitch + pitch ≤ start + j * pitch := by
  have hstep : ((i + 1) * pitch : ℕ) ≤ (j * pitch : ℕ) := Nat.mul_le_mul_right pitch h
  have hstep : (((i + 1) * pitch : ℕ) : ℤ) ≤ (j * pitch : ℕ) := by exact_mod_cast hstep
  push_cast at hstep
  linarith

/-- Tables in different columns keep the spacing, in whichever order these come. -/
theorem apart_of_column_lt (hspacing : c.layout.gridSize ≤ c.layout.tableSpacing) {i j : ℕ}
    (h : i % c.layout.columns < j % c.layout.columns) :
    Box.Apart c.metrics c.layout.tableSpacing (c.rowBox fieldCount i) (c.rowBox fieldCount j) := by
  have hslot : (c.slot fieldCount i).x + c.columnPitch ≤ (c.slot fieldCount j).x :=
    mul_pitch_gap c.bounds.anchor.x h
  have hgap := onGrid_gap c hslot
  refine Or.inr (Or.inl ?_)
  show c.onGrid (c.slot fieldCount i).x + c.metrics.width + c.layout.tableSpacing ≤
    c.onGrid (c.slot fieldCount j).x
  simp only [columnPitch] at hgap
  omega

/-- Tables in different rows keep the spacing. -/
theorem apart_of_row_lt (hspacing : c.layout.gridSize ≤ c.layout.tableSpacing) {i j : ℕ}
    (h : i / c.layout.columns < j / c.layout.columns) :
    Box.Apart c.metrics c.layout.tableSpacing (c.rowBox fieldCount i) (c.rowBox fieldCount j) := by
  have hslot : (c.slot fieldCount i).y + c.rowPitch fieldCount ≤ (c.slot fieldCount j).y :=
    mul_pitch_gap c.bounds.anchor.y h
  have hgap := onGrid_gap c hslot
  refine Or.inr (Or.inr (Or.inr ?_))
  show c.onGrid (c.slot fieldCount i).y + c.metrics.tableHeight fieldCount + c.layout.tableSpacing ≤
    c.onGrid (c.slot fieldCount j).y
  simp only [rowPitch] at hgap
  omega

/-- **Two tables in rows** keep the spacing. -/
theorem apart_rowBox (hspacing : c.layout.gridSize ≤ c.layout.tableSpacing) {i j : ℕ} (h : i ≠ j) :
    Box.Apart c.metrics c.layout.tableSpacing (c.rowBox fieldCount i) (c.rowBox fieldCount j) := by
  rcases lt_trichotomy (i % c.layout.columns) (j % c.layout.columns) with hlt | heq | hgt
  · exact apart_of_column_lt hspacing hlt
  · -- in one column, the rows differ
    have hrows : i / c.layout.columns ≠ j / c.layout.columns := by
      intro hrow
      refine h ?_
      rw [← Nat.div_add_mod i c.layout.columns, ← Nat.div_add_mod j c.layout.columns, hrow, heq]
    rcases lt_or_gt_of_ne hrows with hlt | hgt
    · exact apart_of_row_lt hspacing hlt
    · exact (apart_of_row_lt hspacing hgt).symm
  · exact (apart_of_column_lt hspacing hgt).symm

/-! ## One table -/

/-- A position between the limits, which are the right way round then. -/
structure Inside (c : Config) (fieldCount : ℕ) (p : Point ℤ) : Prop where
  left : c.bounds.anchor.x ≤ p.x
  right : p.x ≤ (c.farLimit fieldCount).x
  top : c.bounds.anchor.y ≤ p.y
  bottom : p.y ≤ (c.farLimit fieldCount).y

instance (fieldCount : ℕ) (p : Point ℤ) : Decidable (c.Inside fieldCount p) :=
  decidable_of_iff (c.bounds.anchor.x ≤ p.x ∧ p.x ≤ (c.farLimit fieldCount).x ∧
    c.bounds.anchor.y ≤ p.y ∧ p.y ≤ (c.farLimit fieldCount).y)
    ⟨fun h => ⟨h.1, h.2.1, h.2.2.1, h.2.2.2⟩, fun h => ⟨h.left, h.right, h.top, h.bottom⟩⟩

/-- The quotients of a whole position by the grid size are rounded as if they were exact. -/
structure ExactAt (c : Config) (α : Type) [Arithmetic α] (p : Point ℤ) : Prop where
  x : Arithmetic.nearestQuotient (Arithmetic.ofInt p.x : α) c.layout.gridSize =
    .ok (nearestInt (p.x / c.layout.gridSize))
  y : Arithmetic.nearestQuotient (Arithmetic.ofInt p.y : α) c.layout.gridSize =
    .ok (nearestInt (p.y / c.layout.gridSize))

theorem exactAt_rat (c : Config) (p : Point ℤ) : c.ExactAt ℚ p := ⟨rfl, rfl⟩

/-- Below `2 ^ 52` the quotients that a program computes are as if exact. -/
theorem exactAt_quantity {p : Point ℤ} (hx : |p.x| < 2 ^ 52) (hy : |p.y| < 2 ^ 52) :
    c.ExactAt Quantity p :=
  ⟨Quantity.nearestQuotient_whole c.layout.gridSize_pos hx,
    Quantity.nearestQuotient_whole c.layout.gridSize_pos hy⟩

/-- The placement of a table in rows: the first one goes to the anchor. -/
def rowPlacement (c : Config) (fieldCount index : ℕ) : Placement :=
  ⟨c.rowPoint fieldCount index, if index = 0 then .anchor else .grid, index⟩

section

variable {α : Type} [Arithmetic α] {index : ℕ}

/-- A slot is clamped to its grid point where the canvas has room for this point. -/
theorem clamp_slot (hexact : c.ExactAt α (c.slot fieldCount index))
    (hinside : c.Inside fieldCount (c.rowPoint fieldCount index)) :
    c.clamp fieldCount (.ofInts (c.slot fieldCount index) : Point α) =
      .ok (c.rowPoint fieldCount index) :=
  clamp_eq_ok.2 ⟨clampBetween_of_between hexact.x hinside.left hinside.right,
    clampBetween_of_between hexact.y hinside.top hinside.bottom⟩

theorem slot_zero (c : Config) (fieldCount : ℕ) : c.slot fieldCount 0 = c.bounds.anchor := by
  simp [slot]

theorem slot_nonneg (c : Config) (fieldCount index : ℕ) :
    0 ≤ (c.slot fieldCount index).x ∧ 0 ≤ (c.slot fieldCount index).y := by
  obtain ⟨hx, hy⟩ := anchor_nonneg c.bounds
  exact ⟨add_nonneg hx (by positivity), add_nonneg hy (by positivity)⟩

/-- The first tables in rows, as many as are placed already. -/
def rowsBefore (α : Type) [Arithmetic α] (c : Config) (fieldCount index : ℕ) : List (Box α) :=
  (List.range index).map fun i => (c.rowBox fieldCount i).ofInts

theorem length_rowsBefore : (rowsBefore α c fieldCount index).length = index := by
  rw [rowsBefore, List.length_map, List.length_range]

variable [ExactOnWhole α]

/-- The first candidate is accepted beside tables in rows. -/
theorem tryAt_slot (hspacing : c.layout.gridSize ≤ c.layout.tableSpacing)
    (hexact : c.ExactAt α (c.slot fieldCount index))
    (hinside : c.Inside fieldCount (c.rowPoint fieldCount index)) :
    c.tryAt fieldCount (rowsBefore α c fieldCount index) .grid
      (.ofInts (c.slot fieldCount index)) =
      .ok (some ⟨c.rowPoint fieldCount index, .grid, index⟩) := by
  have hfree : Box.collides c.metrics c.tableSpacing (c.rowBox fieldCount index).ofInts
      (rowsBefore α c fieldCount index) = .ok false := by
    refine Box.collides_eq_false_iff.2 fun b hb => ?_
    obtain ⟨i, hi, rfl⟩ := List.mem_map.1 hb
    exact Box.overlaps_ofInts_eq_false_iff.2 (apart_rowBox hspacing (List.mem_range.1 hi).ne')
  refine bind_eq_ok.2 ⟨_, lift_eq_ok.2 (clamp_slot hexact hinside), ?_⟩
  refine bind_eq_ok.2 ⟨false, lift_eq_ok.2 hfree, ?_⟩
  rw [if_neg Bool.false_ne_true, length_rowsBefore]
  rfl

/-- **The next table in rows** is placed at the grid point nearest to its slot. -/
theorem allocate_row (hspacing : c.layout.gridSize ≤ c.layout.tableSpacing)
    (hexact : c.ExactAt α (c.slot fieldCount index))
    (hinside : c.Inside fieldCount (c.rowPoint fieldCount index)) :
    c.allocate fieldCount (rowsBefore α c fieldCount index) =
      .ok (c.rowPlacement fieldCount index) := by
  cases index with
  | zero =>
    have hclamp := clamp_slot hexact hinside
    rw [slot_zero] at hclamp
    exact bind_eq_ok.2 ⟨_, lift_eq_ok.2 hclamp, rfl⟩
  | succ n =>
    have hplaced : (rowsBefore α c fieldCount (n + 1)).isEmpty = false := by
      rw [List.isEmpty_eq_false_iff, ← List.length_pos_iff, length_rowsBefore]
      exact n.succ_pos
    rw [allocate, if_neg (by rw [hplaced]; exact Bool.false_ne_true), search, length_rowsBefore,
      tryAt_slot hspacing hexact hinside]
    rfl

end

end Config

/-! ## All tables -/

/-- Tables without a position. -/
def unplacedIn (α : Type) (entities : Registry Entity) : Registry (Table α) :=
  entities.map fun _ e => .unplaced e

section

variable {α : Type} [Arithmetic α]

/-- The entries of tables in rows. -/
def rowEntries (α : Type) [Arithmetic α] (c : Config) (fieldCount : ℕ)
    (entities : List (String × Entity)) : List (String × Table α) :=
  entities.mapIdx fun i e => (e.1, (Table.unplaced e.2).moveTo (.ofInts (c.rowPoint fieldCount i)))

variable {c : Config} {fieldCount : ℕ} {entities : List (String × Entity)}

theorem rowEntries_concat (entities : List (String × Entity)) (e : String × Entity) :
    rowEntries α c fieldCount (entities ++ [e]) = rowEntries α c fieldCount entities ++
      [(e.1, (Table.unplaced e.2).moveTo (.ofInts (c.rowPoint fieldCount entities.length)))] :=
  List.mapIdx_concat

theorem map_fst_rowEntries (entities : List (String × Entity)) :
    (rowEntries α c fieldCount entities).map Prod.fst = entities.map Prod.fst := by
  induction entities using List.reverseRecOn with
  | nil => rfl
  | append_singleton rest e ih =>
    rw [rowEntries_concat, List.map_append, List.map_append, ih]
    rfl

/-- The boxes of tables in rows. -/
theorem boxesOf_rowEntries (hfields : ∀ e ∈ entities, e.2.fields.length = fieldCount) :
    boxesOf ((rowEntries α c fieldCount entities).map Prod.snd) =
      Config.rowsBefore α c fieldCount entities.length := by
  induction entities using List.reverseRecOn with
  | nil => rfl
  | append_singleton rest e ih =>
    have he : e.2.fields.length = fieldCount :=
      hfields e (List.mem_append_right rest List.mem_cons_self)
    have hlast : ((Table.unplaced e.2).moveTo
        (.ofInts (c.rowPoint fieldCount rest.length) : Point α)).box? =
          some (c.rowBox fieldCount rest.length).ofInts := by
      rw [Table.box?, Table.moveTo, Option.map_some, Table.unplaced, he]
      rfl
    have hrest := ih fun e' he' => hfields e' (List.mem_append_left _ he')
    rw [boxesOf, Config.rowsBefore] at hrest
    rw [rowEntries_concat, List.map_append, boxesOf, List.filterMap_append, hrest,
      Config.rowsBefore, List.length_append, List.length_singleton, List.range_succ,
      List.map_append]
    congr 1
    exact List.filterMap_cons_some hlast

/-- Tables that are placed in rows. -/
structure InRows (c : Config) (fieldCount : ℕ) (entities : List (String × Entity))
    (done : Layout α) : Prop where
  tables : done.tables.entries = rowEntries α c fieldCount entities
  placements : done.placements = entities.mapIdx fun i e => (e.1, c.rowPlacement fieldCount i)

variable [ExactOnWhole α]

/-- One more table is placed in rows. -/
theorem InRows.placeNext {done : Layout α} (h : InRows c fieldCount entities done)
    (hspacing : c.layout.gridSize ≤ c.layout.tableSpacing)
    (hexact : c.ExactAt α (c.slot fieldCount entities.length))
    (hinside : c.Inside fieldCount (c.rowPoint fieldCount entities.length))
    {e : String × Entity} (hname : e.1 ∉ entities.map Prod.fst)
    (hfields : ∀ e' ∈ entities ++ [e], e'.2.fields.length = fieldCount) :
    ∃ done', SchemaDiagram.placeNext c done (e.1, .unplaced e.2) = .ok done' ∧
      InRows c fieldCount (entities ++ [e]) done' := by
  have hkeys : done.tables.keys = entities.map Prod.fst := by
    rw [Registry.keys, h.tables, map_fst_rowEntries]
  have hnew : done.tables.contains e.1 = false := by
    rw [Registry.contains_eq_false_iff, Registry.get?_eq_none_iff, hkeys]
    exact hname
  have hboxes : boxesOf done.tables.values = Config.rowsBefore α c fieldCount entities.length := by
    rw [Registry.values, h.tables]
    exact boxesOf_rowEntries fun e' he' => hfields e' (List.mem_append_left _ he')
  have hallocate : c.allocate (Table.unplaced e.2 : Table α).fields.length
      (boxesOf done.tables.values) = .ok (c.rowPlacement fieldCount entities.length) := by
    have he : (Table.unplaced e.2 : Table α).fields.length = fieldCount :=
      hfields e (List.mem_append_right entities List.mem_cons_self)
    rw [he, hboxes]
    exact Config.allocate_row hspacing hexact hinside
  refine ⟨⟨done.tables.insert e.1 ((Table.unplaced e.2).moveTo
    (.ofInts (c.rowPoint fieldCount entities.length))),
    done.placements ++ [(e.1, c.rowPlacement fieldCount entities.length)]⟩, ?_, ?_, ?_⟩
  · rw [SchemaDiagram.placeNext, if_neg (by rw [hnew]; exact Bool.false_ne_true)]
    exact bind_eq_ok.2 ⟨_, hallocate, rfl⟩
  · rw [rowEntries_concat, ← h.tables]
    exact Registry.put_of_not_mem _ _ _ (by rwa [h.tables, map_fst_rowEntries])
  · rw [List.mapIdx_concat, ← h.placements]

/-- **Tables one after the other** are placed in rows, as many as the canvas has room for. -/
theorem foldlM_placeNext_rows (hspacing : c.layout.gridSize ≤ c.layout.tableSpacing)
    (hexact : ∀ i < entities.length, c.ExactAt α (c.slot fieldCount i))
    (hinside : ∀ i < entities.length, c.Inside fieldCount (c.rowPoint fieldCount i))
    (hnodup : (entities.map Prod.fst).Nodup)
    (hfields : ∀ e ∈ entities, e.2.fields.length = fieldCount) :
    ∃ done : Layout α,
      (entities.map fun e => (e.1, (Table.unplaced e.2 : Table α))).foldlM (placeNext c)
        ⟨.empty, []⟩ = .ok done ∧ InRows c fieldCount entities done := by
  induction entities using List.reverseRecOn with
  | nil => exact ⟨_, rfl, rfl, rfl⟩
  | append_singleton rest e ih =>
    have hlength : (rest ++ [e]).length = rest.length + 1 := by
      rw [List.length_append, List.length_singleton]
    rw [List.map_append, List.nodup_append] at hnodup
    obtain ⟨done, hdone, hrows⟩ := ih (fun i hi => hexact i (by omega))
      (fun i hi => hinside i (by omega)) hnodup.1 fun e' he' =>
        hfields e' (List.mem_append_left _ he')
    have hname : e.1 ∉ rest.map Prod.fst := fun hmem =>
      hnodup.2.2 _ hmem _ List.mem_cons_self rfl
    obtain ⟨done', hdone', hrows'⟩ := hrows.placeNext hspacing (hexact _ (by omega))
      (hinside _ (by omega)) hname hfields
    refine ⟨done', ?_, hrows'⟩
    rw [List.map_append, List.foldlM_append]
    exact bind_eq_ok.2 ⟨done, hdone, bind_eq_ok.2 ⟨done', hdone', rfl⟩⟩

/-- A layout of tables in rows, any two of which keep the table spacing. -/
structure LaidInRows (c : Config) (fieldCount : ℕ) (entities : Registry Entity) (l : Layout α) :
    Prop extends InRows c fieldCount entities.entries l where
  clear : (boxesOf l.tables.values).Pairwise fun a b =>
    Box.overlaps c.metrics c.tableSpacing a b = .ok false ∧
      Box.overlaps c.metrics c.tableSpacing b a = .ok false

/-- Tables in rows keep the spacing. -/
theorem pairwise_rowsBefore (hspacing : c.layout.gridSize ≤ c.layout.tableSpacing) (n : ℕ) :
    (Config.rowsBefore α c fieldCount n).Pairwise fun a b =>
      Box.overlaps c.metrics c.tableSpacing a b = .ok false ∧
        Box.overlaps c.metrics c.tableSpacing b a = .ok false := by
  rw [Config.rowsBefore, List.pairwise_map]
  refine List.pairwise_lt_range.imp fun hlt => ?_
  exact ⟨Box.overlaps_ofInts_eq_false_iff.2 (Config.apart_rowBox hspacing hlt.ne),
    Box.overlaps_ofInts_eq_false_iff.2 (Config.apart_rowBox hspacing hlt.ne')⟩

omit [Arithmetic α] [ExactOnWhole α] in
/-- None of the tables without a position is known. -/
theorem knownTables_unplacedIn (entities : Registry Entity) :
    knownTables (unplacedIn α entities) .empty = .empty := by
  refine Registry.ext (List.filterMap_eq_nil_iff.2 fun e he => ?_)
  obtain ⟨e', -, rfl⟩ := List.mem_map.1 he
  rfl

omit [ExactOnWhole α] in
/-- Tables in rows are in the order of the source already. -/
theorem InRows.filterMap_eq {entities : Registry Entity} {done : Layout α}
    (h : InRows c fieldCount entities.entries done) :
    (unplacedIn α entities).filterMap (fun name _ => done.tables.get? name) = done.tables := by
  have hkeys : done.tables.keys = (unplacedIn α entities).keys := by
    rw [Registry.keys, h.tables, map_fst_rowEntries, unplacedIn, Registry.keys, Registry.map,
      List.map_map]
    rfl
  have hkept : ((unplacedIn α entities).filterMap fun name _ => done.tables.get? name).keys =
      (unplacedIn α entities).keys := by
    refine Registry.keys_filterMap _ _ fun name t ht => ?_
    have hname : name ∈ done.tables.keys := hkeys ▸ (Registry.mem_keys_iff _ name).2 ⟨t, ht⟩
    obtain ⟨u, hu⟩ := (Registry.mem_keys_iff _ name).1 hname
    rw [hu]
    rfl
  refine Registry.ext_of_keys (hkept.trans hkeys.symm) fun name hname => ?_
  obtain ⟨t, ht⟩ := (Registry.mem_keys_iff _ name).1 (hkept ▸ hname)
  rw [Registry.get?_filterMap, ht, Option.bind_some]

/-- Tables are laid out in rows in any arithmetic in which the quotients of the slots are as if
exact. -/
theorem layOut_inRows (hspacing : c.layout.gridSize ≤ c.layout.tableSpacing)
    {entities : Registry Entity}
    (hexact : ∀ i < entities.size, c.ExactAt α (c.slot fieldCount i))
    (hinside : ∀ i < entities.size, c.Inside fieldCount (c.rowPoint fieldCount i))
    (hfields : ∀ e ∈ entities.values, e.fields.length = fieldCount) :
    ∃ l, layOut c (unplacedIn α entities) .empty = .ok l ∧ LaidInRows c fieldCount entities l := by
  have hfields' : ∀ e ∈ entities.entries, e.2.fields.length = fieldCount := fun e he =>
    hfields e.2 (List.mem_map_of_mem he)
  obtain ⟨done, hdone, hrows⟩ :=
    foldlM_placeNext_rows hspacing hexact hinside entities.nodup_keys hfields'
  refine ⟨done, ?_, hrows, ?_⟩
  · rw [layOut, knownTables_unplacedIn]
    refine bind_eq_ok.2 ⟨done, hdone, ?_⟩
    rw [hrows.filterMap_eq]
    rfl
  · rw [Registry.values, hrows.tables, boxesOf_rowEntries hfields']
    exact pairwise_rowsBefore hspacing _

end

/-- **Tables of one height** are laid out row by row, each at the grid point nearest to its slot, if
the canvas has room for these points and a grid step is not wider than the spacing: on exact
coordinates, and on computed ones as long as the slots are short of `2 ^ 52`. -/
theorem layOut_rows {c : Config} {fieldCount : ℕ} {entities : Registry Entity}
    (hfields : ∀ e ∈ entities.values, e.fields.length = fieldCount)
    (hspacing : c.layout.gridSize ≤ c.layout.tableSpacing)
    (hinside : ∀ i < entities.size, c.Inside fieldCount (c.rowPoint fieldCount i)) :
    (∃ l : Layout ℚ, layOut c (unplacedIn ℚ entities) .empty = .ok l ∧
      LaidInRows c fieldCount entities l) ∧
    ((∀ i < entities.size, (c.slot fieldCount i).x < 2 ^ 52 ∧ (c.slot fieldCount i).y < 2 ^ 52) →
      ∃ l : Layout Quantity, layOut c (unplacedIn Quantity entities) .empty = .ok l ∧
        LaidInRows c fieldCount entities l) := by
  constructor
  · exact layOut_inRows hspacing (fun i _ => Config.exactAt_rat c _) hinside hfields
  · intro hshort
    refine layOut_inRows hspacing (fun i hi => ?_) hinside hfields
    obtain ⟨hx, hy⟩ := hshort i hi
    obtain ⟨hx', hy'⟩ := Config.slot_nonneg c fieldCount i
    exact Config.exactAt_quantity ((abs_of_nonneg hx').trans_lt hx)
      ((abs_of_nonneg hy').trans_lt hy)

/-- Five tables, so that a second row begins. -/
def evenEntities : Registry Entity :=
  .ofList (["a", "b", "c", "d", "e"].map fun name =>
    (name, ⟨name, [⟨"id", "int", true, true, none⟩, ⟨"n", "int", false, false, none⟩]⟩))

theorem layOut_rows_even :
    (∀ e ∈ evenEntities.values, e.fields.length = 2) ∧
      Config.default.layout.gridSize ≤ Config.default.layout.tableSpacing ∧
      (∀ i < evenEntities.size, Config.default.Inside 2 (Config.default.rowPoint 2 i)) ∧
      (∃ l : Layout ℚ, layOut Config.default (unplacedIn ℚ evenEntities) .empty = .ok l ∧
        LaidInRows Config.default 2 evenEntities l) ∧
      (∀ i < evenEntities.size, (Config.default.slot 2 i).x < 2 ^ 52 ∧
        (Config.default.slot 2 i).y < 2 ^ 52) ∧
      ∃ l : Layout Quantity, layOut Config.default (unplacedIn Quantity evenEntities) .empty =
        .ok l ∧ LaidInRows Config.default 2 evenEntities l := by
  have hfields : ∀ e ∈ evenEntities.values, e.fields.length = 2 := by decide +kernel
  have hspacing : Config.default.layout.gridSize ≤ Config.default.layout.tableSpacing := by decide
  have hinside : ∀ i < evenEntities.size,
      Config.default.Inside 2 (Config.default.rowPoint 2 i) := by decide +kernel
  have hshort : ∀ i < evenEntities.size, (Config.default.slot 2 i).x < 2 ^ 52 ∧
      (Config.default.slot 2 i).y < 2 ^ 52 := by decide +kernel
  obtain ⟨hexact, hcomputed⟩ := layOut_rows hfields hspacing hinside
  exact ⟨hfields, hspacing, hinside, hexact, hshort, hcomputed hshort⟩

end SchemaDiagram
