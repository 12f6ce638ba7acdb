/-
# Dragging and dropping

A drop is all or nothing.  The dragged table ends at the grid point nearest to where it was let go,
if it keeps the drag spacing to every other table there; if it does not, nothing has changed.  A
table that was dropped and is dropped again where it lies stays there, as long as its coordinates
are not rounded to doubles on the way.

* `LandsAt`, `SnapsTo` : the nearest grid point in one direction, and the steps that compute it;
* `ClearAt`, `Accepts` : a table that keeps its distance, and a drop that is accepted;
* `Drop` : what a drop does to the tables;
* `StillZero` : a zero that adds nothing;
* `moveTable_drop` : dragging and dropping, on exact coordinates and on those that a program computes
  with;
* `moveTable_drifts` : a table that a double zero moves.
-/
import SchemaDiagram.Proofs.Canvas.Drag
import SchemaDiagram.Proofs.Canvas.Nearest
import SchemaDiagram.Proofs.Connector.Clearance
import SchemaDiagram.Proofs.Registry

namespace SchemaDiagram

open Binary64 Quantity

/-! ## Where a drag ends -/

/-- A coordinate at which a drag can end: a multiple of the grid size that is not negative. -/
structure CanLand (grid : ℕ) (r : ℤ) : Prop where
  nonneg : 0 ≤ r
  dvd : (grid : ℤ) ∣ r

/-- The best place for a coordinate: a drag can end there, and nowhere nearer. -/
structure LandsAt (grid : ℕ) (v : ℚ) (r : ℤ) : Prop extends CanLand grid r where
  nearest : ∀ s, CanLand grid s → |(r : ℚ) - v| ≤ |(s : ℚ) - v|

/-- The nearest multiple, or zero if it is negative, is the best place. -/
theorem landsAt_max {grid : ℕ} (hgrid : 0 < grid) (v : ℚ) :
    LandsAt grid v (max 0 (nearestInt (v / grid) * grid)) := by
  have hgood : ∀ high, GoodStep grid 0 high v (nearestInt (v / grid)) := fun _ =>
    Or.inl (abs_nearestInt_mul_sub_le hgrid v)
  rcases le_or_gt 0 (nearestInt (v / grid) * grid) with hpos | hneg
  · rw [max_eq_right hpos]
    refine ⟨⟨hpos, dvd_mul_left _ _⟩, ?_⟩
    intro s hs
    -- both multiples lie below the greater one
    exact (hgood (max s (nearestInt (v / grid) * grid))).nearest
      ⟨hpos, le_max_right _ _, dvd_mul_left _ _⟩ ⟨hs.nonneg, le_max_left _ _, hs.dvd⟩
  · rw [max_eq_left hneg.le]
    refine ⟨⟨le_rfl, dvd_zero _⟩, ?_⟩
    intro s hs
    have hv : v ≤ ((0 : ℤ) : ℚ) := (hgood 0).value_le ⟨le_rfl, le_rfl, dvd_zero _⟩ hneg
    exact abs_sub_le_of_le (Or.inr ⟨hs.nonneg, hv⟩)

section

variable {α : Type} [Arithmetic α] {grid : ℕ} {r : ℤ}

/-- The steps by which a coordinate that is dragged finds its place. -/
def SnapsTo (grid : ℕ) (x d : α) (r : ℤ) : Prop :=
  ∃ sum q, Arithmetic.add x d = .ok sum ∧ Arithmetic.nearestQuotient sum grid = .ok q ∧
    max 0 (q * grid) = r

theorem snap_eq_ok {p delta : Point α} {r : Point ℤ} :
    snap grid p delta = .ok r ↔ SnapsTo grid p.x delta.x r.x ∧ SnapsTo grid p.y delta.y r.y := by
  unfold snap SnapsTo
  simp only [bind_eq_ok, pure_eq_ok, toGrid_eq_ok]
  constructor
  · rintro ⟨x, hx, _, ⟨i, hi, rfl⟩, y, hy, _, ⟨j, hj, rfl⟩, rfl⟩
    exact ⟨⟨x, i, hx, hi, rfl⟩, y, j, hy, hj, rfl⟩
  · rintro ⟨⟨x, i, hx, hi, hrx⟩, y, j, hy, hj, hry⟩
    refine ⟨x, hx, _, ⟨i, hi, rfl⟩, y, hy, _, ⟨j, hj, rfl⟩, ?_⟩
    rw [hrx, hry]

/-- A drag ends where it can. -/
theorem SnapsTo.canLand {x d : α} (h : SnapsTo grid x d r) : CanLand grid r := by
  obtain ⟨sum, q, -, -, rfl⟩ := h
  constructor
  case nonneg => exact le_max_left _ _
  case dvd =>
    rcases max_choice 0 (q * (grid : ℤ)) with hmax | hmax
    · rw [hmax]
      exact dvd_zero _
    · rw [hmax]
      exact dvd_mul_left _ _

end

/-! ### Exact coordinates -/

/-- An exact coordinate finds its best place. -/
theorem snapsTo_exact {grid : ℕ} (hgrid : 0 < grid) (x d : ℚ) :
    ∃ r, SnapsTo grid x d r ∧ LandsAt grid (x + d) r :=
  ⟨_, ⟨_, _, rfl, rfl, rfl⟩, landsAt_max hgrid (x + d)⟩

/-- What has landed stays where it is. -/
theorem CanLand.snapsTo_exact {grid : ℕ} {r : ℤ} (hgrid : 0 < grid) (h : CanLand grid r) :
    SnapsTo grid (r : ℚ) 0 r := by
  obtain ⟨hpos, k, rfl⟩ := h
  rw [mul_comm] at hpos ⊢
  refine ⟨_, _, rfl, rfl, ?_⟩
  rw [add_zero, multiple_div hgrid, nearestInt_intCast]
  exact max_eq_right hpos

/-! ### Computed coordinates -/

/-- A place for a computed coordinate: a drag can end there, and it is the best place for the sum of
the coordinate and its change if that is short enough for its quotient to be as if exact. -/
structure LandsNear (grid : ℕ) (x d : Quantity) (r : ℤ) : Prop extends CanLand grid r where
  near : ∃ sum v, x.add d = .ok sum ∧ sum.value? = some v ∧
    (grid < 2 ^ 53 → |v| < 2 ^ 52 → LandsAt grid v r)

/-- A computed coordinate finds the best place for a short sum. -/
theorem SnapsTo.landsNear {grid : ℕ} {x d : Quantity} {r : ℤ} (hgrid : 0 < grid)
    (h : SnapsTo grid x d r) : LandsNear grid x d r := by
  refine ⟨h.canLand, ?_⟩
  obtain ⟨sum, q, hsum, hq, rfl⟩ := h
  obtain ⟨v, hv⟩ := exists_value_of_quotientWith hq
  refine ⟨sum, v, hsum, hv, ?_⟩
  intro hsmall hshort
  rw [nearestQuotient_value hgrid hsmall hv hshort hq]
  exact landsAt_max hgrid v

/-- A zero that is added to a whole coordinate without rounding it: a whole zero, or a double one if
a double holds the coordinate.  The sum is then a double, and so must be the grid size. -/
def StillZero (grid : ℕ) (zero : Quantity) (r : ℤ) : Prop :=
  zero = .whole 0 ∨
    (∃ s, zero = .real (.zero s)) ∧ Holds r ∧ ∃ g, Binary64.ofInt grid = .ok g

/-- A computed coordinate that has landed stays where it is. -/
theorem SnapsTo.again {grid : ℕ} {x d zero : Quantity} {r : ℤ} (hgrid : 0 < grid)
    (h : SnapsTo grid x d r) (hzero : StillZero grid zero r) :
    SnapsTo grid (.whole r) zero r := by
  have hpos := h.canLand.nonneg
  -- the place is a multiple by an integer that a double holds
  obtain ⟨k, hk, rfl⟩ : ∃ k, Holds k ∧ k * grid = r := by
    obtain ⟨sum, q, -, hq, rfl⟩ := h
    rcases max_choice 0 (q * (grid : ℤ)) with hmax | hmax
    · exact ⟨0, holds_of_lt (by norm_num), by rw [hmax, zero_mul]⟩
    · exact ⟨q, holds_of_quotientWith isRounding_nearestInt hq, hmax.symm⟩
  rcases hzero with rfl | ⟨⟨s, rfl⟩, hheld, g, hg⟩
  · refine ⟨.whole (k * grid), k, ?_, ?_, max_eq_right hpos⟩
    · show Except.ok (Quantity.whole (k * grid + 0)) = _
      rw [add_zero]
    · exact quotientWith_multiple isRounding_nearestInt hgrid hk
  · obtain ⟨sum, hsum, hquotient⟩ :=
      quotientWith_add_zero isRounding_nearestInt hgrid hk hheld hg s
    exact ⟨sum, k, hsum, hquotient, max_eq_right hpos⟩

/-! ## What a drop does -/

section

variable {α : Type}

/-- The tables of a registry stand under their own names. -/
def KeyedByName (tables : Registry (Table α)) : Prop :=
  ∀ name t, tables.get? name = some t → t.name = name

instance : DecidablePred (KeyedByName (α := α)) := fun tables =>
  decidable_of_iff (∀ e ∈ tables.entries, e.2.name = e.1)
    ⟨fun h name t ht => h _ ((Registry.mem_entries_iff tables name t).2 ht),
      fun h e he => h e.1 e.2 ((Registry.mem_entries_iff tables e.1 e.2).1 he)⟩

variable [Arithmetic α]

/-- At a position, a table keeps the drag spacing to every placed table of another name. -/
def ClearAt (c : Config) (tables : Registry (Table α)) (name : String) (t : Table α)
    (position : Point ℤ) : Prop :=
  ∀ other u b, other ≠ name → tables.get? other = some u → u.box? = some b →
    Box.overlaps c.metrics (Arithmetic.ofInt (c.layout.dragSpacing : ℕ))
      ⟨.ofInts position, t.fields.length⟩ b = .ok false

/-- A drop is accepted: there is a landing, and the table is clear of the others there. -/
structure Accepts (c : Config) (tables : Registry (Table α)) (name : String) (delta : Point α)
    (t : Table α) (position : Point ℤ) : Prop where
  entered : tables.get? name = some t
  landing : ∃ valid, landing? c tables name delta = .ok (some ⟨position, valid⟩)
  clear : ClearAt c tables name t position

/-- What a drop does to the tables: if it is accepted, the named table has moved to its landing, and
nothing has changed otherwise. -/
structure Drop (c : Config) (tables : Registry (Table α)) (name : String) (delta : Point α)
    (tables' : Registry (Table α)) : Prop where
  keys : tables'.keys = tables.keys
  others : ∀ other, other ≠ name → tables'.get? other = tables.get? other
  accepted : ∀ t position, Accepts c tables name delta t position →
    tables'.get? name = some (t.moveTo (.ofInts position))
  rejected : (∀ t position, ¬ Accepts c tables name delta t position) → tables' = tables

variable {c : Config} {tables tables' : Registry (Table α)} {name : String} {delta : Point α}
  {t : Table α} {position : Point ℤ}

omit [Arithmetic α] in
theorem mem_othersOf_iff (hkeyed : KeyedByName tables) {u : Table α} :
    u ∈ othersOf tables name ↔ ∃ other, other ≠ name ∧ tables.get? other = some u := by
  rw [othersOf, List.mem_filter, Registry.mem_values_iff]
  simp only [ne_eq, decide_not, Bool.not_eq_true', decide_eq_false_iff_not]
  constructor
  · rintro ⟨⟨other, hu⟩, hname⟩
    exact ⟨other, hkeyed other u hu ▸ hname, hu⟩
  · rintro ⟨other, hother, hu⟩
    exact ⟨⟨other, hu⟩, (hkeyed other u hu).symm ▸ hother⟩

/-- The overlap test of a drag fails exactly when the table is clear of the others. -/
theorem wouldOverlap_eq_false_iff (hkeyed : KeyedByName tables) (ht : tables.get? name = some t) :
    wouldOverlap c tables name (.ofInts position) = .ok false ↔ ClearAt c tables name t position := by
  rw [wouldOverlap, ht]
  show Box.collides _ _ _ (boxesOf (othersOf tables name)) = .ok false ↔ _
  rw [Box.collides_eq_false_iff]
  unfold boxesOf
  simp only [List.mem_filterMap, mem_othersOf_iff hkeyed]
  constructor
  · intro h other u b hother hu hb
    exact h b ⟨u, ⟨other, hother, hu⟩, hb⟩
  · rintro h b ⟨u, ⟨other, hother, hu⟩, hb⟩
    exact h other u b hother hu hb

/-- A table that is entered with a position lands at the grid point that the steps find, and the
overlap test says whether it may. -/
theorem landing?_eq_some_iff {p : Point α} {l : Landing} (ht : tables.get? name = some t)
    (hp : t.position = some p) :
    landing? c tables name delta = .ok (some l) ↔
      snap c.layout.gridSize p delta = .ok l.position ∧
        wouldOverlap c tables name (.ofInts l.position) = .ok !l.valid := by
  have hplaced : (tables.get? name).bind Table.position = some p := by rw [ht, Option.bind_some, hp]
  unfold landing?
  simp only [hplaced, bind_eq_ok, pure_eq_ok, Option.some.injEq]
  constructor
  · rintro ⟨position, hsnap, occupied, hoccupied, rfl⟩
    exact ⟨hsnap, by rw [hoccupied, Bool.not_not]⟩
  · rintro ⟨hsnap, hoccupied⟩
    exact ⟨l.position, hsnap, _, hoccupied, by rw [Bool.not_not]⟩

/-- A landing is of a table that is entered with a position. -/
theorem exists_of_landing? {l : Landing} (h : landing? c tables name delta = .ok (some l)) :
    ∃ t p, tables.get? name = some t ∧ t.position = some p := by
  rw [landing?] at h
  split at h
  · cases h
  · next p hp =>
    obtain ⟨t, ht, hposition⟩ := Option.bind_eq_some_iff.1 hp
    exact ⟨t, p, ht, hposition⟩

/-- An accepted drop is one with a valid landing. -/
theorem accepts_iff (hkeyed : KeyedByName tables) (ht : tables.get? name = some t) :
    Accepts c tables name delta t position ↔
      landing? c tables name delta = .ok (some ⟨position, true⟩) := by
  constructor
  · rintro ⟨-, ⟨valid, hlanding⟩, hclear⟩
    obtain ⟨t', p, ht', hp⟩ := exists_of_landing? hlanding
    have hfree := (wouldOverlap_eq_false_iff hkeyed ht).2 hclear
    have hvalid := ((landing?_eq_some_iff ht' hp).1 hlanding).2
    rw [hfree, Except.ok.injEq, eq_comm, Bool.not_eq_false'] at hvalid
    obtain rfl : valid = true := hvalid
    exact hlanding
  · intro h
    obtain ⟨t', p, ht', hp⟩ := exists_of_landing? h
    have hfree := ((landing?_eq_some_iff ht' hp).1 h).2
    exact ⟨ht, ⟨true, h⟩, (wouldOverlap_eq_false_iff hkeyed ht).1 hfree⟩

/-- A drop is accepted at one place only. -/
theorem Accepts.unique {t' : Table α} {position' : Point ℤ}
    (h : Accepts c tables name delta t position)
    (h' : Accepts c tables name delta t' position') : t' = t ∧ position' = position := by
  obtain ⟨valid, hlanding⟩ := h.landing
  obtain ⟨valid', hlanding'⟩ := h'.landing
  rw [hlanding, Except.ok.injEq, Option.some.injEq, Landing.mk.injEq] at hlanding'
  exact ⟨Option.some.inj (h'.entered.symm.trans h.entered), hlanding'.1.symm⟩

/-- The place of an accepted drop is found by the steps. -/
theorem Accepts.snapsTo (h : Accepts c tables name delta t position) :
    ∃ p : Point α, t.position = some p ∧ SnapsTo c.layout.gridSize p.x delta.x position.x ∧
      SnapsTo c.layout.gridSize p.y delta.y position.y := by
  obtain ⟨valid, hlanding⟩ := h.landing
  obtain ⟨t', p, ht', hp⟩ := exists_of_landing? hlanding
  obtain rfl : t = t' := Option.some.inj (h.entered.symm.trans ht')
  exact ⟨p, hp, snap_eq_ok.1 ((landing?_eq_some_iff ht' hp).1 hlanding).1⟩

/-- Nothing has changed after a drop that is not accepted. -/
theorem drop_unchanged (h : ∀ t position, ¬ Accepts c tables name delta t position) :
    Drop c tables name delta tables where
  keys := rfl
  others := fun _ _ => rfl
  accepted := fun t position haccepts => absurd haccepts (h t position)
  rejected := fun _ => rfl

/-- The named table has moved after a drop that is accepted. -/
theorem Accepts.drop (h : Accepts c tables name delta t position) :
    Drop c tables name delta (tables.insert name (t.moveTo (.ofInts position))) where
  keys := by
    rw [Registry.keys_insert, if_pos ((Registry.mem_keys_iff _ _).2 ⟨t, h.entered⟩)]
  others := by
    intro other hother
    rw [Registry.get?_insert, if_neg hother]
  accepted := by
    intro t' position' h'
    obtain ⟨rfl, rfl⟩ := h.unique h'
    rw [Registry.get?_insert, if_pos rfl]
  rejected := fun hrejected => absurd h (hrejected t position)

/-- **A drop is all or nothing.** -/
theorem drop_of_moveTable (hkeyed : KeyedByName tables)
    (h : moveTable c tables name delta = .ok tables') : Drop c tables name delta tables' := by
  obtain ⟨landing, hlanding, h⟩ := bind_eq_ok.1 h
  have htables := pure_eq_ok.1 h
  have hvalid : ∀ t position, Accepts c tables name delta t position →
      landing = some ⟨position, true⟩ := by
    intro t position haccepts
    have hsame := (accepts_iff hkeyed haccepts.entered).1 haccepts
    rw [hlanding] at hsame
    exact Except.ok.inj hsame
  match landing, hlanding with
  | none, _ =>
    subst htables
    exact drop_unchanged fun t position haccepts => nomatch hvalid t position haccepts
  | some ⟨_, false⟩, _ =>
    subst htables
    exact drop_unchanged fun t position haccepts => nomatch hvalid t position haccepts
  | some ⟨position, true⟩, hlanding =>
    obtain ⟨t, p, ht, -⟩ := exists_of_landing? hlanding
    have hinsert : tables' = tables.insert name (t.moveTo (.ofInts position)) := by
      rw [← htables, applyLanding, ht]
    rw [hinsert]
    exact ((accepts_iff hkeyed ht).2 hlanding).drop

/-- After an accepted drop, a drag that ends at the same place changes nothing. -/
theorem Accepts.again {zero : Point α} (hkeyed : KeyedByName tables)
    (h : moveTable c tables name delta = .ok tables')
    (haccepts : Accepts c tables name delta t position)
    (hsnap : snap c.layout.gridSize (.ofInts position) zero = .ok position) :
    moveTable c tables' name zero = .ok tables' := by
  have hdrop := drop_of_moveTable hkeyed h
  have ht' := hdrop.accepted t position haccepts
  have hkeyed' : KeyedByName tables' := by
    intro other u hu
    by_cases hother : other = name
    · subst hother
      obtain rfl := Option.some.inj (ht'.symm.trans hu)
      exact hkeyed other t haccepts.entered
    · exact hkeyed other u (hdrop.others other hother ▸ hu)
  -- the other tables are where they were
  have hclear : ClearAt c tables' name (t.moveTo (.ofInts position)) position := by
    intro other u b hother hu hb
    exact haccepts.clear other u b hother (hdrop.others other hother ▸ hu) hb
  have hlanding : landing? c tables' name zero = .ok (some ⟨position, true⟩) :=
    (landing?_eq_some_iff ht' rfl).2 ⟨hsnap, (wouldOverlap_eq_false_iff hkeyed' ht').2 hclear⟩
  have hinsert : tables'.insert name (t.moveTo (.ofInts position)) = tables' := by
    refine Registry.ext_of_keys ?_ ?_
    · rw [Registry.keys_insert, if_pos ((Registry.mem_keys_iff _ _).2 ⟨_, ht'⟩)]
    · intro other _
      rw [Registry.get?_insert]
      split
      · next hother => rw [hother, ht']
      · rfl
  refine bind_eq_ok.2 ⟨_, hlanding, pure_eq_ok.2 ?_⟩
  rw [applyLanding, ht']
  exact hinsert

end

/-! ## Dragging and dropping -/

/-- The dragged table, if it is placed, lands at good coordinates: `good` says so of a coordinate, its
change and where it ends. -/
def Lands {α : Type} [Arithmetic α] (c : Config) (tables : Registry (Table α)) (name : String)
    (delta : Point α) (good : α → α → ℤ → Prop) : Prop :=
  ∀ t p, tables.get? name = some t → t.position = some p →
    ∃ l, landing? c tables name delta = .ok (some l) ∧
      good p.x delta.x l.position.x ∧ good p.y delta.y l.position.y

/-- On exact coordinates, the collision test has an answer. -/
theorem exists_collides (m : Metrics) (spacing : ℚ) (a : Box ℚ) (boxes : List (Box ℚ)) :
    ∃ answer, Box.collides m spacing a boxes = .ok answer := by
  induction boxes with
  | nil => exact ⟨false, rfl⟩
  | cons b rest ih =>
    rw [Box.collides, Box.overlaps_exact]
    by_cases hseparated : Box.Separated m spacing a b
    · rw [decide_eq_false (not_not.2 hseparated)]
      exact ih
    · rw [decide_eq_true hseparated]
      exact ⟨true, rfl⟩

/-- On exact coordinates, a placed table lands at the best place. -/
theorem lands_exact (c : Config) (tables : Registry (Table ℚ)) (name : String) (delta : Point ℚ) :
    Lands c tables name delta fun x d => LandsAt c.layout.gridSize (x + d) := by
  intro t p ht hp
  obtain ⟨x, hx, hlandx⟩ := snapsTo_exact c.layout.gridSize_pos p.x delta.x
  obtain ⟨y, hy, hlandy⟩ := snapsTo_exact c.layout.gridSize_pos p.y delta.y
  obtain ⟨occupied, hoccupied⟩ : ∃ occupied,
      wouldOverlap c tables name (.ofInts ⟨x, y⟩) = .ok occupied := by
    rw [wouldOverlap, ht]
    exact exists_collides _ _ _ _
  refine ⟨⟨⟨x, y⟩, !occupied⟩, (landing?_eq_some_iff ht hp).2 ⟨snap_eq_ok.2 ⟨hx, hy⟩, ?_⟩,
    hlandx, hlandy⟩
  rw [hoccupied, Bool.not_not]

/-- On exact coordinates, every drag has an end. -/
theorem exists_moveTable (c : Config) (tables : Registry (Table ℚ)) (name : String)
    (delta : Point ℚ) : ∃ tables', moveTable c tables name delta = .ok tables' := by
  suffices hlanding : ∃ landing, landing? c tables name delta = .ok landing by
    obtain ⟨landing, hlanding⟩ := hlanding
    exact ⟨_, bind_eq_ok.2 ⟨landing, hlanding, rfl⟩⟩
  cases hplaced : (tables.get? name).bind Table.position with
  | none => exact ⟨none, by rw [landing?, hplaced]⟩
  | some p =>
    obtain ⟨t, ht, hp⟩ := Option.bind_eq_some_iff.1 hplaced
    obtain ⟨l, hl, -⟩ := lands_exact c tables name delta t p ht hp
    exact ⟨some l, hl⟩

/-- Computed coordinates on which nothing fails land where a drag can end. -/
theorem lands_computed {c : Config} {tables tables' : Registry (Table Quantity)} {name : String}
    {delta : Point Quantity} (h : moveTable c tables name delta = .ok tables') :
    Lands c tables name delta (LandsNear c.layout.gridSize) := by
  intro t p ht hp
  obtain ⟨landing, hlanding, -⟩ := bind_eq_ok.1 h
  obtain ⟨l, rfl⟩ : ∃ l, landing = some l := by
    rw [landing?, ht, Option.bind_some, hp] at hlanding
    obtain ⟨position, -, hlanding⟩ := bind_eq_ok.1 hlanding
    obtain ⟨occupied, -, hlanding⟩ := bind_eq_ok.1 hlanding
    exact ⟨_, (pure_eq_ok.1 hlanding).symm⟩
  obtain ⟨hx, hy⟩ := snap_eq_ok.1 ((landing?_eq_some_iff ht hp).1 hlanding).1
  exact ⟨l, hlanding, hx.landsNear c.layout.gridSize_pos, hy.landsNear c.layout.gridSize_pos⟩

/-- **Dragging and dropping.**  The dragged table lands at the nearest grid point, the drop is all or
nothing, and to drop the table again where it lies changes nothing.  On exact coordinates nothing
fails, and on computed ones the zero of the second drop must not round the landing. -/
theorem moveTable_drop (c : Config) :
    (∀ (tables : Registry (Table ℚ)) (name : String) (delta : Point ℚ), KeyedByName tables →
      Lands c tables name delta (fun x d => LandsAt c.layout.gridSize (x + d)) ∧
      ∃ tables', moveTable c tables name delta = .ok tables' ∧
        Drop c tables name delta tables' ∧
        ∀ t position, Accepts c tables name delta t position →
          moveTable c tables' name ⟨0, 0⟩ = .ok tables') ∧
    ∀ (tables tables' : Registry (Table Quantity)) (name : String) (delta : Point Quantity),
      KeyedByName tables → moveTable c tables name delta = .ok tables' →
      Lands c tables name delta (LandsNear c.layout.gridSize) ∧
      Drop c tables name delta tables' ∧
      ∀ t position zero, Accepts c tables name delta t position →
        StillZero c.layout.gridSize zero.x position.x →
        StillZero c.layout.gridSize zero.y position.y →
        moveTable c tables' name zero = .ok tables' := by
  constructor
  · intro tables name delta hkeyed
    refine ⟨lands_exact c tables name delta, ?_⟩
    obtain ⟨tables', h⟩ := exists_moveTable c tables name delta
    refine ⟨tables', h, drop_of_moveTable hkeyed h, ?_⟩
    intro t position haccepts
    obtain ⟨p, -, hx, hy⟩ := haccepts.snapsTo
    refine haccepts.again hkeyed h (snap_eq_ok.2 ⟨?_, ?_⟩)
    · exact hx.canLand.snapsTo_exact c.layout.gridSize_pos
    · exact hy.canLand.snapsTo_exact c.layout.gridSize_pos
  · intro tables tables' name delta hkeyed h
    refine ⟨lands_computed h, drop_of_moveTable hkeyed h, ?_⟩
    intro t position zero haccepts hzerox hzeroy
    obtain ⟨p, -, hx, hy⟩ := haccepts.snapsTo
    refine haccepts.again hkeyed h (snap_eq_ok.2 ⟨?_, ?_⟩)
    · exact hx.again c.layout.gridSize_pos hzerox
    · exact hy.again c.layout.gridSize_pos hzeroy

/-- Two tables without fields, of which one does not stand on whole coordinates. -/
def twoTables (x y : ℤ) : Registry (Table Quantity) :=
  .ofList [("a", ⟨⟨"a", []⟩, some (.ofInts ⟨x, y⟩)⟩),
    ("b", ⟨⟨"b", []⟩, some ⟨.real (.ofRat (601 / 2)), .whole 0⟩⟩)]

/-- A table that is dragged by a part of a pixel, and dropped again with a double zero. -/
theorem moveTable_drop_part :
    moveTable .default (twoTables 12 7) "a" ⟨.real (.ofRat (41 / 2)), .whole 31⟩ =
        .ok (twoTables 40 40) ∧
      KeyedByName (twoTables 12 7) ∧
      (∃ t, Accepts .default (twoTables 12 7) "a" ⟨.real (.ofRat (41 / 2)), .whole 31⟩ t ⟨40, 40⟩) ∧
      StillZero Config.default.layout.gridSize (.real (.zero true)) 40 ∧
      StillZero Config.default.layout.gridSize (.whole 0) 40 ∧
      Drop .default (twoTables 12 7) "a" ⟨.real (.ofRat (41 / 2)), .whole 31⟩ (twoTables 40 40) ∧
      moveTable .default (twoTables 40 40) "a" ⟨.real (.zero true), .whole 0⟩ =
        .ok (twoTables 40 40) := by
  have hmove : moveTable .default (twoTables 12 7) "a" ⟨.real (.ofRat (41 / 2)), .whole 31⟩ =
      .ok (twoTables 40 40) := by decide +kernel
  have hkeyed : KeyedByName (twoTables 12 7) := by decide +kernel
  have hlanding : landing? .default (twoTables 12 7) "a" ⟨.real (.ofRat (41 / 2)), .whole 31⟩ =
      .ok (some ⟨⟨40, 40⟩, true⟩) := by decide +kernel
  obtain ⟨t, -, ht, -⟩ := exists_of_landing? hlanding
  have haccepts := (accepts_iff hkeyed ht).2 hlanding
  have hreal : StillZero Config.default.layout.gridSize (.real (.zero true)) 40 :=
    Or.inr ⟨⟨true, rfl⟩, holds_of_lt (by norm_num), exists_of_isOk (by decide +kernel)⟩
  have hwhole : StillZero Config.default.layout.gridSize (.whole 0) 40 := Or.inl rfl
  obtain ⟨-, hdrop, hagain⟩ := (moveTable_drop .default).2 _ _ _ _ hkeyed hmove
  exact ⟨hmove, hkeyed, ⟨t, haccepts⟩, hreal, hwhole, hdrop, hagain t _ _ haccepts hreal hwhole⟩

/-- **A double zero can move a table** that lies so far out that a double does not hold its
coordinate. -/
theorem moveTable_drifts :
    KeyedByName (twoTables 0 0) ∧
      moveTable .default (twoTables 0 0) "a" (.ofInts ⟨1200000000000000160, 0⟩) =
        .ok (twoTables 1200000000000000160 0) ∧
      moveTable .default (twoTables 1200000000000000160 0) "a"
          ⟨.real (.zero false), .real (.zero false)⟩ =
        .ok (twoTables 1200000000000000320 0) ∧
      twoTables 1200000000000000320 0 ≠ twoTables 1200000000000000160 0 := by
  refine ⟨?_, ?_, ?_, ?_⟩ <;> decide +kernel

end SchemaDiagram
