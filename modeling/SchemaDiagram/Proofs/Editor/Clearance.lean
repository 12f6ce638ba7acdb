/-
# Editing keeps tables apart

The canvas of an editor holds the tables of its last drawing and their positions.  It changes when
a text is drawn, with the positions so far and none saved, and when a table is dragged; a step
that fails leaves it as it is.

* `Board`, `Board.Step` : the canvas, and what is done with it;
* `Board.Quiet` : a drawing without a warning in which no table grows that was there;
* `Board.Clear` : the tables have whole positions and keep their distance;
* `Board.run_clear` : after quiet steps from the empty canvas, they do.

The distance that is kept is the smaller one of the spacings for placing and for dragging, so
what either of them ensures lasts.
-/
import SchemaDiagram.Editor.Session
import SchemaDiagram.Proofs.Canvas.Drag
import SchemaDiagram.Proofs.Placement.Safety
import SchemaDiagram.Proofs.Schema.Tables

namespace SchemaDiagram

/-- The tables on the canvas of an editor, and their positions. -/
structure Board where
  tables : Registry (Table Quantity)
  positions : Registry (Point Quantity)

namespace Board

/-- What is done with a canvas. -/
inductive Step where
  /-- Draws a text. -/
  | edit (text : List Char)
  /-- Drags a table. -/
  | drag (name : String) (delta : Point Quantity)

/-- A canvas on which nothing has been drawn. -/
def empty : Board := ⟨.empty, .empty⟩

/-- The tables and positions of a drawing. -/
def ofDrawing (d : Drawing Quantity) : Board := ⟨d.diagram.tables, d.diagram.positions⟩

/-- The canvas after a step that succeeds. -/
def apply (c : Config) (b : Board) : Step → Except DrawingFault Board
  | .edit text => do return ofDrawing (← Drawing.make c text b.positions .empty)
  | .drag name delta => do
    let tables ← moveTable c b.tables name delta
    return ⟨tables, Session.positionsOf tables⟩

/-- The canvas after a step; one that fails changes nothing. -/
def step (c : Config) (b : Board) (s : Step) : Board :=
  match b.apply c s with
  | .ok b' => b'
  | .error _ => b

/-- The canvas after a list of steps. -/
def run (c : Config) (b : Board) (steps : List Step) : Board := steps.foldl (step c) b

/-! ## Quiet steps -/

/-- A drawing is laid out without a warning, and no table has more fields than the old table of
its name, whose position it keeps. -/
structure QuietDrawing (old : Registry (Table Quantity)) (d : Drawing Quantity) : Prop where
  unwarned : ∀ e ∈ d.layout.log, e.level ≠ .warning
  noGrowth : ∀ e ∈ d.layout.tables.entries, ∀ t ∈ old.get? e.1, e.2.fields.length ≤ t.fields.length

/-- If a step draws a text, the drawing is quiet. -/
def Quiet (c : Config) (b : Board) : Step → Prop
  | .edit text => ∀ d, Drawing.make c text b.positions .empty = .ok d → QuietDrawing b.tables d
  | .drag _ _ => True

/-- All steps of a list are quiet, each on the canvas that it finds. -/
def QuietRun (c : Config) : Board → List Step → Prop
  | _, [] => True
  | b, s :: rest => b.Quiet c s ∧ QuietRun c (b.step c s) rest

instance (old : Registry (Table Quantity)) (d : Drawing Quantity) : Decidable (QuietDrawing old d) :=
  decidable_of_iff
    ((∀ e ∈ d.layout.log, e.level ≠ .warning) ∧
      ∀ e ∈ d.layout.tables.entries, ∀ t ∈ old.get? e.1, e.2.fields.length ≤ t.fields.length)
    ⟨fun h => ⟨h.1, h.2⟩, fun h => ⟨h.1, h.2⟩⟩

instance (c : Config) (b : Board) : (s : Step) → Decidable (b.Quiet c s)
  | .edit text =>
    match h : Drawing.make c text b.positions .empty with
    | .ok d => decidable_of_iff (QuietDrawing b.tables d)
        ⟨fun hd _ he => Except.ok.inj (h.symm.trans he) ▸ hd, fun hq => hq d h⟩
    | .error _ => .isTrue fun _ he => nomatch h.symm.trans he
  | .drag _ _ => .isTrue trivial

instance QuietRun.decidable (c : Config) :
    (b : Board) → (steps : List Step) → Decidable (QuietRun c b steps)
  | _, [] => .isTrue trivial
  | b, s :: rest =>
    have := decidable c (b.step c s) rest
    inferInstanceAs (Decidable (b.Quiet c s ∧ QuietRun c (b.step c s) rest))

/-! ## The invariant -/

/-- The distance that is kept: the smaller one of the two spacings. -/
def spacing (c : Config) : Nat := min c.layout.tableSpacing c.layout.dragSpacing

/-- The tables of a canvas stand under their names, have whole positions and keep their
distance. -/
structure Clear (c : Config) (b : Board) : Prop where
  positions : b.positions = Session.positionsOf b.tables
  named : ∀ name t, b.tables.get? name = some t → t.name = name
  whole : ∀ name t, b.tables.get? name = some t → ∃ q : Point Int, t.position = some (.ofInts q)
  apart : ∀ name other t u, name ≠ other → b.tables.get? name = some t →
    b.tables.get? other = some u →
    Table.ClearOf c.metrics (Arithmetic.ofInt (spacing c)) t u

variable {c : Config} {b b' : Board}

theorem empty_clear (c : Config) : empty.Clear c where
  positions := rfl
  named := fun _ _ h => nomatch h
  whole := fun _ _ h => nomatch h
  apart := fun _ _ _ _ _ h => nomatch h

/-! ## Dragging -/

/-- A table that is put where it keeps the drag spacing to all others is clear of each of them. -/
theorem Clear.clearOf_moved (hb : b.Clear c) {name other : String} {t u : Table Quantity}
    (hne : other ≠ name) (hu : b.tables.get? other = some u) {p : Point Int}
    (hp : Box.collides c.metrics (Arithmetic.ofInt (c.layout.dragSpacing : Nat))
      ⟨.ofInts p, t.fields.length⟩ (boxesOf (othersOf b.tables name)) = .ok false) :
    Table.ClearOf c.metrics (Arithmetic.ofInt (spacing c)) (t.moveTo (.ofInts p)) u := by
  obtain ⟨q, hq⟩ := hb.whole other u hu
  have hother : u ∈ othersOf b.tables name := by
    refine List.mem_filter.2 ⟨(Registry.mem_values_iff _ _).2 ⟨other, hu⟩, ?_⟩
    rw [hb.named other u hu]
    exact decide_eq_true hne
  have hbox := List.mem_filterMap.2 ⟨u, hother, Table.box?_of_position hq⟩
  have hapart := Box.overlaps_whole_eq_false_iff.1
    (show Box.overlaps c.metrics _ (Box.whole ⟨p, t.fields.length⟩) _ = .ok false
      from Box.collides_eq_false_iff.1 hp _ hbox)
  exact (Table.clearOf_iff (u := t.moveTo (.ofInts p)) rfl hq).2
    (hapart.mono (Nat.min_le_right _ _))

/-- A table that is put where it keeps the drag spacing to all others leaves a clear canvas. -/
theorem Clear.insert (hb : b.Clear c) {name : String} {t : Table Quantity}
    (ht : b.tables.get? name = some t) {p : Point Int}
    (hp : Box.collides c.metrics (Arithmetic.ofInt (c.layout.dragSpacing : Nat))
      ⟨.ofInts p, t.fields.length⟩ (boxesOf (othersOf b.tables name)) = .ok false) :
    Clear c ⟨b.tables.insert name (t.moveTo (.ofInts p)),
      Session.positionsOf (b.tables.insert name (t.moveTo (.ofInts p)))⟩ := by
  refine { positions := rfl, named := ?_, whole := ?_, apart := ?_ }
  · intro other u hu
    rw [Registry.get?_insert] at hu
    split at hu
    · next he =>
      rw [← Option.some.inj hu, he]
      exact hb.named name t ht
    · exact hb.named other u hu
  · intro other u hu
    rw [Registry.get?_insert] at hu
    split at hu
    · exact ⟨p, by rw [← Option.some.inj hu]; rfl⟩
    · exact hb.whole other u hu
  · intro first second u v hne hu hv
    rw [Registry.get?_insert] at hu hv
    split at hu
    · next he =>
      rw [if_neg fun h => hne (he.trans h.symm)] at hv
      rw [← Option.some.inj hu]
      exact hb.clearOf_moved (fun h => hne (he.trans h.symm)) hv hp
    · next hfirst =>
      split at hv
      · rw [← Option.some.inj hv]
        -- the test of two boxes gives the same answer the other way around
        exact fun x y hx hy => (hb.clearOf_moved hfirst hu hp y x hy hx).symm
      · exact hb.apart first second u v hne hu hv

/-- A drag leaves a clear canvas. -/
theorem Clear.drag (hb : b.Clear c) {name : String} {delta : Point Quantity}
    {tables : Registry (Table Quantity)} (h : moveTable c b.tables name delta = .ok tables) :
    Clear c ⟨tables, Session.positionsOf tables⟩ := by
  rcases moveTable_cases h with rfl | ⟨t, p, ht, rfl, hp⟩
  · exact ⟨rfl, hb.named, hb.whole, hb.apart⟩
  · exact hb.insert ht hp

/-! ## Drawing -/

/-- The tables of a text before they are placed. -/
def unplacedTables (entities : Registry Entity) : Registry (Table Quantity) :=
  entities.map fun _ e => Table.unplaced e

/-- The layout in a drawing of a text. -/
theorem layOut_of_make {text : List Char} {recent : Registry (Point Quantity)}
    {saved : Registry (Point Quantity) LooseText} {d : Drawing Quantity}
    (h : Drawing.make c text recent saved = .ok d) :
    layOut c (unplacedTables (Document.ofText text).tables)
      (carryPositions (unplacedTables (Document.ofText text).tables) recent saved) =
        .ok d.layout := by
  obtain ⟨layout, hlayout, h⟩ := bind_eq_ok.1 h
  obtain ⟨routes, -, h⟩ := bind_eq_ok.1 h
  rw [← pure_eq_ok.1 h]
  exact hlayout

/-- Only positions on the canvas are carried over. -/
theorem get?_carryPositions {α β : Type} {tables : Registry β} {recent : Registry (Point α)}
    {name : String} {p : Point α} (h : (carryPositions tables recent .empty).get? name = some p) :
    recent.get? name = some p := by
  rw [carryPositions, Registry.get?_filterMap, Option.bind_eq_some_iff] at h
  obtain ⟨v, -, hv⟩ := h
  rw [Registry.get?_empty, Option.or_none] at hv
  exact hv

/-- A position on a clear canvas is the whole position of its table. -/
theorem Clear.get?_positions (hb : b.Clear c) {name : String} {p : Point Quantity}
    (h : b.positions.get? name = some p) :
    ∃ t, b.tables.get? name = some t ∧ t.position = some p ∧ p.IsWhole := by
  rw [hb.positions, Session.positionsOf, Registry.get?_filterMap, Option.bind_eq_some_iff] at h
  obtain ⟨t, ht, hp⟩ := h
  obtain ⟨q, hq⟩ := hb.whole name t ht
  refine ⟨t, ht, hp, q, ?_⟩
  rw [hp, Option.some.injEq] at hq
  exact hq

/-- The tables of a text and the positions on a clear canvas are whole. -/
theorem Clear.wholePositions (hb : b.Clear c) (entities : Registry Entity) :
    WholePositions (unplacedTables entities)
      (carryPositions (unplacedTables entities) b.positions .empty) where
  own := by
    intro e he p hp
    obtain ⟨e', -, rfl⟩ := List.mem_map.1 he
    exact nomatch hp
  given := by
    intro e he
    have hp := get?_carryPositions ((Registry.mem_entries_iff _ e.1 e.2).1 he)
    obtain ⟨t, -, -, hwhole⟩ := hb.get?_positions hp
    exact hwhole

/-- A table that is known when a text is drawn keeps its place on the canvas. -/
theorem Clear.known (hb : b.Clear c) {entities : Registry Entity} {name : String}
    {u : Table Quantity}
    (hu : (knownTables (unplacedTables entities)
      (carryPositions (unplacedTables entities) b.positions .empty)).get? name = some u) :
    ∃ t, b.tables.get? name = some t ∧ u.position = t.position := by
  obtain ⟨t, ht, ⟨p, hp, rfl⟩ | ⟨-, hplaced, -⟩⟩ := get?_knownTables hu
  · obtain ⟨t₀, ht₀, hpos, -⟩ := hb.get?_positions (get?_carryPositions hp)
    exact ⟨t₀, ht₀, hpos.symm⟩
  · -- the tables of a text have no position of their own
    rw [unplacedTables, Registry.get?_map, Option.map_eq_some_iff] at ht
    obtain ⟨e, -, rfl⟩ := ht
    exact nomatch hplaced

/-- Two tables that were on a clear canvas are clear of each other where they were, if they have
not grown. -/
theorem Clear.shrink (hb : b.Clear c) {name other : String} {u v t s : Table Quantity}
    (hne : name ≠ other) (ht : b.tables.get? name = some t) (hs : b.tables.get? other = some s)
    (hu : u.position = t.position) (hv : v.position = s.position)
    (huf : u.fields.length ≤ t.fields.length) (hvf : v.fields.length ≤ s.fields.length) :
    Table.ClearOf c.metrics (Arithmetic.ofInt (spacing c)) u v := by
  obtain ⟨p, hp⟩ := hb.whole name t ht
  obtain ⟨q, hq⟩ := hb.whole other s hs
  have hapart := (Table.clearOf_iff hp hq).1 (hb.apart name other t s hne ht hs)
  exact (Table.clearOf_iff (hu.trans hp) (hv.trans hq)).2 (hapart.shrink rfl huf rfl hvf)

/-- A quiet drawing leaves a clear canvas. -/
theorem Clear.draw (hb : b.Clear c) {text : List Char} {d : Drawing Quantity}
    (h : Drawing.make c text b.positions .empty = .ok d) (hquiet : QuietDrawing b.tables d) :
    Clear c (ofDrawing d) := by
  have hlayout := layOut_of_make h
  have hunwarned : ∀ name, ¬ d.layout.Warned name := by
    rintro name ⟨p, hp, e, he, hlevel⟩
    exact hquiet.unwarned e (List.mem_flatMap.2 ⟨(name, p), hp, he⟩) hlevel
  have hwhole : ∀ name u, d.layout.tables.get? name = some u →
      ∃ q : Point Int, u.position = some (.ofInts q) := by
    obtain ⟨done, hrun, -, -, hget⟩ := layOut_run hlayout
    intro name u hu
    exact (hb.wholePositions _).run hrun ((hget name).symm.trans hu)
  have hfields : ∀ name u t, d.layout.tables.get? name = some u → b.tables.get? name = some t →
      u.fields.length ≤ t.fields.length := by
    intro name u t hu ht
    exact hquiet.noGrowth (name, u) ((Registry.mem_entries_iff _ _ _).2 hu) t ht
  refine { positions := rfl, named := ?_, whole := hwhole, apart := ?_ }
  · intro name u hu
    obtain ⟨t, ht, hentity⟩ := layOut_entity hlayout hu
    rw [unplacedTables, Registry.get?_map, Option.map_eq_some_iff] at ht
    obtain ⟨e, he, rfl⟩ := ht
    rw [hentity]
    exact Document.name_of_get? he
  · intro name other u v hne hu hv
    by_cases hclear : Table.ClearOf c.metrics c.tableSpacing u v
    · obtain ⟨p, hp⟩ := hwhole name u hu
      obtain ⟨q, hq⟩ := hwhole other v hv
      exact (Table.clearOf_iff hp hq).2
        (((Table.clearOf_iff hp hq).1 hclear).mono (Nat.min_le_left _ _))
    -- without a warning only tables that were on the canvas may come closer than that
    · rcases layOut_overlapping (hb.wholePositions _) hlayout hne hu hv hclear with
        ⟨hnu, hnv⟩ | ⟨-, hwarned⟩ | ⟨-, hwarned⟩
      · obtain ⟨t, ht, hut⟩ := hb.known ((layOut_known_or_new hlayout hu).resolve_right hnu)
        obtain ⟨s, hs, hvs⟩ := hb.known ((layOut_known_or_new hlayout hv).resolve_right hnv)
        exact hb.shrink hne ht hs hut hvs (hfields name u t hu ht) (hfields other v s hv hs)
      · exact absurd hwarned (hunwarned name)
      · exact absurd hwarned (hunwarned other)

/-! ## Runs -/

/-- **A quiet step** leaves a clear canvas. -/
theorem Clear.step (hb : b.Clear c) {s : Step} (hquiet : b.Quiet c s) : (b.step c s).Clear c := by
  rw [Board.step]
  cases h : b.apply c s with
  | error fault => exact hb
  | ok b' =>
    cases s with
    | edit text =>
      obtain ⟨d, hd, hb'⟩ := bind_eq_ok.1 h
      rw [← pure_eq_ok.1 hb']
      exact hb.draw hd (hquiet d hd)
    | drag name delta =>
      obtain ⟨tables, htables, hb'⟩ := bind_eq_ok.1 h
      rw [← pure_eq_ok.1 hb']
      exact hb.drag (lift_eq_ok.1 htables)

/-- Quiet steps leave a clear canvas. -/
theorem Clear.run (hb : b.Clear c) {steps : List Step} (hquiet : QuietRun c b steps) :
    (b.run c steps).Clear c := by
  induction steps generalizing b with
  | nil => exact hb
  | cons s rest ih => exact ih (hb.step hquiet.1) hquiet.2

/-- **After quiet steps** from the empty canvas, every table has a whole position, and no two
tables overlap at the smaller one of the two spacings. -/
theorem run_clear (c : Config) (steps : List Step) (hquiet : QuietRun c empty steps) :
    (∀ name t, (empty.run c steps).tables.get? name = some t →
      ∃ q : Point Int, t.position = some (.ofInts q)) ∧
    ∀ name other t u, name ≠ other → (empty.run c steps).tables.get? name = some t →
      (empty.run c steps).tables.get? other = some u →
      Table.ClearOf c.metrics
        (Arithmetic.ofInt (min c.layout.tableSpacing c.layout.dragSpacing : Nat)) t u := by
  have hclear := (empty_clear c).run hquiet
  exact ⟨hclear.whole, hclear.apart⟩

/-- Two tables are drawn, one of them is dragged, and then it loses a field while a third table
appears. -/
def shrinkingSteps : List Step := [
  .edit "Table a \x7b\n  x int\n  y int\n\x7d\nTable b \x7b\n  z int\n\x7d".toList,
  .drag "a" ⟨.whole 400, .whole 300⟩,
  .edit "Table c \x7b\n\x7d\nTable a \x7b\n  x int\n\x7d\nTable b \x7b\n  z int\n\x7d".toList]

theorem run_clear_shrinking :
    QuietRun Config.default empty shrinkingSteps ∧
      (∀ name t, (empty.run Config.default shrinkingSteps).tables.get? name = some t →
        ∃ q : Point Int, t.position = some (.ofInts q)) ∧
      ∀ name other t u, name ≠ other →
        (empty.run Config.default shrinkingSteps).tables.get? name = some t →
        (empty.run Config.default shrinkingSteps).tables.get? other = some u →
        Table.ClearOf Config.default.metrics (Arithmetic.ofInt (40 : Nat)) t u := by
  have hquiet : QuietRun Config.default empty shrinkingSteps := by decide +kernel
  exact ⟨hquiet, run_clear Config.default shrinkingSteps hquiet⟩

end Board

/-! ## Editors -/

namespace Session

variable {c : Config} {s : Session}

/-- The canvas of an editor. -/
def board (s : Session) : Board := ⟨s.tables, s.positions⟩

/-- An editor drags as its canvas does. -/
theorem board_drag (c : Config) (s : Session) (name : String) (delta : Point Quantity) :
    (s.step c (.drag name delta)).1.board = s.board.step c (.drag name delta) := by
  have htables : s.board.tables = s.tables := rfl
  rw [step, drag, Board.step, Board.apply, moveTable, htables]
  cases landing? c s.tables name delta with
  | error fault => rfl
  | ok landing => rfl

/-- An editor without saved positions draws a text as its canvas does, or fails to write a path
and leaves its canvas as it is. -/
theorem board_edit (hs : s.saved = .empty) (c : Config) (text : List Char) :
    (s.step c (.edit (some text))).1.board = s.board.step c (.edit text) ∨
      (s.step c (.edit (some text))).1.board = s.board := by
  obtain ⟨old, tables, positions, saved⟩ := s
  have hempty : saved = .empty := hs
  subst hempty
  dsimp only [step, redraw, Board.step, Board.apply, board, Option.getD_some]
  cases Drawing.make c text positions .empty with
  | error fault => exact Or.inr rfl
  | ok d =>
    dsimp only [bind, Except.bind]
    cases pathsOf d.diagram.connectors with
    | error fault => exact Or.inr rfl
    | ok paths => exact Or.inl rfl

end Session

end SchemaDiagram
