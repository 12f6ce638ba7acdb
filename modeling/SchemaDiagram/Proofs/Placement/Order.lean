/-
# The order of the placed tables

Every stage of the search for room looks at the placed tables as a whole: how many there are, where
their boxes end, and whether a candidate overlaps one of them.  When their positions are whole,
none of this depends on the order in which the tables were placed.

* `Box.collides_perm` : the collision test;
* `farCorner_perm` : the corner of the region that is in use;
* `Config.allocate_perm` : the whole search;
* `Config.allocate_renamed` : beside tables of any names and any keys.
-/
import Mathlib.Data.List.Perm.Basic
import SchemaDiagram.Placement.Allocate
import SchemaDiagram.Proofs.Canvas.Clearance
import SchemaDiagram.Proofs.Registry

namespace SchemaDiagram

/-- All boxes of a list have whole coordinates. -/
def WholeBoxes (placed : List (Box Quantity)) : Prop := ∀ b ∈ placed, ∃ q : Box Int, b = q.whole

theorem WholeBoxes.perm {placed placed' : List (Box Quantity)} (h : WholeBoxes placed)
    (hperm : placed.Perm placed') : WholeBoxes placed' :=
  fun b hb => h b (hperm.mem_iff.2 hb)

/-- The boxes of tables at whole positions. -/
theorem wholeBoxes_boxesOf {tables : List (Table Quantity)}
    (h : ∀ t ∈ tables, ∀ p, t.position = some p → p.IsWhole) : WholeBoxes (boxesOf tables) := by
  intro b hb
  obtain ⟨t, ht, hbox⟩ := List.mem_filterMap.1 hb
  obtain ⟨p, hp, -⟩ := Option.map_eq_some_iff.1 hbox
  obtain ⟨q, rfl⟩ := h t ht p hp
  rw [Table.box?_of_position hp] at hbox
  exact ⟨_, (Option.some.inj hbox).symm⟩

/-! ## Collisions -/

namespace Box

variable {m : Metrics}

/-- A whole box collides with boxes exactly when it overlaps one of them. -/
theorem collides_whole (spacing : Nat) (a : Box Int) {placed : List (Box Quantity)}
    (h : WholeBoxes placed) :
    ∃ taken, collides m (Arithmetic.ofInt spacing) a.whole placed = .ok taken ∧
      (taken = true ↔
        ∃ b ∈ placed, overlaps m (Arithmetic.ofInt spacing) a.whole b = .ok true) := by
  induction placed with
  | nil => exact ⟨false, rfl, by simp⟩
  | cons b rest ih =>
    obtain ⟨taken, htaken, hiff⟩ := ih fun b' hb' => h b' (List.mem_cons_of_mem b hb')
    obtain ⟨q, hq⟩ := h b List.mem_cons_self
    have hoverlaps := overlaps_whole (m := m) spacing a q
    rw [← hq] at hoverlaps
    rw [collides, hoverlaps]
    by_cases hapart : Apart m spacing a q
    · refine ⟨taken, ?_, ?_⟩
      · simpa [hapart, bind, Except.bind] using htaken
      · rw [hiff]
        simp [hoverlaps, hapart]
    · refine ⟨true, ?_, ?_⟩
      · simp [hapart, bind, Except.bind, pure, Except.pure]
      · simp [hoverlaps, hapart]

/-- The collision test does not depend on the order of the boxes. -/
theorem collides_perm (spacing : Nat) (a : Box Int) {placed placed' : List (Box Quantity)}
    (h : WholeBoxes placed) (hperm : placed.Perm placed') :
    collides m (Arithmetic.ofInt spacing) a.whole placed =
      collides m (Arithmetic.ofInt spacing) a.whole placed' := by
  obtain ⟨taken, htaken, hiff⟩ := collides_whole (m := m) spacing a h
  obtain ⟨taken', htaken', hiff'⟩ := collides_whole (m := m) spacing a (h.perm hperm)
  have hsame : taken = taken' := by
    rw [Bool.eq_iff_iff, hiff, hiff']
    simp only [hperm.mem_iff]
  rw [htaken, htaken', hsame]

end Box

/-! ## The region in use -/

/-- The lower right corner of the region that holds a point and a whole box. -/
def farther (m : Metrics) (p : Point Int) (b : Box Int) : Point Int :=
  ⟨max p.x (b.corner.x + m.width), max p.y (b.corner.y + b.height m)⟩

theorem larger_whole (a b : Int) :
    Arithmetic.larger (.whole a : Quantity) (.whole b) = .whole (max a b) := by
  show (if decide (a < b) = true then Quantity.whole b else Quantity.whole a) = _
  by_cases h : a < b
  · rw [if_pos (by simpa using h), Int.max_eq_right (Int.le_of_lt h)]
  · rw [if_neg (by simpa using h), Int.max_eq_left (Int.not_lt.1 h)]

/-- The corner of whole boxes is found box by box. -/
theorem farCorner_whole (m : Metrics) (start : Point Int) (boxes : List (Box Int)) :
    farCorner m (.ofInts start : Point Quantity) (boxes.map Box.whole) =
      .ok (.ofInts (boxes.foldl (farther m) start)) := by
  induction boxes generalizing start with
  | nil => rfl
  | cons b rest ih =>
    have hstep : (⟨Arithmetic.larger (.whole start.x) (.whole (b.corner.x + m.width)),
        Arithmetic.larger (.whole start.y) (.whole (b.corner.y + b.height m))⟩ : Point Quantity) =
          .ofInts (farther m start b) := by
      rw [larger_whole, larger_whole]
      rfl
    have hrest := ih (farther m start b)
    rw [← hstep] at hrest
    exact hrest

/-- The corner does not depend on which of two boxes comes first. -/
theorem farther_right_comm (m : Metrics) (p : Point Int) (a b : Box Int) :
    farther m (farther m p a) b = farther m (farther m p b) a := by
  simp only [farther, Point.mk.injEq]
  omega

theorem Box.whole_injective : Function.Injective Box.whole := by
  rintro ⟨⟨x, y⟩, n⟩ ⟨⟨x', y'⟩, n'⟩ h
  cases h
  rfl

/-- Whole boxes are drawn from boxes of whole numbers. -/
theorem WholeBoxes.exists_map {placed : List (Box Quantity)} (h : WholeBoxes placed) :
    ∃ boxes : List (Box Int), placed = boxes.map Box.whole := by
  induction placed with
  | nil => exact ⟨[], rfl⟩
  | cons b rest ih =>
    obtain ⟨boxes, hboxes⟩ := ih fun b' hb' => h b' (List.mem_cons_of_mem b hb')
    obtain ⟨q, hq⟩ := h b List.mem_cons_self
    exact ⟨q :: boxes, by rw [hq, hboxes, List.map_cons]⟩

/-- The corner of the region in use does not depend on the order of the boxes. -/
theorem farCorner_perm (m : Metrics) (start : Point Int) {placed placed' : List (Box Quantity)}
    (h : WholeBoxes placed) (hperm : placed.Perm placed') :
    farCorner m (.ofInts start) placed = farCorner m (.ofInts start) placed' := by
  obtain ⟨boxes, rfl⟩ := h.exists_map
  obtain ⟨boxes', rfl⟩ := (h.perm hperm).exists_map
  rw [List.map_perm_map_iff Box.whole_injective] at hperm
  have hcorner := hperm.foldl_eq' (fun a _ b _ p => farther_right_comm m p a b) start
  rw [farCorner_whole, farCorner_whole, hcorner]

/-! ## The search -/

namespace Config

variable {c : Config} {fieldCount : Nat} {placed placed' : List (Box Quantity)}

/-- A candidate is accepted or refused whatever the order of the boxes. -/
theorem tryAt_perm (h : WholeBoxes placed) (hperm : placed.Perm placed') (stage : Stage)
    (p : Point Quantity) :
    c.tryAt fieldCount placed stage p = c.tryAt fieldCount placed' stage p := by
  have hcollides : ∀ q : Point Int,
      Box.collides c.metrics c.tableSpacing ⟨.ofInts q, fieldCount⟩ placed =
        Box.collides c.metrics c.tableSpacing ⟨.ofInts q, fieldCount⟩ placed' := fun q =>
    Box.collides_perm c.layout.tableSpacing ⟨q, fieldCount⟩ h hperm
  unfold tryAt
  simp only [hcollides, hperm.length_eq]

theorem trySpiral_perm (h : WholeBoxes placed) (hperm : placed.Perm placed') (center : Point Int)
    (count k : Nat) :
    c.trySpiral fieldCount placed center count k =
      c.trySpiral fieldCount placed' center count k := by
  induction count generalizing k with
  | zero => rfl
  | succ count ih => simp only [trySpiral, tryAt_perm h hperm, ih]

theorem tryRandom_perm (h : WholeBoxes placed) (hperm : placed.Perm placed') (count : Nat)
    (rng : Twister) :
    c.tryRandom fieldCount placed count rng = c.tryRandom fieldCount placed' count rng := by
  induction count generalizing rng with
  | zero => rfl
  | succ count ih => simp only [tryRandom, tryAt_perm h hperm, ih]

/-- No stage of the search looks at the order of the boxes; the random one starts from their
number. -/
theorem search_perm (h : WholeBoxes placed) (hperm : placed.Perm placed') :
    c.search fieldCount placed = c.search fieldCount placed' := by
  have hbeside : c.besidePoint placed = c.besidePoint placed' := by
    rw [besidePoint, besidePoint, usedCorner, usedCorner, farCorner_perm _ _ h hperm]
  have hbelow : c.belowPoint placed = c.belowPoint placed' := by
    rw [belowPoint, belowPoint, usedCorner, usedCorner, farCorner_perm _ _ h hperm]
  simp only [search, searchSpiral, tryAt_perm h hperm, trySpiral_perm h hperm,
    tryRandom_perm h hperm, hbeside, hbelow, hperm.length_eq]

/-- **The placement** of a table is the same beside the same boxes in another order. -/
theorem allocate_perm (h : WholeBoxes placed) (hperm : placed.Perm placed') :
    c.allocate fieldCount placed = c.allocate fieldCount placed' := by
  have hempty : placed.isEmpty = placed'.isEmpty := by
    rw [Bool.eq_iff_iff, List.isEmpty_iff_length_eq_zero, List.isEmpty_iff_length_eq_zero,
      hperm.length_eq]
  simp only [allocate, search_perm h hperm, hempty, hperm.length_eq]

end Config

/-! ## Tables under other names -/

/-- **Names and order** of the placed tables do not matter: a table is placed alike, and the same is
told about it, beside tables with as many fields at the same positions, whatever their keys, names
and fields are and however many others have no position. -/
theorem Config.allocate_renamed (c : Config) (fields : List Field)
    {tables tables' : Registry (Table Quantity)}
    (hwhole : ∀ t ∈ tables.values, ∀ p, t.position = some p → p.IsWhole)
    (hboxes : (boxesOf tables.values).Perm (boxesOf tables'.values)) :
    c.allocate fields.length (boxesOf tables.values) =
        c.allocate fields.length (boxesOf tables'.values) ∧
      (c.allocate fields.length (boxesOf tables.values)).map Placement.log =
        (c.allocate fields.length (boxesOf tables'.values)).map Placement.log := by
  have hsame : c.allocate fields.length (boxesOf tables.values) =
      c.allocate fields.length (boxesOf tables'.values) :=
    allocate_perm (wholeBoxes_boxesOf hwhole) hboxes
  exact ⟨hsame, by rw [hsame]⟩

/-- Two placed tables, the second of which lies where a third one would go, and one without a
position. -/
def namedTables : Registry (Table Quantity) :=
  .ofList [
    ("users", ⟨⟨"users", [⟨"id", "int", true, true, none⟩]⟩, some ⟨.whole 60, .whole 60⟩⟩),
    ("draft", .unplaced ⟨"draft", []⟩),
    ("tags", ⟨⟨"tags", []⟩, some ⟨.whole 690, .whole 60⟩⟩)]

/-- Tables of other names at the same positions, the other way round, and two without one. -/
def renamedTables : Registry (Table Quantity) :=
  .ofList [
    ("b", ⟨⟨"labels", []⟩, some ⟨.whole 690, .whole 60⟩⟩),
    ("x", .unplaced ⟨"x", [⟨"n", "int", false, false, none⟩]⟩),
    ("y", .unplaced ⟨"y", []⟩),
    ("a", ⟨⟨"people", [⟨"name", "text", false, false, none⟩]⟩, some ⟨.whole 60, .whole 60⟩⟩)]

theorem Config.allocate_renamed_labels :
    (∀ t ∈ namedTables.values, ∀ p, t.position = some p → p.IsWhole) ∧
      (boxesOf namedTables.values).Perm (boxesOf renamedTables.values) ∧
      Config.default.allocate 1 (boxesOf namedTables.values) =
        Config.default.allocate 1 (boxesOf renamedTables.values) ∧
      (Config.default.allocate 1 (boxesOf namedTables.values)).map Placement.log =
        (Config.default.allocate 1 (boxesOf renamedTables.values)).map Placement.log := by
  have hwhole : ∀ t ∈ namedTables.values, ∀ p, t.position = some p → p.IsWhole := by
    decide +kernel
  have hboxes : (boxesOf namedTables.values).Perm (boxesOf renamedTables.values) := by
    decide +kernel
  exact ⟨hwhole, hboxes,
    allocate_renamed Config.default [⟨"id", "int", true, true, none⟩] hwhole hboxes⟩

end SchemaDiagram
