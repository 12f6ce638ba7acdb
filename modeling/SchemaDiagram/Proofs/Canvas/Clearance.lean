/-
# Boxes that keep their distance

On whole coordinates the overlap test cannot fail, and its answer is a statement about four
whole-number inequalities: two boxes do not overlap exactly when one of the four sides separates
them by the spacing.

* `ExactOnWhole` : an arithmetic in which whole coordinates are added and compared exactly;
* `Box.Apart` : two boxes of whole coordinates keep a spacing;
* `Box.overlaps_ofInts`, `Box.overlaps_whole` : the overlap test decides it;
* `Box.Apart.symm`, `Box.Apart.mono`, `Box.Apart.shrink` : the order of the boxes does not matter,
  a smaller spacing is easier to keep, and so is any spacing for smaller boxes;
* `Table.ClearOf` : two tables do not overlap, whichever of them is asked about the other.
-/
import SchemaDiagram.Canvas.Box

namespace SchemaDiagram

/-- Sums and comparisons of whole coordinates are those of the whole numbers. -/
class ExactOnWhole (α : Type) [Arithmetic α] : Prop where
  add : ∀ a b : Int, Arithmetic.add (Arithmetic.ofInt a : α) (Arithmetic.ofInt b) =
    .ok (Arithmetic.ofInt (a + b))
  lt : ∀ a b : Int, Arithmetic.lt (Arithmetic.ofInt a : α) (Arithmetic.ofInt b) = decide (a < b)

instance : ExactOnWhole Quantity := ⟨fun _ _ => rfl, fun _ _ => rfl⟩

namespace Box

variable {m : Metrics}

/-- A box of whole coordinates in an arithmetic. -/
def ofInts {α : Type} [Arithmetic α] (b : Box Int) : Box α := ⟨.ofInts b.corner, b.fieldCount⟩

/-- A box of whole coordinates, as it is drawn. -/
def whole (b : Box Int) : Box Quantity := ⟨.ofInts b.corner, b.fieldCount⟩

/-- The height of a box. -/
def height {α : Type} (m : Metrics) (b : Box α) : Int := m.tableHeight b.fieldCount

/-- One of the four sides separates two boxes by at least the spacing. -/
def Apart (m : Metrics) (spacing : Nat) (a b : Box Int) : Prop :=
  b.corner.x + m.width + spacing ≤ a.corner.x ∨ a.corner.x + m.width + spacing ≤ b.corner.x ∨
    b.corner.y + b.height m + spacing ≤ a.corner.y ∨ a.corner.y + a.height m + spacing ≤ b.corner.y

instance (spacing : Nat) (a b : Box Int) : Decidable (Apart m spacing a b) := by
  unfold Apart
  infer_instance

/-! ## What keeps two boxes apart -/

/-- Boxes are apart in either order. -/
theorem Apart.symm {spacing : Nat} {a b : Box Int} (h : Apart m spacing a b) :
    Apart m spacing b a := by
  rcases h with h | h | h | h
  · exact Or.inr (Or.inl h)
  · exact Or.inl h
  · exact Or.inr (Or.inr (Or.inr h))
  · exact Or.inr (Or.inr (Or.inl h))

/-- Boxes that keep a spacing keep every smaller one. -/
theorem Apart.mono {spacing less : Nat} {a b : Box Int} (h : Apart m spacing a b)
    (hless : less ≤ spacing) : Apart m less a b := by
  unfold Apart at *
  omega

/-- A box with fewer fields is not higher. -/
theorem height_le {α : Type} {a b : Box α} (h : a.fieldCount ≤ b.fieldCount) :
    a.height m ≤ b.height m := by
  have hmul := Nat.mul_le_mul_right m.fieldHeight h
  simp only [height, Metrics.tableHeight]
  omega

/-- Boxes stay apart when they lose fields. -/
theorem Apart.shrink {spacing : Nat} {a b a' b' : Box Int} (h : Apart m spacing a b)
    (ha : a'.corner = a.corner) (hac : a'.fieldCount ≤ a.fieldCount)
    (hb : b'.corner = b.corner) (hbc : b'.fieldCount ≤ b.fieldCount) :
    Apart m spacing a' b' := by
  have hha : a'.height m ≤ a.height m := height_le hac
  have hhb : b'.height m ≤ b.height m := height_le hbc
  unfold Apart at *
  rw [ha, hb]
  omega

/-! ## The overlap test -/

theorem bothHold_ok {ε : Type} (p q : Prop) [Decidable p] [Decidable q] :
    bothHold (.ok (decide p) : Except ε Bool) (.ok (decide q)) = .ok (decide (p ∧ q)) := by
  by_cases hp : p
  · simp [bothHold, Except.bind, hp]
  · simp [bothHold, Except.bind, hp]

section

variable {α : Type} [Arithmetic α] [ExactOnWhole α]

theorem reaches_ofInt (a b length spacing : Int) :
    reaches (Arithmetic.ofInt a : α) (Arithmetic.ofInt b) (Arithmetic.ofInt length)
      (Arithmetic.ofInt spacing) = .ok (decide (a < b + length + spacing)) := by
  rw [← ExactOnWhole.lt (α := α)]
  simp only [reaches, ExactOnWhole.add, bind, Except.bind, pure, Except.pure]

/-- On whole coordinates the overlap test has an answer: whether the boxes are not apart. -/
theorem overlaps_ofInts (spacing : Nat) (a b : Box Int) :
    overlaps m (Arithmetic.ofInt spacing) (a.ofInts : Box α) b.ofInts =
      .ok (decide ¬ Apart m spacing a b) := by
  show bothHold (reaches (Arithmetic.ofInt a.corner.x) (Arithmetic.ofInt b.corner.x)
      (Arithmetic.ofInt m.width) (Arithmetic.ofInt spacing))
    (bothHold (reaches (Arithmetic.ofInt b.corner.x) (Arithmetic.ofInt a.corner.x)
        (Arithmetic.ofInt m.width) (Arithmetic.ofInt spacing))
      (bothHold (reaches (Arithmetic.ofInt a.corner.y) (Arithmetic.ofInt b.corner.y)
          (Arithmetic.ofInt (b.height m)) (Arithmetic.ofInt spacing))
        (reaches (Arithmetic.ofInt b.corner.y) (Arithmetic.ofInt a.corner.y)
          (Arithmetic.ofInt (a.height m)) (Arithmetic.ofInt spacing)))) = _
  simp only [reaches_ofInt, bothHold_ok]
  congr 1
  apply decide_eq_decide.2
  unfold Apart
  omega

/-- The overlap test of boxes of whole coordinates fails exactly when they are apart. -/
theorem overlaps_ofInts_eq_false_iff {spacing : Nat} {a b : Box Int} :
    overlaps m (Arithmetic.ofInt spacing) (a.ofInts : Box α) b.ofInts = .ok false ↔
      Apart m spacing a b := by
  rw [overlaps_ofInts, Except.ok.injEq, decide_eq_false_iff_not, Decidable.not_not]

end

/-- The overlap test of drawn boxes. -/
theorem overlaps_whole (spacing : Nat) (a b : Box Int) :
    overlaps m (Arithmetic.ofInt spacing) a.whole b.whole =
      .ok (decide ¬ Apart m spacing a b) := overlaps_ofInts spacing a b

/-- The overlap test of drawn boxes fails exactly when they are apart. -/
theorem overlaps_whole_eq_false_iff {spacing : Nat} {a b : Box Int} :
    overlaps m (Arithmetic.ofInt spacing) a.whole b.whole = .ok false ↔ Apart m spacing a b :=
  overlaps_ofInts_eq_false_iff

/-! ## The collision test -/

variable {α : Type} [Arithmetic α]

/-- A box collides with none of a list exactly when it overlaps none of them. -/
theorem collides_eq_false_iff {spacing : α} {a : Box α} {bs : List (Box α)} :
    collides m spacing a bs = .ok false ↔ ∀ b ∈ bs, overlaps m spacing a b = .ok false := by
  induction bs with
  | nil => simp [collides]
  | cons b rest ih =>
    rw [List.forall_mem_cons, ← ih, collides]
    cases h : overlaps m spacing a b with
    | error fault => simp [bind, Except.bind]
    | ok overlap => cases overlap <;> simp [bind, Except.bind, pure, Except.pure]

end Box

/-! ## Placed tables -/

/-- A point of whole coordinates. -/
def Point.IsWhole (p : Point Quantity) : Prop := ∃ q : Point Int, p = .ofInts q

instance : DecidablePred Point.IsWhole
  | ⟨.whole x, .whole y⟩ => .isTrue ⟨⟨x, y⟩, rfl⟩
  | ⟨.real _, _⟩ => .isFalse fun ⟨_, h⟩ => nomatch h
  | ⟨.whole _, .real _⟩ => .isFalse fun ⟨_, h⟩ => nomatch h

namespace Table

/-- Two tables do not overlap at a spacing, in either order of the test.  A table without a
position overlaps nothing. -/
def ClearOf (m : Metrics) (spacing : Quantity) (u v : Table Quantity) : Prop :=
  ∀ a b, u.box? = some a → v.box? = some b →
    Box.overlaps m spacing a b = .ok false ∧ Box.overlaps m spacing b a = .ok false

/-- The box of a table at a whole position. -/
theorem box?_of_position {t : Table Quantity} {q : Point Int}
    (h : t.position = some (.ofInts q)) : t.box? = some (Box.whole ⟨q, t.fields.length⟩) := by
  rw [box?, h]
  rfl

/-- Tables at whole positions are clear of each other exactly when their boxes are apart. -/
theorem clearOf_iff {m : Metrics} {spacing : Nat} {u v : Table Quantity} {p q : Point Int}
    (hu : u.position = some (.ofInts p)) (hv : v.position = some (.ofInts q)) :
    ClearOf m (Arithmetic.ofInt spacing) u v ↔
      Box.Apart m spacing ⟨p, u.fields.length⟩ ⟨q, v.fields.length⟩ := by
  constructor
  · intro h
    exact Box.overlaps_whole_eq_false_iff.1 (h _ _ (box?_of_position hu) (box?_of_position hv)).1
  · intro h a b ha hb
    rw [box?_of_position hu, Option.some.injEq] at ha
    rw [box?_of_position hv, Option.some.injEq] at hb
    rw [← ha, ← hb]
    exact ⟨Box.overlaps_whole_eq_false_iff.2 h, Box.overlaps_whole_eq_false_iff.2 h.symm⟩

end Table

end SchemaDiagram
