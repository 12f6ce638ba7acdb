/-
# Boxes on the canvas

A placed table is drawn as a box of fixed width, as high as its fields need.

* `Box.overlaps` : whether two boxes come closer to each other than a spacing;
* `Box.collides` : whether a box overlaps any of a list;
* `farCorner`, `extent` : where the boxes of a drawing end.
-/
import SchemaDiagram.Config
import SchemaDiagram.Number.Arithmetic
import SchemaDiagram.Schema.Entity

namespace SchemaDiagram

/-- A point of the canvas; `y` grows downwards. -/
structure Point (α : Type) where
  x : α
  y : α
deriving DecidableEq, Repr

/-- The point with both coordinates changed. -/
def Point.map {α β : Type} (f : α → β) (p : Point α) : Point β := ⟨f p.x, f p.y⟩

/-- A point of whole coordinates in an arithmetic. -/
def Point.ofInts {α : Type} [Arithmetic α] (p : Point Int) : Point α := p.map Arithmetic.ofInt

/-- An entity that may have a position, which is the upper left corner of its box. -/
structure Table (α : Type) extends Entity where
  position : Option (Point α)
deriving DecidableEq, Repr

/-- The upper left corner of a box, and how many fields it holds. -/
structure Box (α : Type) where
  corner : Point α
  fieldCount : Nat
deriving DecidableEq, Repr

namespace Table

variable {α : Type}

/-- An entity without a position. -/
def unplaced (e : Entity) : Table α := ⟨e, none⟩

/-- The table at another position. -/
def moveTo (t : Table α) (p : Point α) : Table α := { t with position := some p }

/-- The box of a table that has a position. -/
def box? (t : Table α) : Option (Box α) := t.position.map fun p => ⟨p, t.fields.length⟩

end Table

/-- The boxes of the tables that have a position, in order. -/
def boxesOf {α : Type} (tables : List (Table α)) : List (Box α) := tables.filterMap Table.box?

variable {α : Type} [Arithmetic α]

/-- The width of a box as a coordinate. -/
def Metrics.boxWidth (m : Metrics) : α := Arithmetic.ofInt (m.width : Nat)

/-- The height of a box as a coordinate. -/
def Metrics.boxHeight (m : Metrics) (b : Box α) : α :=
  Arithmetic.ofInt (m.tableHeight b.fieldCount : Nat)

/-- Whether `a` lies before the far end of a stretch that begins at `b`, padded by a spacing. -/
def reaches (a b length spacing : α) : Except ArithmeticFault Bool := do
  return Arithmetic.lt a (← Arithmetic.add (← Arithmetic.add b length) spacing)

namespace Box

/-- Whether two boxes come closer than a spacing in both directions.  Boxes exactly the spacing
apart do not overlap. -/
def overlaps (m : Metrics) (spacing : α) (a b : Box α) : Except ArithmeticFault Bool :=
  bothHold (reaches a.corner.x b.corner.x m.boxWidth spacing) <|
  bothHold (reaches b.corner.x a.corner.x m.boxWidth spacing) <|
  bothHold (reaches a.corner.y b.corner.y (m.boxHeight b) spacing)
    (reaches b.corner.y a.corner.y (m.boxHeight a) spacing)

/-- Whether a box overlaps one of a list. -/
def collides (m : Metrics) (spacing : α) (a : Box α) : List (Box α) → Except ArithmeticFault Bool
  | [] => .ok false
  | b :: rest => do
    if ← overlaps m spacing a b then return true else collides m spacing a rest

/-- The lower right corner of a box. -/
def far (m : Metrics) (b : Box α) : Except ArithmeticFault (Point α) := do
  return ⟨← Arithmetic.add b.corner.x m.boxWidth, ← Arithmetic.add b.corner.y (m.boxHeight b)⟩

end Box

/-- The lower right corner of the region that holds a point and all boxes of a list. -/
def farCorner (m : Metrics) (start : Point α) (boxes : List (Box α)) :
    Except ArithmeticFault (Point α) :=
  boxes.foldlM (fun p b => do
    let far ← b.far m
    return ⟨Arithmetic.larger p.x far.x, Arithmetic.larger p.y far.y⟩) start

/-- The lower right corner of a drawing with a margin. -/
def extent (m : Metrics) (margin : α) (boxes : List (Box α)) :
    Except ArithmeticFault (Point α) := do
  let corner ← farCorner m ⟨Arithmetic.origin, Arithmetic.origin⟩ boxes
  return ⟨← Arithmetic.add corner.x margin, ← Arithmetic.add corner.y margin⟩

end SchemaDiagram
