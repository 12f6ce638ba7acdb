/-
# Configuration

The settings of a drawing, in four sections.  All of them are whole numbers and none is negative;
the three that are used as divisors or step sizes are positive by their type.

* `Bounds` : the region that tables may be placed in;
* `Metrics` : the dimensions of a table box;
* `LayoutSettings`, `RoutingSettings` : how tables are placed and connectors drawn.
-/

namespace SchemaDiagram

/-- The rectangular region that tables may be placed in. -/
structure Bounds where
  minX : Nat
  minY : Nat
  width : Nat
  height : Nat
  padding : Nat
deriving DecidableEq, Repr

/-- The dimensions of a table box. -/
structure Metrics where
  width : Nat
  headerHeight : Nat
  fieldHeight : Nat
  /-- Where the middle of a field's row lies below its top. -/
  fieldCenterOffset : Nat
deriving DecidableEq, Repr

/-- How tables are placed and where they may be dropped. -/
structure LayoutSettings where
  gridSize : Nat
  tableSpacing : Nat
  dragSpacing : Nat
  columns : Nat
  spiralRadii : Nat
  spiralStepDegrees : Nat
  maxSpiralAttempts : Nat
  randomAttempts : Nat
  fallbackStep : Nat
  gridSize_pos : 0 < gridSize
  columns_pos : 0 < columns
  spiralStepDegrees_pos : 0 < spiralStepDegrees
deriving DecidableEq, Repr

/-- How connectors and their markers are drawn. -/
structure RoutingSettings where
  detourPadding : Nat
  curveRadius : Nat
  endpointOffset : Nat
  markerSize : Nat
deriving DecidableEq, Repr

/-- All settings. -/
structure Config where
  bounds : Bounds
  metrics : Metrics
  layout : LayoutSettings
  routing : RoutingSettings
deriving DecidableEq, Repr

/-! ## Defaults -/

/-- The settings where nothing else is said. -/
def Config.default : Config where
  bounds := { minX := 20, minY := 20, width := 3000, height := 2000, padding := 40 }
  metrics := { width := 200, headerHeight := 32, fieldHeight := 27, fieldCenterOffset := 13 }
  layout := {
    gridSize := 20, tableSpacing := 60, dragSpacing := 40, columns := 3, spiralRadii := 20,
    spiralStepDegrees := 15, maxSpiralAttempts := 400, randomAttempts := 50, fallbackStep := 10,
    gridSize_pos := by decide, columns_pos := by decide, spiralStepDegrees_pos := by decide }
  routing := { detourPadding := 35, curveRadius := 5, endpointOffset := 3, markerSize := 6 }

/-! ## Derived dimensions -/

/-- The height of a table box with the given number of fields. -/
def Metrics.tableHeight (m : Metrics) (fieldCount : Nat) : Nat :=
  m.headerHeight + fieldCount * m.fieldHeight

end SchemaDiagram
