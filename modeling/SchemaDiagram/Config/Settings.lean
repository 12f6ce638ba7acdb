/-
# Reading a configuration

A configuration is read from a data file: a dictionary of sections, each a dictionary of
settings over the defaults.  Names must be known and values must be whole numbers that are not
negative, and not zero where a setting divides or steps.

* `Setting` : a named setting of a section, read and changed;
* `Config.ofRegistry` : the configuration that a file says, or the first `ConfigFault`;
* `Config.sections` : all settings with their values.
-/
import SchemaDiagram.Config
import SchemaDiagram.Datum

namespace SchemaDiagram

/-! ## Settings by name -/

/-- A named setting of a section.  Changing it gives nothing when the value must be positive
and is not. -/
structure Setting (σ : Type) where
  name : String
  get : σ → Nat
  set? : σ → Nat → Option σ

/-- The settings of the bounds. -/
def Bounds.settings : List (Setting Bounds) := [
  ⟨"min_x", minX, fun b n => some { b with minX := n }⟩,
  ⟨"min_y", minY, fun b n => some { b with minY := n }⟩,
  ⟨"width", width, fun b n => some { b with width := n }⟩,
  ⟨"height", height, fun b n => some { b with height := n }⟩,
  ⟨"padding", padding, fun b n => some { b with padding := n }⟩]

/-- The settings of the table metrics. -/
def Metrics.settings : List (Setting Metrics) := [
  ⟨"width", width, fun m n => some { m with width := n }⟩,
  ⟨"header_height", headerHeight, fun m n => some { m with headerHeight := n }⟩,
  ⟨"field_height", fieldHeight, fun m n => some { m with fieldHeight := n }⟩,
  ⟨"field_center_offset", fieldCenterOffset, fun m n => some { m with fieldCenterOffset := n }⟩]

/-- The settings of the layout. -/
def LayoutSettings.settings : List (Setting LayoutSettings) := [
  ⟨"grid_size", gridSize, fun s n =>
    if h : 0 < n then some { s with gridSize := n, gridSize_pos := h } else none⟩,
  ⟨"table_spacing", tableSpacing, fun s n => some { s with tableSpacing := n }⟩,
  ⟨"drag_spacing", dragSpacing, fun s n => some { s with dragSpacing := n }⟩,
  ⟨"columns", columns, fun s n =>
    if h : 0 < n then some { s with columns := n, columns_pos := h } else none⟩,
  ⟨"spiral_radii", spiralRadii, fun s n => some { s with spiralRadii := n }⟩,
  ⟨"spiral_step_degrees", spiralStepDegrees, fun s n =>
    if h : 0 < n then some { s with spiralStepDegrees := n, spiralStepDegrees_pos := h }
    else none⟩,
  ⟨"max_spiral_attempts", maxSpiralAttempts, fun s n => some { s with maxSpiralAttempts := n }⟩,
  ⟨"random_attempts", randomAttempts, fun s n => some { s with randomAttempts := n }⟩,
  ⟨"fallback_step", fallbackStep, fun s n => some { s with fallbackStep := n }⟩]

/-- The settings of the routing. -/
def RoutingSettings.settings : List (Setting RoutingSettings) := [
  ⟨"detour_padding", detourPadding, fun s n => some { s with detourPadding := n }⟩,
  ⟨"curve_radius", curveRadius, fun s n => some { s with curveRadius := n }⟩,
  ⟨"endpoint_offset", endpointOffset, fun s n => some { s with endpointOffset := n }⟩,
  ⟨"marker_size", markerSize, fun s n => some { s with markerSize := n }⟩]

/-- The names and values of settings. -/
def Setting.values {σ : Type} (settings : List (Setting σ)) (current : σ) : List (String × Nat) :=
  settings.map fun s => (s.name, s.get current)

/-- All settings with their values, by section. -/
def Config.sections (c : Config) : List (String × List (String × Nat)) := [
  ("bounds", Setting.values Bounds.settings c.bounds),
  ("metrics", Setting.values Metrics.settings c.metrics),
  ("layout", Setting.values LayoutSettings.settings c.layout),
  ("routing", Setting.values RoutingSettings.settings c.routing)]

/-! ## Faults -/

/-- Why a configuration is refused. -/
inductive ConfigFault where
  | unknownSections (names : List LooseText)
  | notATable (sectionName : String)
  | unknownSettings (sectionName : String) (names : List LooseText)
  | notAnInteger (sectionName : String) (setting : LooseText) (value : Datum)
  | negative (sectionName : String) (setting : LooseText) (value : Int)
  | notPositive (sectionName : String) (setting : LooseText)

/-- The wording of a fault. -/
def ConfigFault.message : ConfigFault → LooseText
  | .unknownSections names => "Unknown config section(s): " ++ LooseText.join ", " names
  | .notATable s => "Config section [" ++ s ++ "] must be a table"
  | .unknownSettings s names =>
    "Unknown setting(s) in [" ++ s ++ "]: " ++ LooseText.join ", " names
  | .notAnInteger s setting value =>
    "Setting " ++ s ++ "." ++ setting ++ " must be an integer, got " ++ value.literal
  | .negative s setting value =>
    "Setting " ++ s ++ "." ++ setting ++ " must be >= 0, got " ++ wholeText value
  | .notPositive s setting => "Setting " ++ s ++ "." ++ setting ++ " must be > 0"

/-! ## Reading -/

/-- The names that are not known, sorted by code points. -/
def unknownNames (known : List String) (names : List LooseText) : List LooseText :=
  (names.filter fun n => !(known.map LooseText.ofString).contains n).mergeSort LooseText.atMost

/-- Changes the setting of the given name to a value.  A name that no setting has changes
nothing. -/
def changeSetting {σ : Type} (sectionName : String) (settings : List (Setting σ)) (current : σ)
    (name : LooseText) (value : Datum) : Except ConfigFault σ :=
  match value with
  | .int n =>
    if n < 0 then .error (.negative sectionName name n)
    else
      match settings.find? fun s => s.name = name with
      | none => .ok current
      | some s =>
        match s.set? current n.toNat with
        | some changed => .ok changed
        | none => .error (.notPositive sectionName name)
  | value => .error (.notAnInteger sectionName name value)

/-- A section with the settings of a value applied. -/
def changeSection {σ : Type} (sectionName : String) (settings : List (Setting σ)) (current : σ) :
    Datum → Except ConfigFault σ
  | .dict entries =>
    let given := Registry.ofList entries
    match unknownNames (settings.map Setting.name) given.keys with
    | [] => given.entries.foldlM (fun s e => changeSetting sectionName settings s e.1 e.2) current
    | names => .error (.unknownSettings sectionName names)
  | _ => .error (.notATable sectionName)

/-- A section as it is in a file, or unchanged if the file does not have it. -/
def readSection {σ : Type} (data : Registry Datum LooseText) (sectionName : String)
    (settings : List (Setting σ)) (current : σ) : Except ConfigFault σ :=
  match data.get? sectionName with
  | some d => changeSection sectionName settings current d
  | none => .ok current

/-- The configuration that a file says, over the defaults.  Unknown sections are noticed first,
then the sections are read in their own order. -/
def Config.ofRegistry (data : Registry Datum LooseText) : Except ConfigFault Config :=
  match unknownNames (Config.default.sections.map Prod.fst) data.keys with
  | [] => do
    let bounds ← readSection data "bounds" Bounds.settings Config.default.bounds
    let metrics ← readSection data "metrics" Metrics.settings Config.default.metrics
    let layout ← readSection data "layout" LayoutSettings.settings Config.default.layout
    let routing ← readSection data "routing" RoutingSettings.settings Config.default.routing
    return { bounds, metrics, layout, routing }
  | names => .error (.unknownSections names)

end SchemaDiagram
