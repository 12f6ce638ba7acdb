/-
# Divisors and steps

Three settings are divisors or steps, and they are positive in every configuration.  So a drawing
never asks for a quotient by zero or for steps of no length, and nothing in it depends on what
these would be.

* `divMod?`, `multiples?` : quotients and steps that are not there for zero;
* `Arithmetic.atZero` : an arithmetic with any other quotients by zero;
* `Config.NeverByZero` : that a drawing asks for no quotient by zero and no steps of no length;
* `Config.neverByZero` : so it is with every configuration;
* `Config.ofRegistry_valid` : what is accepted as a configuration, and what holds of it then.
-/
import SchemaDiagram.Placement.Layout
import SchemaDiagram.Proofs.Config.Acceptance
import SchemaDiagram.Proofs.Number.Bounds

namespace SchemaDiagram

/-! ## Quotients and steps of whole numbers -/

/-- Quotient and remainder by a number other than zero. -/
def divMod? (n d : ℕ) : Option (ℕ × ℕ) := if d = 0 then none else some (n / d, n % d)

/-- The numbers from zero to below a bound, in steps that are not zero. -/
def multiples? (bound step : ℕ) : Option (List ℕ) :=
  if step = 0 then none else some ((List.range bound).filter fun n => step ∣ n)

/-- The multiples of a step up to a number are as many as fit, and zero. -/
theorem filter_dvd_range (step n : ℕ) :
    (List.range (n + 1)).filter (fun m => step ∣ m) =
      (List.range (n / step + 1)).map fun k => k * step := by
  induction n with
  | zero => simp
  | succ n ih =>
    rw [List.range_succ, List.filter_append, ih]
    by_cases h : step ∣ n + 1
    · have hlast : (n / step + 1) * step = n + 1 := by
        rw [← Nat.succ_div_of_dvd h, Nat.div_mul_cancel h]
      rw [Nat.succ_div_of_dvd h, List.range_succ (n := n / step + 1), List.map_append]
      simp [h, hlast]
    · rw [Nat.succ_div_of_not_dvd h]
      simp [h]

/-! ## Other quotients by zero -/

/-- The arithmetic in which quotients by zero have the given answer.  An answer may be a fault, so
a computation that asks for such a quotient is found out. -/
@[reducible] def Arithmetic.atZero {α : Type} (A : Arithmetic α)
    (answer : Except ArithmeticFault ℤ) : Arithmetic α :=
  { A with
    nearestQuotient := fun x n => if n = 0 then answer else A.nearestQuotient x n
    floorQuotient := fun a n => if n = 0 then answer else A.floorQuotient a n
    ceilQuotient := fun a n => if n = 0 then answer else A.ceilQuotient a n }

section

variable {α : Type} (A : Arithmetic α) (answer : Except ArithmeticFault ℤ)

theorem Arithmetic.nearestQuotient_atZero {n : ℕ} (hn : 0 < n) (x : α) :
    (A.atZero answer).nearestQuotient x n = A.nearestQuotient x n :=
  if_neg (Nat.ne_of_gt hn)

theorem Arithmetic.floorQuotient_atZero {n : ℕ} (hn : 0 < n) (a : ℤ) :
    (A.atZero answer).floorQuotient a n = A.floorQuotient a n :=
  if_neg (Nat.ne_of_gt hn)

theorem Arithmetic.ceilQuotient_atZero {n : ℕ} (hn : 0 < n) (a : ℤ) :
    (A.atZero answer).ceilQuotient a n = A.ceilQuotient a n :=
  if_neg (Nat.ne_of_gt hn)

theorem toGrid_atZero {grid : ℕ} (hgrid : 0 < grid) (value : α) :
    @toGrid α (A.atZero answer) grid value = @toGrid α A grid value := by
  unfold toGrid
  rw [Arithmetic.nearestQuotient_atZero A answer hgrid]

theorem clampBetween_atZero {grid : ℕ} (hgrid : 0 < grid) (low high : ℤ) (value : α) :
    @clampBetween α (A.atZero answer) grid low high value =
      @clampBetween α A grid low high value := by
  unfold clampBetween
  rw [toGrid_atZero A answer hgrid, Arithmetic.floorQuotient_atZero A answer hgrid,
    Arithmetic.ceilQuotient_atZero A answer hgrid]

theorem Box.collides_atZero (m : Metrics) (spacing : α) (a : Box α) (boxes : List (Box α)) :
    @Box.collides α (A.atZero answer) m spacing a boxes = @Box.collides α A m spacing a boxes := by
  induction boxes with
  | nil => rfl
  | cons b rest ih =>
    unfold Box.collides
    rw [ih]
    rfl

variable (c : Config) (fieldCount : ℕ) (placed : List (Box α))

namespace Config

theorem clamp_atZero (p : Point α) :
    @clamp α (A.atZero answer) c fieldCount p = @clamp α A c fieldCount p := by
  simp only [clamp, clampBetween_atZero A answer c.layout.gridSize_pos]

theorem tryAt_atZero (stage : Stage) (p : Point α) :
    @tryAt α (A.atZero answer) c fieldCount placed stage p =
      @tryAt α A c fieldCount placed stage p := by
  simp only [tryAt, clamp_atZero, Box.collides_atZero]
  rfl

theorem randomProbe_atZero (u v : Binary64) :
    @randomProbe α (A.atZero answer) c fieldCount u v = @randomProbe α A c fieldCount u v := by
  simp only [randomProbe, toGrid_atZero A answer c.layout.gridSize_pos]
  rfl

theorem trySpiral_atZero (center : Point ℤ) (count k : ℕ) :
    @trySpiral α (A.atZero answer) c fieldCount placed center count k =
      @trySpiral α A c fieldCount placed center count k := by
  induction count generalizing k with
  | zero => rfl
  | succ count ih =>
    simp only [trySpiral, tryAt_atZero, ih]
    rfl

theorem tryRandom_atZero (count : ℕ) (rng : Twister) :
    @tryRandom α (A.atZero answer) c fieldCount placed count rng =
      @tryRandom α A c fieldCount placed count rng := by
  induction count generalizing rng with
  | zero => rfl
  | succ count ih =>
    simp only [tryRandom, tryAt_atZero, randomProbe_atZero, ih]
    rfl

theorem search_atZero :
    @search α (A.atZero answer) c fieldCount placed = @search α A c fieldCount placed := by
  simp only [search, searchSpiral, tryAt_atZero, trySpiral_atZero, tryRandom_atZero]
  rfl

theorem allocate_atZero :
    @allocate α (A.atZero answer) c fieldCount placed = @allocate α A c fieldCount placed := by
  simp only [allocate, clamp_atZero, search_atZero]
  rfl

end Config

theorem layOut_atZero (tables : Registry (Table α)) (positions : Registry (Point α)) :
    @layOut α (A.atZero answer) c tables positions = @layOut α A c tables positions := by
  have hplace : @placeNext α (A.atZero answer) c = @placeNext α A c := by
    funext done entry
    simp only [placeNext, Config.allocate_atZero]
    rfl
  simp only [layOut, hplace]

theorem snap_atZero {grid : ℕ} (hgrid : 0 < grid) (p delta : Point α) :
    @snap α (A.atZero answer) grid p delta = @snap α A grid p delta := by
  simp only [snap, toGrid_atZero A answer hgrid]
  rfl

theorem landing?_atZero (tables : Registry (Table α)) (name : String) (delta : Point α) :
    @landing? α (A.atZero answer) c tables name delta = @landing? α A c tables name delta := by
  simp only [landing?, wouldOverlap, snap_atZero A answer c.layout.gridSize_pos,
    Box.collides_atZero]
  rfl

theorem moveTable_atZero (tables : Registry (Table α)) (name : String) (delta : Point α) :
    @moveTable α (A.atZero answer) c tables name delta = @moveTable α A c tables name delta := by
  simp only [moveTable, landing?_atZero]
  rfl

end

/-! ## No configuration divides by zero -/

/-- That what is computed in an arithmetic is the same whatever quotients by zero are. -/
def IgnoresZero {α β : Type} (f : Arithmetic α → β) : Prop :=
  ∀ (A : Arithmetic α) (answer : Except ArithmeticFault ℤ), f (A.atZero answer) = f A

/-- A configuration under which no table is placed, clamped or dragged with a quotient by zero,
and the spiral turns in steps that are not zero. -/
structure Config.NeverByZero (c : Config) : Prop where
  gridSize : 0 < c.layout.gridSize
  columns : 0 < c.layout.columns
  spiralStep : 0 < c.layout.spiralStepDegrees
  /-- Beside a double, the grid size is no double zero. -/
  gridDouble : ∀ negative place,
    Binary64.ofInt c.layout.gridSize = .ok (.finite negative place) → 0 < place.val
  /-- Row and column of a slot are a quotient by the number of columns and its remainder. -/
  slot : ∀ fieldCount index, ∃ row column,
    divMod? index c.layout.columns = some (row, column) ∧
      c.slot fieldCount index = ⟨c.bounds.anchor.x + column * c.columnPitch,
        c.bounds.anchor.y + row * c.rowPitch fieldCount⟩
  /-- The spiral goes through the angles of a turn, for one radius after another. -/
  spiral : ∃ angles, multiples? 360 c.layout.spiralStepDegrees = some angles ∧
    0 < angles.length ∧ c.spiralLength =
      min c.layout.maxSpiralAttempts (c.layout.spiralRadii * angles.length) ∧
    ∀ {α : Type} [Arithmetic α] (fieldCount : ℕ) (center : Point ℤ) (k : ℕ), ∃ angle,
      angles[k % angles.length]? = some angle ∧
      (c.spiralProbe fieldCount center k : Except ArithmeticFault (Point α)) = do
        let radius := k / angles.length + 1
        return ⟨← offsetBy center.x (radius * c.columnPitch) (Angle.cosine angle),
          ← offsetBy center.y (radius * c.rowPitch fieldCount) (Angle.sine angle)⟩
  clamp : ∀ {α : Type} fieldCount (p : Point α),
    IgnoresZero fun _ : Arithmetic α => c.clamp fieldCount p
  allocate : ∀ {α : Type} fieldCount (placed : List (Box α)),
    IgnoresZero fun _ : Arithmetic α => c.allocate fieldCount placed
  layOut : ∀ {α : Type} (tables : Registry (Table α)) positions,
    IgnoresZero fun _ : Arithmetic α => layOut c tables positions
  landing : ∀ {α : Type} (tables : Registry (Table α)) name delta,
    IgnoresZero fun _ : Arithmetic α => landing? c tables name delta
  moveTable : ∀ {α : Type} (tables : Registry (Table α)) name delta,
    IgnoresZero fun _ : Arithmetic α => moveTable c tables name delta

namespace Config

variable (c : Config)

/-- The angles of a turn are there. -/
theorem multiples?_spiralStep :
    multiples? 360 c.layout.spiralStepDegrees =
      some ((List.range c.spiralDirections).map fun k => k * c.layout.spiralStepDegrees) := by
  rw [multiples?, if_neg (Nat.ne_of_gt c.layout.spiralStepDegrees_pos), filter_dvd_range]
  rfl

/-- **No configuration** divides by zero or takes steps of no length. -/
theorem neverByZero : c.NeverByZero where
  gridSize := c.layout.gridSize_pos
  columns := c.layout.columns_pos
  spiralStep := c.layout.spiralStepDegrees_pos
  gridDouble := fun _ _ h => Nat.pos_of_ne_zero
    (Binary64.ne_zero_of_one_le (Binary64.one_le_of_ofInt c.layout.gridSize_pos h))
  slot := fun _ index => ⟨_, _, if_neg (Nat.ne_of_gt c.layout.columns_pos), rfl⟩
  spiral := by
    refine ⟨_, c.multiples?_spiralStep, ?_⟩
    rw [List.length_map, List.length_range]
    refine ⟨Nat.succ_pos _, rfl, fun fieldCount center k => ⟨_, ?_, rfl⟩⟩
    have hk : k % c.spiralDirections < c.spiralDirections := Nat.mod_lt _ (Nat.succ_pos _)
    rw [List.getElem?_map, List.getElem?_range hk]
    rfl
  clamp := fun fieldCount p A answer => clamp_atZero A answer c fieldCount p
  allocate := fun fieldCount placed A answer => allocate_atZero A answer c fieldCount placed
  layOut := fun tables positions A answer => layOut_atZero A answer c tables positions
  landing := fun tables name delta A answer => landing?_atZero A answer c tables name delta
  moveTable := fun tables name delta A answer => moveTable_atZero A answer c tables name delta

/-! ## Accepted configurations -/

/-- **A file is accepted** as a configuration exactly when it is acceptable, and refused
otherwise.  Each setting then has the number that the file gives it or its default, whatever the
order of its names; and nothing is divided by zero. -/
theorem ofRegistry_valid (data : Registry Datum LooseText) :
    ((∃ c, ofRegistry data = .ok c) ↔ Acceptable data) ∧
    ((∃ fault, ofRegistry data = .error fault) ↔ ¬ Acceptable data) ∧
    ∀ c, ofRegistry data = .ok c →
      c.sections = default.sections.map (fun part =>
        (part.1, part.2.map fun s => (s.1, (given? data part.1 s.1).getD s.2))) ∧
      (∀ other, SameSettings data other → ofRegistry other = .ok c) ∧
      c.NeverByZero := by
  refine ⟨exists_ofRegistry_iff, ?_, fun c hc => ?_⟩
  · rw [← exists_ofRegistry_iff]
    cases ofRegistry data with
    | ok c => exact iff_of_false (fun ⟨fault, h⟩ => by cases h) fun h => h ⟨c, rfl⟩
    | error fault => exact iff_of_true ⟨fault, rfl⟩ fun ⟨c, h⟩ => by cases h
  · exact ⟨sections_of_ofRegistry hc, fun other h => ofRegistry_congr h hc, c.neverByZero⟩

/-- Two sections, the same two in the other order, and a section without columns. -/
theorem ofRegistry_valid_sample :
    (∃ c, ofRegistry (.ofList [("layout", .dict [("columns", .int 4), ("grid_size", .int 10)]),
        ("bounds", .dict [("min_x", .int 0)])]) = .ok c ∧
      ofRegistry (.ofList [("bounds", .dict [("min_x", .int 0)]),
        ("layout", .dict [("grid_size", .int 10), ("columns", .int 4)])]) = .ok c ∧
      c = { Config.default with
        bounds := { Config.default.bounds with minX := 0 }
        layout := { Config.default.layout with
          gridSize := 10, gridSize_pos := by decide, columns := 4, columns_pos := by decide } } ∧
      c.NeverByZero) ∧
    ∃ fault, ofRegistry (.ofList [("layout", .dict [("columns", .int 0)])]) = .error fault := by
  constructor
  · obtain ⟨haccepted, -, hvalues⟩ := ofRegistry_valid
      (.ofList [("layout", .dict [("columns", .int 4), ("grid_size", .int 10)]),
        ("bounds", .dict [("min_x", .int 0)])])
    have hlayout : AcceptableSection (LayoutSettings.settings.map Setting.name)
        (.dict [("columns", .int 4), ("grid_size", .int 10)]) := by
      refine .of_entries (List.forall_mem_cons.2 ⟨?_, List.forall_mem_singleton.2 ?_⟩)
      · exact ⟨"columns", by decide, rfl, 4, rfl, by decide, by decide⟩
      · exact ⟨"grid_size", by decide, rfl, 10, rfl, by decide, by decide⟩
    have hbounds : AcceptableSection (Bounds.settings.map Setting.name)
        (.dict [("min_x", .int 0)]) :=
      .of_entries <| List.forall_mem_singleton.2
        ⟨"min_x", by decide, rfl, 0, rfl, by decide, by decide⟩
    obtain ⟨c, hc⟩ := haccepted.2 <| .of_entries <| List.forall_mem_cons.2
      ⟨⟨("layout", Setting.values LayoutSettings.settings Config.default.layout),
        by simp [sections], rfl, hlayout⟩, List.forall_mem_singleton.2
        ⟨("bounds", Setting.values Bounds.settings Config.default.bounds),
          by simp [sections], rfl, hbounds⟩⟩
    obtain ⟨hsections, hother, hsafe⟩ := hvalues c hc
    refine ⟨c, hc, hother _ fun name => ?_, eq_of_sections (hsections.trans ?_), hsafe⟩
    · simp only [Registry.ofList, List.foldl, Registry.get?_insert, Registry.get?_empty]
      by_cases hbounds : name = "bounds"
      · subst hbounds
        exact .some (Or.inl rfl)
      · rw [if_neg hbounds, if_neg hbounds]
        split
        · exact .some (.of_perm (by decide) (List.Perm.swap _ _ _))
        · exact .none
    · rfl
  · refine (ofRegistry_valid _).2.1.2 fun h => ?_
    obtain ⟨part, hpart, hname, entries, hentries, hvalues⟩ := h "layout" _ rfl
    cases hentries
    obtain ⟨setting, hsetting, hname, n, hn, hnonneg, hpos⟩ := hvalues "columns" _ rfl
    cases hn
    rw [← LooseText.ofString_injective hname] at hpos
    exact absurd (hpos (by decide)) (by decide)

end Config

end SchemaDiagram
