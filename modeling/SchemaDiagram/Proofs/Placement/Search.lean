/-
# What the search for room finds

However a position was found, it lies between the limits of the canvas, because every candidate is
clamped before it is tried; and unless it is the last resort, it keeps the table spacing to every
placed box, because it was tried where it lies after clamping.

* `Config.Fits` : a placement that keeps its distance;
* `Config.search_finds` : no stage of the search finds anything else;
* `Config.allocate_spec` : what is known of every placement.
-/
import SchemaDiagram.Placement.Allocate
import SchemaDiagram.Proofs.Canvas.Clearance
import SchemaDiagram.Proofs.Canvas.Limits

namespace SchemaDiagram

variable {α : Type} [Arithmetic α]

/-- A position at which a box with the given number of fields overlaps none of a list at the
table spacing. -/
def Config.Clear (c : Config) (fieldCount : Nat) (placed : List (Box α)) (p : Point Int) : Prop :=
  ∀ b ∈ placed, Box.overlaps c.metrics c.tableSpacing ⟨.ofInts p, fieldCount⟩ b = .ok false

/-- A placement between the limits, found by a trial, that is clear of the placed boxes. -/
structure Config.Fits (c : Config) (fieldCount : Nat) (placed : List (Box α)) (p : Placement) :
    Prop where
  within : c.Within fieldCount p.position
  tried : p.stage ≠ .lastResort
  clear : c.Clear fieldCount placed p.position

/-- A search finds nothing but placements with a property. -/
def Finds (Q : Placement → Prop) (search : Except DrawingFault (Option Placement)) : Prop :=
  ∀ p, search = .ok (some p) → Q p

namespace Finds

variable {Q : Placement → Prop}

theorem nothing : Finds Q (.ok none) := fun _ h => nomatch h

theorem fault (fault : DrawingFault) : Finds Q (.error fault) := fun _ h => nomatch h

/-- What two searches find, their combination finds. -/
theorem orElse {first : Except DrawingFault (Option Placement)}
    {second : Unit → Except DrawingFault (Option Placement)} (hfirst : Finds Q first)
    (hsecond : Finds Q (second ())) : Finds Q (Config.orElseSearch first second) := by
  intro p h
  obtain ⟨found, hfound, hp⟩ := bind_eq_ok.1 h
  cases found with
  | none => exact hsecond p hp
  | some q =>
    rw [Except.ok.inj hp] at hfound
    exact hfirst p hfound

/-- What is searched for with a computed candidate. -/
theorem bind {β : Type} {candidate : Except ArithmeticFault β}
    {search : β → Except DrawingFault (Option Placement)} (h : ∀ b, Finds Q (search b)) :
    Finds Q (do search (← candidate)) := by
  intro p hp
  obtain ⟨b, -, hb⟩ := bind_eq_ok.1 hp
  exact h b p hb

end Finds

namespace Config

variable {c : Config} {fieldCount : Nat} {placed : List (Box α)}

/-! ## One candidate -/

/-- A candidate that is accepted fits. -/
theorem tryAt_finds {stage : Stage} (hstage : stage ≠ .lastResort) (p : Point α) :
    Finds (c.Fits fieldCount placed) (c.tryAt fieldCount placed stage p) := by
  intro found h
  rw [tryAt] at h
  obtain ⟨position, hposition, h⟩ := bind_eq_ok.1 h
  obtain ⟨taken, htaken, h⟩ := bind_eq_ok.1 h
  have hfound := pure_eq_ok.1 h
  cases taken with
  | true => exact nomatch hfound
  | false =>
    rw [if_neg Bool.false_ne_true, Option.some.injEq] at hfound
    rw [← hfound]
    exact ⟨clamp_within (lift_eq_ok.1 hposition), hstage,
      Box.collides_eq_false_iff.1 (lift_eq_ok.1 htaken)⟩

/-! ## The stages -/

theorem trySpiral_finds (center : Point Int) (count k : Nat) :
    Finds (c.Fits fieldCount placed) (c.trySpiral fieldCount placed center count k) := by
  induction count generalizing k with
  | zero => exact .nothing
  | succ count ih =>
    rw [trySpiral]
    exact .orElse (.bind fun p => tryAt_finds (by decide) p) (ih (k + 1))

theorem searchSpiral_finds :
    Finds (c.Fits fieldCount placed) (c.searchSpiral fieldCount placed) := by
  rw [searchSpiral]
  split
  · exact .fault _
  · exact trySpiral_finds _ _ _

theorem tryRandom_finds (count : Nat) (rng : Twister) :
    Finds (c.Fits fieldCount placed) (c.tryRandom fieldCount placed count rng) := by
  induction count generalizing rng with
  | zero => exact .nothing
  | succ count ih =>
    rw [tryRandom]
    exact .orElse (.bind fun p => tryAt_finds (by decide) (.ofInts p)) (ih _)

/-- **Every stage** of the search finds placements that fit. -/
theorem search_finds : Finds (c.Fits fieldCount placed) (c.search fieldCount placed) := by
  rw [search]
  refine .orElse (tryAt_finds (by decide) _) ?_
  refine .orElse searchSpiral_finds ?_
  refine .orElse (.bind fun p => tryAt_finds (by decide) p) ?_
  refine .orElse (.bind fun p => tryAt_finds (by decide) p) ?_
  exact tryRandom_finds _ _

/-! ## Placements -/

/-- **Every placement** lies between the limits, and is clear of all placed boxes unless it is the
last resort. -/
theorem allocate_spec {p : Placement} (h : c.allocate fieldCount placed = .ok p) :
    c.Within fieldCount p.position ∧
      (p.stage = .lastResort ∨ c.Clear fieldCount placed p.position) := by
  rw [allocate] at h
  split at h
  · next hempty =>
    -- the first table has nothing to be clear of
    obtain ⟨position, hposition, h⟩ := bind_eq_ok.1 h
    rw [← pure_eq_ok.1 h]
    refine ⟨clamp_within (lift_eq_ok.1 hposition), Or.inr ?_⟩
    rw [List.isEmpty_iff.1 hempty]
    exact fun b hb => nomatch hb
  · obtain ⟨found, hfound, h⟩ := bind_eq_ok.1 h
    cases found with
    | some q =>
      rw [← pure_eq_ok.1 h]
      have hq := search_finds q hfound
      exact ⟨hq.within, Or.inr hq.clear⟩
    | none =>
      obtain ⟨position, hposition, h⟩ := bind_eq_ok.1 h
      rw [← pure_eq_ok.1 h]
      exact ⟨clamp_within (lift_eq_ok.1 hposition), Or.inl rfl⟩

end Config

end SchemaDiagram
