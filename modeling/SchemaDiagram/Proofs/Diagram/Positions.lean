/-
# Position maps survive their text

The text of a position map is read back as the same map, with its names as loose texts, in the same
order and with every coordinate as it was.  A map has a text unless a whole coordinate has too many
digits.

* `Registry.loosen` : a map with its names as loose texts;
* `WritablePositions` : that no whole coordinate of a map is too long;
* `loadPositions_of_dumpPositions` : the round trip;
* `dumpPositions_survives` : the same said of the entries, and of the text that is written again.
-/
import SchemaDiagram.Diagram.Positions
import SchemaDiagram.Proofs.Json.RoundTrip

namespace SchemaDiagram

/-! ## Loose names -/

namespace Registry

variable {α : Type}

/-- The same values under the same names, as loose texts. -/
def loosen (r : Registry α) : Registry α LooseText where
  entries := r.entries.map fun e => (.ofString e.1, e.2)
  nodup_keys := by
    have h := r.nodup_keys.map LooseText.ofString_injective
    rw [List.map_map] at h ⊢
    exact h

/-- A name has the same value as a loose text. -/
theorem get?_loosen (r : Registry α) (name : String) :
    r.loosen.get? (.ofString name) = r.get? name := by
  show (r.entries.map fun e => (LooseText.ofString e.1, e.2)).lookup _ = r.entries.lookup name
  induction r.entries with
  | nil => rfl
  | cons e rest ih =>
    have hname : (LooseText.ofString name == LooseText.ofString e.1) = (name == e.1) := by
      rw [Bool.eq_iff_iff, beq_iff_eq, beq_iff_eq]
      exact LooseText.ofString_injective.eq_iff
    rw [List.map_cons, List.lookup_cons, List.lookup_cons, hname, ih]

end Registry

/-! ## Values -/

theorem Quantity.plain_datum (x : Quantity) : x.datum.Plain := by
  cases x with
  | whole n => exact .int n
  | real x => exact .real x

theorem Quantity.ofDatum?_datum (x : Quantity) : Quantity.ofDatum? x.datum = some x := by
  cases x with
  | whole n => rfl
  | real x => rfl

theorem Point.plain_datum (p : Point Quantity) : p.datum.Plain := by
  have hnames : ([("x", p.x.datum), ("y", p.y.datum)].map Prod.fst).Nodup := by
    show ["x", "y"].Nodup
    decide
  exact Datum.Plain.dict hnames
    (List.forall_mem_cons.2 ⟨p.x.plain_datum, List.forall_mem_singleton.2 p.y.plain_datum⟩)

/-- A point is read back from its value. -/
theorem Point.ofDatum_datum (table : LooseText) (p : Point Quantity) :
    Point.ofDatum table p.datum = .ok p := by
  have hx : p.datum.field? "x" = some p.x.datum := rfl
  have hy : p.datum.field? "y" = some p.y.datum := rfl
  rw [Point.ofDatum, hx, hy]
  dsimp only
  rw [Quantity.ofDatum?_datum, Quantity.ofDatum?_datum]

/-! ## Long coordinates -/

/-- The digits of a number are few exactly when it is small. -/
theorem digitCount_le_iff {n : ℤ} {k : ℕ} (hk : 0 < k) : digitCount n ≤ k ↔ n.natAbs < 10 ^ k :=
  Nat.length_toDigits_le_iff (by decide) hk

/-- Whether a coordinate has a text in a data file: whole numbers must not be too long. -/
def Quantity.IsWritable : Quantity → Prop
  | .whole n => n.natAbs < 10 ^ digitLimit
  | .real _ => True

instance : DecidablePred Quantity.IsWritable
  | .whole n => inferInstanceAs (Decidable (n.natAbs < 10 ^ digitLimit))
  | .real _ => inferInstanceAs (Decidable True)

/-- Whether all coordinates of a map have a text in a data file. -/
def WritablePositions (positions : Registry (Point Quantity)) : Prop :=
  ∀ e ∈ positions.entries, e.2.x.IsWritable ∧ e.2.y.IsWritable

instance (positions : Registry (Point Quantity)) : Decidable (WritablePositions positions) :=
  inferInstanceAs (Decidable (∀ e ∈ positions.entries, e.2.x.IsWritable ∧ e.2.y.IsWritable))

theorem Quantity.isWritable_datum_iff (x : Quantity) : x.datum.IsWritable ↔ x.IsWritable := by
  cases x with
  | whole n =>
    rw [datum, Datum.IsWritable, Datum.wholes, List.forall_mem_singleton]
    exact digitCount_le_iff (by decide)
  | real x => exact iff_of_true (List.forall_mem_nil _) trivial

theorem Point.isWritable_datum_iff (p : Point Quantity) :
    p.datum.IsWritable ↔ p.x.IsWritable ∧ p.y.IsWritable := by
  rw [datum, Datum.isWritable_dict_iff, List.forall_mem_cons, List.forall_mem_singleton,
    Quantity.isWritable_datum_iff, Quantity.isWritable_datum_iff]

/-! ## Maps -/

/-- Points that are read from their values are entered one after the other. -/
theorem foldlM_ofDatum (entries : List (LooseText × Point Quantity))
    (r : Registry (Point Quantity) LooseText) :
    (entries.map fun e => (e.1, e.2.datum)).foldlM
        (fun r e => do return r.insert e.1 (← Point.ofDatum e.1 e.2)) r =
      .ok (entries.foldl (fun r e => r.insert e.1 e.2) r) := by
  induction entries generalizing r with
  | nil => rfl
  | cons e rest ih =>
    rw [List.map_cons, List.foldlM_cons, Point.ofDatum_datum]
    exact ih (r.insert e.1 e.2)

variable (positions : Registry (Point Quantity))

theorem plain_positionsDatum : (positionsDatum positions).Plain := by
  have hnames : ((positions.entries.map fun e => (e.1, e.2.datum)).map Prod.fst).Nodup := by
    rw [List.map_map]
    exact positions.nodup_keys
  have hplain := Datum.Plain.dict hnames
    (List.forall_mem_map.2 fun e _ => e.2.plain_datum)
  rw [List.map_map] at hplain
  exact hplain

/-- The value of a map can be written exactly when all its coordinates can. -/
theorem isWritable_positionsDatum_iff :
    (positionsDatum positions).IsWritable ↔ WritablePositions positions := by
  rw [positionsDatum, positionsDatumBy, Datum.isWritable_dict_iff, List.forall_mem_map]
  exact forall₂_congr fun e _ => e.2.isWritable_datum_iff

/-- A map with a coordinate that is too long has no text. -/
theorem dumpPositions_of_not_writable {positions : Registry (Point Quantity)}
    (h : ¬ WritablePositions positions) : dumpPositions positions = .error .unwritable :=
  if_neg fun hdatum => h ((isWritable_positionsDatum_iff positions).1 hdatum)

/-- **A position map** that is written is read back with the same entries in the same order. -/
theorem loadPositions_of_dumpPositions {positions : Registry (Point Quantity)}
    (h : WritablePositions positions) :
    ∃ text, dumpPositions positions = .ok text ∧
      loadPositions text.toList = .ok positions.loosen := by
  obtain ⟨text, htext, hread⟩ := Datum.ofJson_indented (plain_positionsDatum positions)
    ((isWritable_positionsDatum_iff positions).2 h)
  refine ⟨text, htext, ?_⟩
  have hdatum : positionsDatum positions =
      .dict (positions.loosen.entries.map fun e => (e.1, e.2.datum)) := by
    rw [positionsDatum, positionsDatumBy, Registry.loosen, List.map_map]
    rfl
  have hall : Registry.ofList positions.loosen.entries = positions.loosen :=
    Registry.ext (Registry.entries_ofList positions.loosen.nodup_keys)
  rw [loadPositions, hread, hdatum]
  exact (foldlM_ofDatum positions.loosen.entries .empty).trans (congrArg _ hall)

/-- A map with its names as loose texts has the same text. -/
theorem dumpLoaded_loosen : dumpLoaded positions.loosen = dumpPositions positions := by
  have hdatum : positionsDatumBy id positions.loosen = positionsDatum positions := by
    rw [positionsDatum, positionsDatumBy, positionsDatumBy, Registry.loosen, List.map_map]
    rfl
  rw [dumpLoaded, dumpPositions, hdatum]

/-- **Every position map** survives its text: if no whole coordinate is too long it has one, which
is read back with the same names, in the same order, at the same coordinates of the same kinds, and
the map that is read has the same text.  Any other map has no text. -/
theorem dumpPositions_survives :
    (WritablePositions positions →
      ∃ text loaded, dumpPositions positions = .ok text ∧
        loadPositions text.toList = .ok loaded ∧
        loaded.entries = positions.entries.map (fun e => (LooseText.ofString e.1, e.2)) ∧
        dumpLoaded loaded = .ok text) ∧
    (¬ WritablePositions positions → dumpPositions positions = .error .unwritable) := by
  refine ⟨fun h => ?_, dumpPositions_of_not_writable⟩
  obtain ⟨text, htext, hread⟩ := loadPositions_of_dumpPositions h
  refine ⟨text, positions.loosen, htext, hread, ?_, (dumpLoaded_loosen positions).trans htext⟩
  rw [Registry.loosen]

/-- Two tables of which one has an odd name and the longest number that is written, and the other
one stands at a fraction. -/
def longestPositions : Registry (Point Quantity) :=
  .ofList [("a \x22\\\n😀", ⟨.whole (-(10 ^ 4300 - 1)), .whole 0⟩),
    ("größe", ⟨.real (.ofRat (1 / 10)), .whole 60⟩)]

/-- A table at a number of one digit more than is written. -/
def tooLongPositions : Registry (Point Quantity) :=
  .ofList [("a", ⟨.whole (10 ^ 4300), .whole 0⟩)]

theorem dumpPositions_survives_longest :
    (∃ text loaded, dumpPositions longestPositions = .ok text ∧
      loadPositions text.toList = .ok loaded ∧
      loaded.entries = longestPositions.entries.map (fun e => (LooseText.ofString e.1, e.2)) ∧
      dumpLoaded loaded = .ok text) ∧
    dumpPositions tooLongPositions = .error .unwritable :=
  ⟨(dumpPositions_survives longestPositions).1 (by decide +kernel),
    (dumpPositions_survives tooLongPositions).2 (by decide +kernel)⟩

/-- A map can be without a text. -/
theorem not_all_survive :
    ¬ ∀ positions : Registry (Point Quantity),
      ∃ text loaded, dumpPositions positions = .ok text ∧
        loadPositions text.toList = .ok loaded ∧
        loaded.entries = positions.entries.map (fun e => (LooseText.ofString e.1, e.2)) ∧
        dumpLoaded loaded = .ok text := by
  intro hall
  obtain ⟨text, -, htext, -⟩ := hall tooLongPositions
  have hfail : dumpPositions tooLongPositions = .error .unwritable :=
    dumpPositions_of_not_writable (by decide +kernel)
  rw [hfail] at htext
  cases htext

end SchemaDiagram
