/-
# Sums and distances in either order

A sum does not depend on the order of its summands, nor does the distance of two coordinates.  An
operation has a result in either order as well: it fails only where a whole number that is too great
for a double meets one.

* `Binary64.add_comm`, `Quantity.add_comm`, `Quantity.distance_comm` : either order gives the same;
* `Quantity.Meets` : when two quantities can be combined;
* `Quantity.SameKind`, `Quantity.SameNumber` : quantities of one kind, and of one value;
* `Quantity.lt_of_add_lt` : what is below another coordinate with a length added is so without it;
* `Quantity.add_natCast_congr`, `Quantity.add_natCast_value` : the sums of equal numbers.
-/
import SchemaDiagram.Proofs.Number.Exactness
import SchemaDiagram.Proofs.Number.Tame

namespace SchemaDiagram

namespace Binary64

/-! ## Doubles -/

/-- **A sum of doubles** in either order. -/
protected theorem add_comm (x y : Binary64) : x.add y = y.add x := by
  cases x with
  | nan => cases y <;> rfl
  | infinite s =>
    cases y with
    | nan => rfl
    | finite t j => rfl
    | infinite t =>
      show (if s = t then infinite s else nan) = if t = s then infinite t else nan
      by_cases h : s = t
      · rw [h]
      · rw [if_neg h, if_neg (Ne.symm h)]
  | finite s i =>
    cases y with
    | nan => rfl
    | infinite t => rfl
    | finite t j => rw [add_finite, add_finite, add_comm (signed s i), Bool.and_comm]

theorem signed_not (s : Bool) (place : ℕ) : signed (!s) place = -signed s place := by
  cases s with
  | false => rfl
  | true => exact (neg_neg _).symm

/-- Without its sign, a rounded magnitude is the same for either. -/
theorem abs_roundMagnitude (s t : Bool) (r : ℚ) :
    (roundMagnitude s r).abs = (roundMagnitude t r).abs := by
  rcases roundMagnitude_cases s r with ⟨place, hs⟩ | hs
  · rw [hs, roundMagnitude_eq_finite hs t]
    rfl
  · rcases roundMagnitude_cases t r with ⟨place, ht⟩ | ht
    · rw [roundMagnitude_eq_finite ht s] at hs
      exact nomatch hs
    · rw [hs, ht]
      rfl

/-- **A distance of doubles** in either order. -/
protected theorem abs_sub_comm (x y : Binary64) : (x.sub y).abs = (y.sub x).abs := by
  cases x with
  | nan => cases y <;> rfl
  | infinite s =>
    cases y with
    | nan => rfl
    | finite t j => rfl
    | infinite t => cases s <;> cases t <;> rfl
  | finite s i =>
    cases y with
    | nan => rfl
    | infinite t => rfl
    | finite t j =>
      show ((finite s i).add (finite (!t) j)).abs = ((finite t j).add (finite (!s) i)).abs
      have hneg : signed t j + -signed s i = -(signed s i + -signed t j) := by ring
      rw [add_finite, add_finite, signed_not, signed_not, hneg]
      by_cases hzero : signed s i + -signed t j = 0
      · rw [if_pos hzero, if_pos (neg_eq_zero.2 hzero)]
        rfl
      · rw [if_neg hzero, if_neg (neg_ne_zero.2 hzero), ofRat_eq, ofRat_eq, abs_neg]
        exact abs_roundMagnitude _ _ _

/-! ## The extended order -/

namespace Extended

variable {a b : Extended}

theorem lt_asymm (h : a.lt b = true) : b.lt a ≠ true := by
  cases a with
  | bottom => cases b <;> simp [Extended.lt]
  | top => exact nomatch h
  | value r =>
    cases b with
    | bottom => exact nomatch h
    | top => simp [Extended.lt]
    | value t =>
      simp only [Extended.lt, ne_eq, decide_eq_true_eq] at h ⊢
      exact not_lt.2 h.le

/-- Points of the extended order of which neither is below the other one are the same. -/
theorem eq_of_not_lt (hab : a.lt b ≠ true) (hba : b.lt a ≠ true) : a = b := by
  cases a with
  | bottom => cases b <;> simp_all [Extended.lt]
  | top => cases b <;> simp_all [Extended.lt]
  | value r =>
    cases b with
    | bottom => simp [Extended.lt] at hba
    | top => simp [Extended.lt] at hab
    | value t =>
      simp only [Extended.lt, ne_eq, decide_eq_true_eq] at hab hba
      exact congrArg _ (le_antisymm (not_lt.1 hba) (not_lt.1 hab))

end Extended

end Binary64

namespace Quantity

open Binary64

variable {x y z : Quantity} {onWhole : ℤ → ℤ → ℤ} {onReal : Binary64 → Binary64 → Binary64}

/-! ## Either order -/

/-- An operation gives the same in either order if it does so on each kind. -/
theorem combine_comm (hwhole : ∀ a b, onWhole a b = onWhole b a)
    (hreal : ∀ a b, onReal a b = onReal b a) (x y : Quantity) :
    combine onWhole onReal x y = combine onWhole onReal y x := by
  cases x with
  | whole a =>
    cases y with
    | whole b => rw [combine, combine, hwhole]
    | real y => simp only [combine, hreal y]
  | real x =>
    cases y with
    | whole b => simp only [combine, hreal x]
    | real y => rw [combine, combine, hreal]

/-- **A sum** in either order. -/
protected theorem add_comm (x y : Quantity) : x.add y = y.add x :=
  combine_comm add_comm Binary64.add_comm x y

/-- A distance is an operation of its own. -/
theorem distance_eq (x y : Quantity) : Arithmetic.distance x y =
    combine (fun a b => ((a - b).natAbs : ℤ)) (fun a b => (a.sub b).abs) x y := by
  show (do return Quantity.abs (← x.sub y)) = _
  cases x with
  | whole a =>
    cases y with
    | whole b => rfl
    | real y =>
      show (do return Quantity.abs (← (do return real (Binary64.sub (← Binary64.ofInt a) y)))) =
        do return real (Binary64.sub (← Binary64.ofInt a) y).abs
      cases Binary64.ofInt a <;> rfl
  | real x =>
    cases y with
    | whole b =>
      show (do return Quantity.abs (← (do return real (Binary64.sub x (← Binary64.ofInt b))))) =
        do return real (Binary64.sub x (← Binary64.ofInt b)).abs
      cases Binary64.ofInt b <;> rfl
    | real y => rfl

/-- **A distance** in either order. -/
theorem distance_comm (x y : Quantity) : Arithmetic.distance x y = Arithmetic.distance y x := by
  rw [distance_eq, distance_eq]
  refine combine_comm ?_ Binary64.abs_sub_comm x y
  intro a b
  rw [← Int.natAbs_neg, neg_sub]

/-! ## Quantities that can be combined -/

/-- Two quantities can be combined: they are of one kind, or the whole one can be converted. -/
def Meets : Quantity → Quantity → Prop
  | .whole a, .real _ => ∃ y, Binary64.ofInt a = .ok y
  | .real _, .whole b => ∃ y, Binary64.ofInt b = .ok y
  | _, _ => True

/-- An operation has a result when the quantities can be combined. -/
theorem exists_combine_iff : (∃ z, combine onWhole onReal x y = .ok z) ↔ x.Meets y := by
  have hconvert : ∀ (r : Except ArithmeticFault Binary64) (f : Binary64 → Binary64),
      (∃ z, (do return real (f (← r))) = Except.ok z) ↔ ∃ y, r = .ok y := by
    intro r f
    cases r with
    | error fault =>
      constructor
      · rintro ⟨z, h⟩
        exact nomatch h
      · rintro ⟨y, h⟩
        exact nomatch h
    | ok y => exact ⟨fun _ => ⟨y, rfl⟩, fun _ => ⟨_, rfl⟩⟩
  cases x with
  | whole a =>
    cases y with
    | whole b => exact ⟨fun _ => trivial, fun _ => ⟨_, rfl⟩⟩
    | real y => exact hconvert _ fun x => onReal x y
  | real x =>
    cases y with
    | whole b => exact hconvert _ (onReal x)
    | real y => exact ⟨fun _ => trivial, fun _ => ⟨_, rfl⟩⟩

theorem Meets.symm (h : x.Meets y) : y.Meets x := by
  cases x <;> cases y <;> exact h

theorem meets_self (x : Quantity) : x.Meets x := by
  cases x <;> trivial

/-- What can be converted can be so with its sign turned. -/
theorem exists_ofInt_neg {n : ℤ} (h : ∃ y, Binary64.ofInt n = .ok y) :
    ∃ y, Binary64.ofInt (-n) = .ok y := by
  obtain ⟨y, hy⟩ := h
  obtain ⟨place, rfl⟩ := finite_of_ofInt hy
  have hround := ofRat_of_ofInt hy
  rw [ofRat_eq] at hround
  refine ⟨.finite (decide (((-n : ℤ) : ℚ) < 0)) place, ?_⟩
  rw [Binary64.ofInt, ofRat_eq, Int.cast_neg, abs_neg, roundMagnitude_eq_finite hround]

theorem Meets.neg (h : x.Meets y) : x.Meets y.neg := by
  cases x with
  | whole a => cases y <;> exact h
  | real x =>
    cases y with
    | whole b => exact exists_ofInt_neg h
    | real y => trivial

protected theorem neg_neg (x : Quantity) : x.neg.neg = x := by
  cases x with
  | whole n => exact congrArg whole (Int.neg_neg n)
  | real x =>
    cases x with
    | nan => rfl
    | infinite s => exact congrArg (fun s => real (.infinite s)) (Bool.not_not s)
    | finite s place => exact congrArg (fun s => real (.finite s place)) (Bool.not_not s)

theorem meets_neg_iff : x.Meets y.neg ↔ x.Meets y := by
  constructor
  · intro h
    rw [← Quantity.neg_neg y]
    exact h.neg
  · exact Meets.neg

/-- A whole number that can be converted can be combined with everything. -/
theorem meets_whole {n : ℤ} (h : ∃ y, Binary64.ofInt n = .ok y) (x : Quantity) :
    x.Meets (.whole n) := by
  cases x with
  | whole a => trivial
  | real x => exact h

theorem AtMost.meets {j k : ℕ} (hx : x.AtMost j) (hy : y.AtMost k) (hj : j ≤ 1023)
    (hk : k ≤ 1023) : x.Meets y := by
  cases x with
  | whole a =>
    obtain ⟨z, hz, -⟩ := hx.toBinary64 hj
    exact (meets_whole ⟨z, hz⟩ y).symm
  | real x =>
    cases y with
    | whole b =>
      obtain ⟨z, hz, -⟩ := hy.toBinary64 hk
      exact ⟨z, hz⟩
    | real y => trivial

/-- A quantity is bounded when its value is. -/
theorem AtMost.of_value {k : ℕ} {v : ℚ} (hx : x.value? = some v) (hv : |v| ≤ 2 ^ k) :
    x.AtMost k := by
  cases x with
  | whole n =>
    cases hx
    show |n| ≤ 2 ^ k
    exact_mod_cast hv
  | real x =>
    cases x with
    | nan => exact nomatch hx
    | infinite t => exact nomatch hx
    | finite t place =>
      obtain rfl : signed t place = v := Option.some.inj hx
      rwa [abs_signed] at hv

/-! ## Equal numbers -/

/-- Two quantities are both whole or both doubles. -/
def SameKind : Quantity → Quantity → Prop
  | .whole _, .whole _ => True
  | .real _, .real _ => True
  | _, _ => False

/-- Two quantities are the same, or they have the same value. -/
def SameNumber (x y : Quantity) : Prop :=
  x = y ∨ ∃ v, x.value? = some v ∧ y.value? = some v

instance (x y : Quantity) : Decidable (x.SameNumber y) :=
  decidable_of_iff (x = y ∨ x.value? = y.value? ∧ x.value?.isSome) <| or_congr Iff.rfl <| by
    rw [Option.isSome_iff_exists]
    constructor
    · rintro ⟨hsame, v, hv⟩
      exact ⟨v, hv, hsame ▸ hv⟩
    · rintro ⟨v, hx, hy⟩
      exact ⟨hx.trans hy.symm, v, hx⟩

theorem SameNumber.refl (x : Quantity) : x.SameNumber x := Or.inl rfl

theorem value?_eq_some_iff {v : ℚ} : x.value? = some v ↔ x.extended? = some (.value v) := by
  cases x with
  | whole n => simp [value?, extended?]
  | real x =>
    cases x with
    | infinite s => cases s <;> simp [value?, extended?, toRat?, Binary64.extended?]
    | nan => simp [value?, extended?, toRat?, Binary64.extended?]
    | finite s place => simp [value?, extended?, toRat?, Binary64.extended?]

/-! ## Order -/

/-- A quantity is below another one when it lies so in the extended order. -/
theorem lt_eq_true_iff : x.lt y = true ↔
    ∃ a b, x.extended? = some a ∧ y.extended? = some b ∧ a.lt b = true := by
  cases x with
  | whole a =>
    cases y with
    | whole b => simp [lt, extended?, Extended.lt]
    | real y => cases hy : y.extended? <;> simp [lt, extended?, hy]
  | real x =>
    cases y with
    | whole b => cases hx : x.extended? <;> simp [lt, extended?, hx]
    | real y => cases hx : x.extended? <;> cases hy : y.extended? <;> simp [lt, extended?, hx, hy]

/-- Of two quantities, at most one is below the other. -/
theorem lt_asymm (h : x.lt y = true) : y.lt x ≠ true := by
  obtain ⟨a, b, ha, hb, hab⟩ := lt_eq_true_iff.1 h
  intro h'
  obtain ⟨b', a', hb', ha', hba⟩ := lt_eq_true_iff.1 h'
  obtain rfl := Option.some.inj (ha.symm.trans ha')
  obtain rfl := Option.some.inj (hb.symm.trans hb')
  exact Extended.lt_asymm hab hba

/-- A whole number that is not negative is added to a double by a finite double of no sign. -/
theorem add_real_natCast {x : Binary64} {n : ℕ} (h : (real x).add (.whole n) = .ok z) :
    ∃ j, Binary64.ofInt n = .ok (.finite false j) ∧ z = .real (x.add (.finite false j)) := by
  obtain ⟨y, hy, h⟩ := bind_eq_ok.1 h
  obtain ⟨j, rfl⟩ := finite_of_ofInt hy
  rw [decide_eq_false (not_lt.2 (Int.natCast_nonneg n))] at hy h
  exact ⟨j, hy, (pure_eq_ok.1 h).symm⟩

/-- The value of a double is rounded to itself. -/
theorem nearestValue_signed (s : Bool) (place : Place) :
    nearestValue (signed s place) = signed s place := by
  have hsign : signed s place ≠ 0 → (s = true ↔ signed s place < 0) := by
    intro hne
    have hpos : 0 < magnitude place := by
      rw [← abs_signed s]
      exact abs_pos.2 hne
    cases s with
    | false => simpa [signed] using hpos.le
    | true => simpa [signed] using hpos
  have hround := roundMagnitude_magnitude s place
  rw [← abs_signed s] at hround
  exact (signed_of_roundMagnitude hsign hround).symm

/-- A double is not lowered by adding what is not negative. -/
theorem le_add_finite (s : Bool) (i j : Place) :
    ((Binary64.finite s i).add (.finite false j)).extended? = some .top ∨
      ∃ r, ((Binary64.finite s i).add (.finite false j)).extended? = some (.value r) ∧
        signed s i ≤ r := by
  have hle : signed s i ≤ signed s i + signed false j :=
    le_add_of_nonneg_right (magnitude_nonneg j)
  rw [add_finite]
  set sum := signed s i + signed false j
  by_cases hzero : sum = 0
  · right
    rw [if_pos hzero]
    refine ⟨0, ?_, hzero ▸ hle⟩
    have hvalue : signed false 0 = 0 := magnitude_zero
    rw [Bool.and_false, zero, Binary64.extended?, hvalue]
  rw [if_neg hzero, ofRat_eq]
  rcases roundMagnitude_cases (sum < 0) |sum| with ⟨place, hround⟩ | hround
  · right
    refine ⟨signed (sum < 0) place, by rw [hround]; rfl, ?_⟩
    rw [signed_of_roundMagnitude (fun _ => decide_eq_true_iff) hround, ← nearestValue_signed]
    exact nearestValue_mono hle
  · left
    have hpos : 0 ≤ sum := by
      -- a negative sum is no farther from zero than the double
      by_contra hneg
      have hsum := not_le.1 hneg
      have hbound : |sum| ≤ magnitude i := by
        rw [← abs_signed s, abs_of_neg hsum, abs_of_neg (hle.trans_lt hsum)]
        exact neg_le_neg hle
      obtain ⟨place, hplace⟩ := finite_of_le (abs_nonneg sum) hbound
        (roundMagnitude_magnitude s i) (sum < 0)
      rw [hplace] at hround
      exact nomatch hround
    rw [hround, decide_eq_false (not_lt.2 hpos)]
    rfl

/-- **A coordinate is not lowered** by adding a length, which may take it to the top. -/
theorem extended_add_natCast {u : ℚ} {n : ℕ} (hx : x.value? = some u)
    (hadd : x.add (.whole n) = .ok z) :
    z.extended? = some .top ∨ ∃ r, z.extended? = some (.value r) ∧ u ≤ r := by
  cases x with
  | whole m =>
    cases hx
    obtain rfl := Except.ok.inj hadd
    right
    refine ⟨((m + n : ℤ) : ℚ), rfl, ?_⟩
    exact_mod_cast Int.le_add_of_nonneg_right (Int.natCast_nonneg n)
  | real x =>
    cases x with
    | nan => exact nomatch hx
    | infinite s => exact nomatch hx
    | finite s i =>
      obtain rfl : signed s i = u := Option.some.inj hx
      obtain ⟨j, -, rfl⟩ := add_real_natCast hadd
      exact le_add_finite s i j

/-- A coordinate with a value has a place in the order when a length is added. -/
theorem exists_extended_add {u : ℚ} {n : ℕ} (hx : x.value? = some u)
    (hadd : x.add (.whole n) = .ok z) : ∃ a, z.extended? = some a := by
  rcases extended_add_natCast hx hadd with htop | ⟨r, hr, -⟩
  · exact ⟨_, htop⟩
  · exact ⟨_, hr⟩

/-- What is below another coordinate with a length added is below it without. -/
theorem lt_of_add_lt {u v : ℚ} {n : ℕ} (hx : x.value? = some u) (hy : y.value? = some v)
    (hadd : x.add (.whole n) = .ok z) (hlt : z.lt y = true) : u < v := by
  obtain ⟨a, b, ha, hb, hab⟩ := lt_eq_true_iff.1 hlt
  obtain rfl := Option.some.inj ((value?_eq_some_iff.1 hy).symm.trans hb)
  rcases extended_add_natCast hx hadd with htop | ⟨r, hr, hle⟩
  · obtain rfl := Option.some.inj (htop.symm.trans ha)
    exact nomatch hab
  · obtain rfl := Option.some.inj (hr.symm.trans ha)
    exact hle.trans_lt (of_decide_eq_true hab)

/-! ## Sums of equal numbers -/

/-- Doubles of one place in the extended order have the same sum with a length: a negative zero does
not show. -/
theorem add_finite_congr {x y : Binary64} {e : Extended} (hx : x.extended? = some e)
    (hy : y.extended? = some e) (j : Place) :
    x.add (.finite false j) = y.add (.finite false j) := by
  cases x with
  | nan => exact nomatch hx
  | infinite s =>
    cases y with
    | nan => exact nomatch hy
    | infinite t => cases s <;> cases t <;> cases hx <;> first | rfl | exact nomatch hy
    | finite t k => cases s <;> cases hx <;> exact nomatch hy
  | finite s i =>
    obtain rfl : .value (signed s i) = e := Option.some.inj hx
    cases y with
    | nan => exact nomatch hy
    | infinite t => cases t <;> exact nomatch hy
    | finite t k =>
      have hvalue : signed t k = signed s i := Extended.value.inj (Option.some.inj hy)
      rw [add_finite, add_finite, hvalue, Bool.and_false, Bool.and_false]

/-- **Equal numbers of one kind** have the same sum with a length. -/
theorem add_natCast_congr {e : Extended} (hkind : x.SameKind y) (hx : x.extended? = some e)
    (hy : y.extended? = some e) (n : ℕ) : x.add (.whole n) = y.add (.whole n) := by
  cases x with
  | whole a =>
    cases y with
    | real y => exact hkind.elim
    | whole b =>
      have hvalue : (a : ℚ) = b := Extended.value.inj (Option.some.inj (hx.trans hy.symm))
      rw [Int.cast_injective hvalue]
  | real x =>
    cases y with
    | whole b => exact hkind.elim
    | real y =>
      show (do return real (Binary64.add x (← Binary64.ofInt n))) =
        do return real (Binary64.add y (← Binary64.ofInt n))
      cases hn : Binary64.ofInt n with
      | error fault => rfl
      | ok w =>
        obtain ⟨j, rfl⟩ := finite_of_ofInt hn
        rw [decide_eq_false (not_lt.2 (Int.natCast_nonneg n))]
        show Except.ok (real (x.add (.finite false j))) = .ok (real (y.add (.finite false j)))
        rw [add_finite_congr hx hy]

/-- **A whole number and a double** of its value have sums of one value with a length, as long as
nothing is rounded. -/
theorem add_natCast_value {a : ℤ} {n : ℕ} (hx : x.value? = some (a : ℚ)) (ha : |a| < 2 ^ 52)
    (hn : n < 2 ^ 52) :
    ∃ z, x.add (.whole n) = .ok z ∧ z.value? = some ((a + n : ℤ) : ℚ) := by
  cases x with
  | whole b =>
    obtain rfl : b = a := Int.cast_injective (Option.some.inj hx)
    exact ⟨_, rfl, rfl⟩
  | real x =>
    cases x with
    | nan => exact nomatch hx
    | infinite s => exact nomatch hx
    | finite s i =>
      have hheld : Holds n := holds_of_natCast_lt (by omega)
      have hsum : Holds (a + n) := by
        refine holds_of_lt (abs_lt.2 ?_)
        have hbounds := abs_lt.1 ha
        constructor <;> omega
      obtain ⟨j, hj, hmagnitude⟩ := ofInt_held hheld
      have hvalues : signed s i + signed ((n : ℤ) < 0) j = ((a + n : ℤ) : ℚ) := by
        rw [signed_of_magnitude hmagnitude, Option.some.inj hx, Int.cast_add]
      obtain ⟨sign, place, hadd, hvalue⟩ := exists_add_held hsum hvalues
      refine ⟨.real (.finite sign place), ?_, congrArg some hvalue⟩
      show (do return real (Binary64.add (.finite s i) (← Binary64.ofInt n))) = _
      rw [hj, ← hadd]
      rfl

end Quantity

end SchemaDiagram
