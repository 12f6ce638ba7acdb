/-
# Connectors from their other end

A relationship that is told from its other end has the same line, in reverse: the points come in
reverse order, the sides are exchanged, and so are the markers.  One case is an exception.  When two
tables end at the same coordinate, the bend of a detour is computed from that of the source, which
may be a whole number where that of the target is a double; the sums that follow then differ where a
double is rounded.

* `exists_smooth_iff`, `exists_smooth_reverse` : which lines can be drawn;
* `Tied`, `Untangled` : table ends that are the same number of different kinds, and coordinates and
  settings for which that makes no difference;
* `Course.Flips`, `courseBetween_flip` : the course from the other end;
* `Connector.Reversed`, `routeBetween_flip` : the connector from the other end;
* `routeBetween_flip_tied` : a detour that is not the same from its other end.
-/
import SchemaDiagram.Proofs.Connector.Route
import SchemaDiagram.Proofs.Number.Symmetry

namespace SchemaDiagram

open Quantity

/-! ## Lines that can be drawn -/

section

variable {radius : Quantity} {p c q : Point Quantity}

theorem Run.between_comm (p q : Point Quantity) : Run.between p q = Run.between q p := by
  unfold Run.between
  rw [distance_comm p.x, distance_comm p.y]

/-- A run can be measured when the coordinates can be combined. -/
theorem Run.exists_between_iff : (∃ r, Run.between p q = .ok r) ↔ p.x.Meets q.x ∧ p.y.Meets q.y := by
  simp only [Run.between, bind_eq_ok, pure_eq_ok, distance_eq]
  constructor
  · rintro ⟨r, across, hacross, down, hdown, -⟩
    exact ⟨exists_combine_iff.1 ⟨across, hacross⟩, exists_combine_iff.1 ⟨down, hdown⟩⟩
  · rintro ⟨hx, hy⟩
    obtain ⟨across, hacross⟩ := exists_combine_iff.2 hx
    obtain ⟨down, hdown⟩ := exists_combine_iff.2 hy
    exact ⟨_, across, hacross, down, hdown, rfl⟩

/-- Two runs make a corner that is rounded. -/
def Run.Turns (enters leaves : Run Quantity) : Prop :=
  (enters.isHorizontal = true ∧ leaves.isVertical = true) ∨
    (enters.isVertical = true ∧ leaves.isHorizontal = true)

theorem Run.Turns.symm {enters leaves : Run Quantity} (h : enters.Turns leaves) :
    leaves.Turns enters := by
  rcases h with ⟨henters, hleaves⟩ | ⟨henters, hleaves⟩
  · exact Or.inr ⟨hleaves, henters⟩
  · exact Or.inl ⟨hleaves, henters⟩

theorem meets_backBy_iff {x u v : Quantity} : x.Meets (backBy radius u v) ↔ x.Meets radius := by
  unfold backBy
  split
  · exact meets_neg_iff
  · exact Iff.rfl

theorem meets_onBy_iff {x u v : Quantity} : x.Meets (onBy radius u v) ↔ x.Meets radius := by
  unfold onBy
  split
  · exact Iff.rfl
  · exact meets_neg_iff

/-- A corner can be drawn when its runs can be measured and, if they turn, the radius can be added to
its coordinates. -/
theorem exists_turnCorner_iff : (∃ commands, turnCorner radius p c q = .ok commands) ↔
    ∃ enters leaves, Run.between p c = .ok enters ∧ Run.between c q = .ok leaves ∧
      (enters.Turns leaves → c.x.Meets radius ∧ c.y.Meets radius) := by
  constructor
  · rintro ⟨commands, h⟩
    obtain ⟨enters, henters, h⟩ := bind_eq_ok.1 h
    obtain ⟨leaves, hleaves, h⟩ := bind_eq_ok.1 h
    refine ⟨enters, leaves, henters, hleaves, ?_⟩
    intro hturns
    split at h
    · obtain ⟨cut, hcut, h⟩ := bind_eq_ok.1 h
      obtain ⟨turned, hturned, -⟩ := bind_eq_ok.1 h
      exact ⟨meets_backBy_iff.1 (exists_combine_iff.1 ⟨cut, hcut⟩),
        meets_onBy_iff.1 (exists_combine_iff.1 ⟨turned, hturned⟩)⟩
    · next hfirst =>
      split at h
      · obtain ⟨cut, hcut, h⟩ := bind_eq_ok.1 h
        obtain ⟨turned, hturned, -⟩ := bind_eq_ok.1 h
        exact ⟨meets_onBy_iff.1 (exists_combine_iff.1 ⟨turned, hturned⟩),
          meets_backBy_iff.1 (exists_combine_iff.1 ⟨cut, hcut⟩)⟩
      · next hsecond =>
        rw [Bool.and_eq_true] at hfirst hsecond
        exact (hturns.elim hfirst hsecond).elim
  · rintro ⟨enters, leaves, henters, hleaves, hmeets⟩
    unfold turnCorner
    simp only [bind_eq_ok, henters, hleaves, Except.ok.injEq, exists_eq_left']
    split
    · next hfirst =>
      obtain ⟨hx, hy⟩ := hmeets (Or.inl (Bool.and_eq_true_iff.1 hfirst))
      obtain ⟨cut, hcut⟩ := exists_combine_iff.2 (meets_backBy_iff.2 hx)
      obtain ⟨turned, hturned⟩ := exists_combine_iff.2 (meets_onBy_iff.2 hy)
      exact ⟨_, bind_eq_ok.2 ⟨cut, hcut, bind_eq_ok.2 ⟨turned, hturned, rfl⟩⟩⟩
    · split
      · next hsecond =>
        obtain ⟨hx, hy⟩ := hmeets (Or.inr (Bool.and_eq_true_iff.1 hsecond))
        obtain ⟨cut, hcut⟩ := exists_combine_iff.2 (meets_backBy_iff.2 hy)
        obtain ⟨turned, hturned⟩ := exists_combine_iff.2 (meets_onBy_iff.2 hx)
        exact ⟨_, bind_eq_ok.2 ⟨cut, hcut, bind_eq_ok.2 ⟨turned, hturned, rfl⟩⟩⟩
      · exact ⟨_, rfl⟩

/-- A corner can be drawn in either direction. -/
theorem exists_turnCorner_comm (h : ∃ commands, turnCorner radius p c q = .ok commands) :
    ∃ commands, turnCorner radius q c p = .ok commands := by
  obtain ⟨enters, leaves, henters, hleaves, hmeets⟩ := exists_turnCorner_iff.1 h
  rw [Run.between_comm] at henters hleaves
  exact exists_turnCorner_iff.2 ⟨leaves, enters, hleaves, henters, fun hturns => hmeets hturns.symm⟩

/-- Three points that follow one another on a line follow one another on the rest of it, or are the
first ones. -/
theorem triple_infix_iff {u v w : Point Quantity} {rest : List (Point Quantity)} :
    [p, c, q] <:+: u :: v :: w :: rest ↔
      (p = u ∧ c = v ∧ q = w) ∨ [p, c, q] <:+: v :: w :: rest := by
  rw [List.infix_cons_iff]
  simp [List.cons_prefix_cons]

/-- The commands after the start can be drawn when each corner can. -/
theorem exists_smoothFrom_iff {start : Point Quantity} {points : List (Point Quantity)} :
    (∃ commands, smoothFrom radius start points = .ok commands) ↔
      ∀ p c q, [p, c, q] <:+: start :: points →
        ∃ commands, turnCorner radius p c q = .ok commands := by
  induction points generalizing start with
  | nil =>
    refine ⟨fun _ p c q h => ?_, fun _ => ⟨_, rfl⟩⟩
    exact absurd h.length_le (by simp)
  | cons corner rest ih =>
    cases rest with
    | nil =>
      refine ⟨fun _ p c q h => ?_, fun _ => ⟨_, rfl⟩⟩
      exact absurd h.length_le (by simp)
    | cons after rest =>
      simp only [triple_infix_iff, smoothFrom, bind_eq_ok, pure_eq_ok]
      constructor
      · rintro ⟨commands, turned, hturned, others, hothers, -⟩ p c q (⟨rfl, rfl, rfl⟩ | h)
        · exact ⟨turned, hturned⟩
        · exact ih.1 ⟨others, hothers⟩ p c q h
      · intro h
        obtain ⟨turned, hturned⟩ := h start corner after (Or.inl ⟨rfl, rfl, rfl⟩)
        obtain ⟨others, hothers⟩ := ih.2 fun p c q hinfix => h p c q (Or.inr hinfix)
        exact ⟨_, turned, hturned, others, hothers, rfl⟩

/-- **A line can be drawn** when each of its corners can. -/
theorem exists_smooth_iff {points : List (Point Quantity)} :
    (∃ commands, smooth radius points = .ok commands) ↔
      ∀ p c q, [p, c, q] <:+: points → ∃ commands, turnCorner radius p c q = .ok commands := by
  match points with
  | [] =>
    refine ⟨fun _ p c q h => ?_, fun _ => ⟨_, rfl⟩⟩
    exact absurd h.length_le (by simp)
  | [start] =>
    refine ⟨fun _ p c q h => ?_, fun _ => ⟨_, rfl⟩⟩
    exact absurd h.length_le (by simp)
  | start :: next :: rest =>
    rw [← exists_smoothFrom_iff]
    simp only [smooth, bind_eq_ok, pure_eq_ok]
    constructor
    · rintro ⟨commands, others, hothers, -⟩
      exact ⟨others, hothers⟩
    · rintro ⟨others, hothers⟩
      exact ⟨_, others, hothers, rfl⟩

/-- **A line can be drawn in reverse.** -/
theorem exists_smooth_reverse {points : List (Point Quantity)}
    (h : ∃ commands, smooth radius points = .ok commands) :
    ∃ commands, smooth radius points.reverse = .ok commands := by
  refine exists_smooth_iff.2 ?_
  intro p c q hinfix
  have hreverse : [q, c, p] <:+: points := by
    rw [← List.reverse_infix]
    exact hinfix
  exact exists_turnCorner_comm (exists_smooth_iff.1 h q c p hreverse)

end

/-! ## Courses -/

/-- A course between the boxes that begin at `x` and `y` and end at `e` and `f`. -/
inductive Course.Joins (s : RoutingSettings) (x y e f : Quantity) : Course Quantity → Prop
  | leftToRight {leaves bend arrives : Quantity} (hright : e.lt y = true)
      (hleaves : e.add (ofSetting s.endpointOffset) = .ok leaves)
      (harrives : y.sub (ofSetting s.endpointOffset) = .ok arrives)
      (hbend : midway leaves arrives = .ok bend) :
      Joins s x y e f ⟨.leftToRight, leaves, bend, arrives, (0, 180)⟩
  | rightToLeft {leaves bend arrives : Quantity} (hright : e.lt y ≠ true) (hleft : f.lt x = true)
      (hleaves : x.sub (ofSetting s.endpointOffset) = .ok leaves)
      (harrives : f.add (ofSetting s.endpointOffset) = .ok arrives)
      (hbend : midway leaves arrives = .ok bend) :
      Joins s x y e f ⟨.rightToLeft, leaves, bend, arrives, (180, 0)⟩
  | detour {leaves bend arrives : Quantity} (hright : e.lt y ≠ true) (hleft : f.lt x ≠ true)
      (hleaves : e.add (ofSetting s.endpointOffset) = .ok leaves)
      (harrives : f.add (ofSetting s.endpointOffset) = .ok arrives)
      (hbend : (Arithmetic.larger e f).add (ofSetting s.detourPadding) = .ok bend) :
      Joins s x y e f ⟨.detour, leaves, bend, arrives, (0, 0)⟩

variable {m : Metrics} {s : RoutingSettings} {x y e f : Quantity} {c : Course Quantity}

/-- The steps to a course: where it leaves, where it arrives and where it bends. -/
theorem steps_eq_ok {leaves arrives : Except ArithmeticFault Quantity}
    {bend : Quantity → Quantity → Except ArithmeticFault Quantity}
    {course : Quantity → Quantity → Quantity → Course Quantity} :
    (do
      let l ← leaves
      let a ← arrives
      let b ← bend l a
      return course l b a) = Except.ok c ↔
    ∃ l a b, leaves = .ok l ∧ arrives = .ok a ∧ bend l a = .ok b ∧ course l b a = c := by
  simp only [bind_eq_ok, pure_eq_ok]
  constructor
  · rintro ⟨l, hl, a, ha, b, hb, hc⟩
    exact ⟨l, a, b, hl, ha, hb, hc⟩
  · rintro ⟨l, a, b, hl, ha, hb, hc⟩
    exact ⟨l, hl, a, ha, b, hb, hc⟩

/-- A course that is computed is one of the three. -/
theorem courseBetween_eq_ok_iff : courseBetween m s x y = .ok c ↔
    ∃ e f, x.add (.whole m.width) = .ok e ∧ y.add (.whole m.width) = .ok f ∧
      Course.Joins s x y e f c := by
  constructor
  · intro h
    obtain ⟨e, he, h⟩ := bind_eq_ok.1 h
    obtain ⟨f, hf, h⟩ := bind_eq_ok.1 h
    refine ⟨e, f, he, hf, ?_⟩
    split at h
    · next hright =>
      obtain ⟨leaves, arrives, bend, hleaves, harrives, hbend, rfl⟩ := steps_eq_ok.1 h
      exact .leftToRight hright hleaves harrives hbend
    · next hright =>
      split at h
      · next hleft =>
        obtain ⟨leaves, arrives, bend, hleaves, harrives, hbend, rfl⟩ := steps_eq_ok.1 h
        exact .rightToLeft hright hleft hleaves harrives hbend
      · next hleft =>
        obtain ⟨leaves, arrives, bend, hleaves, harrives, hbend, rfl⟩ := steps_eq_ok.1 h
        exact .detour hright hleft hleaves harrives hbend
  · rintro ⟨e, f, he, hf, hjoins⟩
    refine bind_eq_ok.2 ⟨e, he, bind_eq_ok.2 ⟨f, hf, ?_⟩⟩
    cases hjoins with
    | leftToRight hright hleaves harrives hbend =>
      refine (if_pos hright).trans ?_
      exact steps_eq_ok.2 ⟨_, _, _, hleaves, harrives, hbend, rfl⟩
    | rightToLeft hright hleft hleaves harrives hbend =>
      refine (if_neg hright).trans ((if_pos hleft).trans ?_)
      exact steps_eq_ok.2 ⟨_, _, _, hleaves, harrives, hbend, rfl⟩
    | detour hright hleft hleaves harrives hbend =>
      refine (if_neg hright).trans ((if_neg hleft).trans ?_)
      exact steps_eq_ok.2 ⟨_, _, _, hleaves, harrives, hbend, rfl⟩

theorem midway_comm (a b : Quantity) : midway a b = midway b a := by
  show (do Arithmetic.half (← a.add b)) = do Arithmetic.half (← b.add a)
  rw [Quantity.add_comm]

/-- A table does not end before another one that ends before it. -/
theorem not_lt_of_lt {u v : ℚ} (hx : x.value? = some u) (hy : y.value? = some v)
    (he : x.add (.whole m.width) = .ok e) (hf : y.add (.whole m.width) = .ok f)
    (h : e.lt y = true) : f.lt x ≠ true := by
  intro h'
  exact lt_irrefl u ((lt_of_add_lt hx hy he h).trans (lt_of_add_lt hy hx hf h'))

/-! ### Table ends that are the same number -/

/-- Two tables end at the same number, which is whole for one and a double for the other. -/
def Tied (m : Metrics) (x y : Quantity) (v : ℚ) : Prop :=
  ∃ e f, x.add (.whole m.width) = .ok e ∧ y.add (.whole m.width) = .ok f ∧ ¬ e.SameKind f ∧
    e.value? = some v ∧ f.value? = some v

/-- A table end and settings that are short enough for no sum to be rounded. -/
structure ShortDetour (s : RoutingSettings) (v : ℚ) : Prop where
  edge : |v| < 2 ^ 52
  padding : s.detourPadding < 2 ^ 52
  offset : s.endpointOffset < 2 ^ 52
  radius : s.curveRadius < 2 ^ 52

/-- The coordinates of two tables are finite, and short where the tables end at the same number of
different kinds. -/
structure Untangled (m : Metrics) (s : RoutingSettings) (x y : Quantity) : Prop where
  source : ∃ u, x.value? = some u
  target : ∃ v, y.value? = some v
  tied : ∀ v, Tied m x y v → ShortDetour s v

theorem Tied.symm {v : ℚ} (h : Tied m x y v) : Tied m y x v := by
  obtain ⟨e, f, he, hf, hkind, hev, hfv⟩ := h
  refine ⟨f, e, hf, he, fun hsame => hkind ?_, hfv, hev⟩
  cases e <;> cases f <;> exact hsame

theorem Untangled.symm (h : Untangled m s x y) : Untangled m s y x :=
  ⟨h.target, h.source, fun v htied => h.tied v htied.symm⟩

/-- Ends of which neither is below the other one are the same number. -/
theorem tied_or_sameKind (h : Untangled m s x y) (he : x.add (.whole m.width) = .ok e)
    (hf : y.add (.whole m.width) = .ok f) (hef : e.lt f ≠ true) (hfe : f.lt e ≠ true) :
    (∃ a, e.extended? = some a ∧ f.extended? = some a ∧ e.SameKind f) ∨
      ∃ n : ℤ, e.value? = some (n : ℚ) ∧ f.value? = some (n : ℚ) ∧ ShortDetour s n := by
  obtain ⟨u, hu⟩ := h.source
  obtain ⟨v, hv⟩ := h.target
  obtain ⟨a, ha⟩ := exists_extended_add hu he
  obtain ⟨b, hb⟩ := exists_extended_add hv hf
  obtain rfl : a = b := Binary64.Extended.eq_of_not_lt (fun hlt => hef (lt_eq_true_iff.2 ⟨a, b, ha, hb, hlt⟩))
    fun hlt => hfe (lt_eq_true_iff.2 ⟨b, a, hb, ha, hlt⟩)
  by_cases hkind : e.SameKind f
  · exact Or.inl ⟨a, ha, hb, hkind⟩
  right
  -- one of the ends is whole, and its value is that of both
  obtain ⟨n, rfl⟩ : ∃ n : ℤ, a = .value n := by
    cases e with
    | whole n => exact ⟨n, (Option.some.inj ha).symm⟩
    | real e =>
      cases f with
      | whole n => exact ⟨n, (Option.some.inj hb).symm⟩
      | real f => exact absurd trivial hkind
  have hev := value?_eq_some_iff.2 ha
  have hfv := value?_eq_some_iff.2 hb
  exact ⟨n, hev, hfv, h.tied n ⟨e, f, he, hf, hkind, hev, hfv⟩⟩

/-! ### The course from the other end -/

/-- A line along a course can be drawn whatever the heights of its rows are. -/
structure Course.Free (s : RoutingSettings) (c : Course Quantity) : Prop where
  leaves : c.leaves.Meets c.bend
  arrives : c.bend.Meets c.arrives
  radius : ∃ radius, Binary64.ofInt s.curveRadius = .ok radius

/-- A course is another one from its other end.  Its bend is the same number, but perhaps not of the
same kind. -/
structure Course.Flips (s : RoutingSettings) (c c' : Course Quantity) : Prop where
  topology : c'.topology = c.topology.flip
  leaves : c'.leaves = c.arrives
  arrives : c'.arrives = c.leaves
  rotations : c'.rotations = c.rotations.swap
  sameNumber : c'.bend.SameNumber c.bend
  bend : c'.bend = c.bend ∨ c'.Free s

/-- The greater end of two tables, from either table, when it is computed from the same one. -/
theorem larger_comm_of_lt (h : e.lt f = true ∨ f.lt e = true) :
    Arithmetic.larger f e = Arithmetic.larger e f := by
  have hlarger : ∀ {u v : Quantity}, u.lt v = true →
      Arithmetic.larger u v = v ∧ Arithmetic.larger v u = v :=
    fun huv => ⟨if_pos huv, if_neg (lt_asymm huv)⟩
  rcases h with h | h
  · rw [(hlarger h).1, (hlarger h).2]
  · rw [(hlarger h).1, (hlarger h).2]

/-- What is added to a short end is short. -/
theorem ShortDetour.atMost_add {v : ℚ} (h : ShortDetour s v) (hx : x.value? = some v) {n : ℕ}
    (hn : n < 2 ^ 52) {z : Quantity} (hz : x.add (ofSetting n) = .ok z) : z.AtMost 53 := by
  have hshort : (Quantity.whole n).AtMost 52 := abs_natCast_le_pow hn.le
  obtain ⟨z', hz', hbound⟩ := (AtMost.of_value hx h.edge.le).add hshort (m := 53)
    (by omega) (by omega) (by omega)
  obtain rfl : z' = z := Except.ok.inj (hz'.symm.trans hz)
  exact hbound

/-- **The bend of a detour** from the other end. -/
theorem exists_bend_flip (h : Untangled m s x y) (he : x.add (.whole m.width) = .ok e)
    (hf : y.add (.whole m.width) = .ok f) {leaves bend arrives : Quantity}
    (hleaves : e.add (ofSetting s.endpointOffset) = .ok leaves)
    (harrives : f.add (ofSetting s.endpointOffset) = .ok arrives)
    (hbend : (Arithmetic.larger e f).add (ofSetting s.detourPadding) = .ok bend) :
    ∃ bend', (Arithmetic.larger f e).add (ofSetting s.detourPadding) = .ok bend' ∧
      bend'.SameNumber bend ∧
      (bend' = bend ∨ Course.Free s ⟨.detour, arrives, bend', leaves, (0, 0)⟩) := by
  by_cases hlt : e.lt f = true ∨ f.lt e = true
  · rw [larger_comm_of_lt hlt]
    exact ⟨bend, hbend, .refl bend, Or.inl rfl⟩
  obtain ⟨hef, hfe⟩ := not_or.1 hlt
  have hlarger : Arithmetic.larger e f = e := if_neg hef
  have hlarger' : Arithmetic.larger f e = f := if_neg hfe
  rw [hlarger] at hbend
  rw [hlarger']
  rcases tied_or_sameKind h he hf hef hfe with ⟨a, ha, hb, hkind⟩ | ⟨n, hev, hfv, hshort⟩
  · have hsame := add_natCast_congr hkind ha hb s.detourPadding
    exact ⟨bend, hsame.symm.trans hbend, .refl bend, Or.inl rfl⟩
  · -- both sums are exact, and all coordinates are short
    have hn : |n| < 2 ^ 52 := by exact_mod_cast hshort.edge
    obtain ⟨b, hb, hvalue⟩ := add_natCast_value hev hn hshort.padding
    obtain rfl : b = bend := Except.ok.inj (hb.symm.trans hbend)
    obtain ⟨b', hb', hvalue'⟩ := add_natCast_value hfv hn hshort.padding
    refine ⟨b', hb', Or.inr ⟨_, hvalue', hvalue⟩, Or.inr ?_⟩
    have hbound := hshort.atMost_add hfv hshort.padding hb'
    constructor
    case leaves =>
      exact (hshort.atMost_add hfv hshort.offset harrives).meets hbound (by omega) (by omega)
    case arrives =>
      exact hbound.meets (hshort.atMost_add hev hshort.offset hleaves) (by omega) (by omega)
    case radius =>
      obtain ⟨place, hplace, -⟩ := Binary64.ofInt_held
        (Binary64.holds_of_natCast_lt (hshort.radius.trans (by norm_num)))
      exact ⟨_, hplace⟩

/-- **A course from its other end** is the course of the other table. -/
theorem courseBetween_flip (h : Untangled m s x y) (hc : courseBetween m s x y = .ok c) :
    ∃ c', courseBetween m s y x = .ok c' ∧ c.Flips s c' := by
  obtain ⟨e, f, he, hf, hjoins⟩ := courseBetween_eq_ok_iff.1 hc
  obtain ⟨u, hu⟩ := h.source
  obtain ⟨v, hv⟩ := h.target
  cases hjoins with
  | leftToRight hright hleaves harrives hbend =>
    rw [midway_comm] at hbend
    refine ⟨_, courseBetween_eq_ok_iff.2 ⟨f, e, hf, he, .rightToLeft
      (not_lt_of_lt hu hv he hf hright) hright harrives hleaves hbend⟩, ?_⟩
    exact ⟨rfl, rfl, rfl, rfl, .refl _, Or.inl rfl⟩
  | rightToLeft hright hleft hleaves harrives hbend =>
    rw [midway_comm] at hbend
    refine ⟨_, courseBetween_eq_ok_iff.2 ⟨f, e, hf, he, .leftToRight hleft harrives hleaves
      hbend⟩, ?_⟩
    exact ⟨rfl, rfl, rfl, rfl, .refl _, Or.inl rfl⟩
  | detour hright hleft hleaves harrives hbend =>
    obtain ⟨bend', hbend', hsame, hfree⟩ := exists_bend_flip h he hf hleaves harrives hbend
    refine ⟨_, courseBetween_eq_ok_iff.2 ⟨f, e, hf, he, .detour hleft hright harrives hleaves
      hbend'⟩, ?_⟩
    exact ⟨rfl, rfl, rfl, rfl, hsame, hfree⟩

/-! ## Connectors -/

/-- Two points are the same in numbers. -/
def Point.SameNumber (p q : Point Quantity) : Prop := p.x.SameNumber q.x ∧ p.y.SameNumber q.y

/-- A connector is another one from its other end. -/
structure Connector.Reversed (k k' : Connector Quantity) : Prop where
  relationship : k'.relationship = k.relationship.flip
  topology : k'.topology = k.topology.flip
  points : List.Forall₂ Point.SameNumber k'.points k.points.reverse
  start : k'.start = k.finish
  finish : k'.finish = k.start

/-- The line along a free course can be drawn when its heights can be combined. -/
theorem Course.Free.exists_smooth (h : c.Free s) {fromY toY : Quantity} (hy : fromY.Meets toY) :
    ∃ commands, smooth (ofSetting s.curveRadius) (c.line fromY toY) = .ok commands := by
  have hradius : ∀ z : Quantity, z.Meets (ofSetting s.curveRadius) := meets_whole h.radius
  have hcorner : ∀ p q r : Point Quantity, p.x.Meets q.x → p.y.Meets q.y → q.x.Meets r.x →
      q.y.Meets r.y → ∃ commands, turnCorner (ofSetting s.curveRadius) p q r = .ok commands := by
    intro p q r hpx hpy hrx hry
    obtain ⟨enters, henters⟩ := Run.exists_between_iff.2 ⟨hpx, hpy⟩
    obtain ⟨leaves, hleaves⟩ := Run.exists_between_iff.2 ⟨hrx, hry⟩
    exact exists_turnCorner_iff.2 ⟨enters, leaves, henters, hleaves,
      fun _ => ⟨hradius q.x, hradius q.y⟩⟩
  refine exists_smooth_iff.2 ?_
  intro p q r hinfix
  rw [Course.line, triple_infix_iff, triple_infix_iff] at hinfix
  rcases hinfix with ⟨rfl, rfl, rfl⟩ | ⟨rfl, rfl, rfl⟩ | hinfix
  · exact hcorner _ _ _ h.leaves (meets_self _) (meets_self _) hy
  · exact hcorner _ _ _ (meets_self _) hy h.arrives (meets_self _)
  · exact absurd hinfix.length_le (by simp)

/-- The heights of a line that can be drawn can be combined. -/
theorem meets_of_smooth {radius fromY toY : Quantity}
    (h : ∃ commands, smooth radius (c.line fromY toY) = .ok commands) : fromY.Meets toY := by
  have hinfix : [(⟨c.leaves, fromY⟩ : Point Quantity), ⟨c.bend, fromY⟩, ⟨c.bend, toY⟩] <:+:
      c.line fromY toY := by
    rw [Course.line, triple_infix_iff]
    exact Or.inl ⟨rfl, rfl, rfl⟩
  obtain ⟨-, leaves, -, hleaves, -⟩ := exists_turnCorner_iff.1 (exists_smooth_iff.1 h _ _ _ hinfix)
  exact (Run.exists_between_iff.1 ⟨leaves, hleaves⟩).2

/-- The line along a course that is flipped can be drawn. -/
theorem Course.Flips.exists_smooth {c' : Course Quantity} (h : c.Flips s c') {fromY toY : Quantity}
    (hc : ∃ commands, smooth (ofSetting s.curveRadius) (c.line fromY toY) = .ok commands) :
    ∃ commands, smooth (ofSetting s.curveRadius) (c'.line toY fromY) = .ok commands := by
  rcases h.bend with hbend | hfree
  · have hline : c'.line toY fromY = (c.line fromY toY).reverse := by
      rw [Course.line, h.leaves, h.arrives, hbend]
      rfl
    rw [hline]
    exact exists_smooth_reverse hc
  · exact hfree.exists_smooth (meets_of_smooth hc).symm

/-- The markers of a cardinality from the other end. -/
theorem Cardinality.markers_flip (cardinality : Cardinality) :
    cardinality.flip.markers = cardinality.markers.swap := by
  cases cardinality <;> rfl

theorem Relationship.flip_flip (r : Relationship) : r.flip.flip = r := by
  obtain ⟨fromTable, fromField, toTable, toField, cardinality⟩ := r
  cases cardinality <;> rfl

/-- **The connector along a flipped course** is reversed. -/
theorem Course.Flips.connector {c' : Course Quantity} (h : c.Flips s c') {r : Relationship}
    {fromY toY : Quantity} {k : Connector Quantity} (hk : c.connector s r fromY toY = .ok k) :
    ∃ k', c'.connector s r.flip toY fromY = .ok k' ∧ k.Reversed k' := by
  obtain ⟨commands, hcommands, hk⟩ := bind_eq_ok.1 hk
  obtain ⟨commands', hcommands'⟩ := h.exists_smooth ⟨commands, hcommands⟩
  refine ⟨_, bind_eq_ok.2 ⟨commands', hcommands', rfl⟩, ?_⟩
  rw [← pure_eq_ok.1 hk]
  have hmarkers := r.cardinality.markers_flip
  constructor
  case relationship => rfl
  case topology => exact h.topology
  case points =>
    have hsame := h.sameNumber
    refine .cons ⟨?_, .refl _⟩ (.cons ⟨hsame, .refl _⟩ (.cons ⟨hsame, .refl _⟩
      (.cons ⟨?_, .refl _⟩ .nil)))
    · rw [h.leaves]
      exact .refl _
    · rw [h.arrives]
      exact .refl _
  case start =>
    show (⟨⟨c'.leaves, toY⟩, c'.rotations.1, r.cardinality.flip.markers.1⟩ : Marker Quantity) = _
    rw [h.leaves, h.rotations, hmarkers]
    rfl
  case finish =>
    show (⟨⟨c'.arrives, fromY⟩, c'.rotations.2, r.cardinality.flip.markers.2⟩ : Marker Quantity) = _
    rw [h.arrives, h.rotations, hmarkers]
    rfl

/-- A connector has one from its other end. -/
theorem exists_routeBetween_flip {r : Relationship} {source target : Table Quantity}
    {p q : Point Quantity} (hp : source.position = some p) (hq : target.position = some q)
    (h : Untangled m s p.x q.x) {k : Connector Quantity}
    (hk : routeBetween m s r source target = .ok (some k)) :
    ∃ k', routeBetween m s r.flip target source = .ok (some k') ∧ k.Reversed k' := by
  obtain ⟨p', i, q', j, fromY, toY, course, hsource, htarget, hfrom, hto, hcourse, hk⟩ :=
    routeBetween_eq_some hk
  obtain rfl : p = p' :=
    Option.some.inj (hp.symm.trans (Table.fieldPlace?_eq_some_iff.1 hsource).1)
  obtain rfl : q = q' :=
    Option.some.inj (hq.symm.trans (Table.fieldPlace?_eq_some_iff.1 htarget).1)
  obtain ⟨course', hcourse', hflips⟩ := courseBetween_flip h hcourse
  obtain ⟨k', hk', hreversed⟩ := hflips.connector hk
  refine ⟨k', ?_, hreversed⟩
  have hsource' : source.fieldPlace? r.flip.toField = some (p, i) := hsource
  have htarget' : target.fieldPlace? r.flip.fromField = some (q, j) := htarget
  rw [routeBetween, hsource', htarget']
  exact bind_eq_ok.2 ⟨toY, hto, bind_eq_ok.2 ⟨fromY, hfrom, bind_eq_ok.2 ⟨course', hcourse',
    bind_eq_ok.2 ⟨k', hk', rfl⟩⟩⟩⟩

/-- **A relationship from its other end** is drawn exactly when it is drawn from this one, and its
connector is reversed. -/
theorem routeBetween_flip (m : Metrics) (s : RoutingSettings) (r : Relationship)
    {source target : Table Quantity} {p q : Point Quantity} (hp : source.position = some p)
    (hq : target.position = some q) (h : Untangled m s p.x q.x) :
    ((∃ k, routeBetween m s r source target = .ok (some k)) ↔
      ∃ k', routeBetween m s r.flip target source = .ok (some k')) ∧
    ∀ k k', routeBetween m s r source target = .ok (some k) →
      routeBetween m s r.flip target source = .ok (some k') → k.Reversed k' := by
  constructor
  · constructor
    · rintro ⟨k, hk⟩
      obtain ⟨k', hk', -⟩ := exists_routeBetween_flip hp hq h hk
      exact ⟨k', hk'⟩
    · rintro ⟨k', hk'⟩
      obtain ⟨k, hk, -⟩ := exists_routeBetween_flip hq hp h.symm hk'
      rw [Relationship.flip_flip] at hk
      exact ⟨k, hk⟩
  · intro k k' hk hk'
    obtain ⟨k'', hk'', hreversed⟩ := exists_routeBetween_flip hp hq h hk
    obtain rfl : k'' = k' := Option.some.inj (Except.ok.inj (hk''.symm.trans hk'))
    exact hreversed

/-! ## Stacked tables -/

/-- A table with one field. -/
def fieldTable (name field : String) (p : Point Quantity) : Table Quantity :=
  ⟨⟨name, [⟨field, "int", false, false, none⟩]⟩, some p⟩

/-- The points of a connector that is drawn. -/
theorem exists_of_points {x : Except ArithmeticFault (Option (Connector Quantity))}
    {points : List (Point Quantity)}
    (h : x.map (Option.map Connector.points) = .ok (some points)) :
    ∃ k, x = .ok (some k) ∧ k.points = points :=
  exists_of_map_some h

/-- One table above another one, of which only the first stands on whole coordinates. -/
theorem routeBetween_flip_stacked :
    Untangled Config.default.metrics Config.default.routing (.whole 60) (.real (.ofRat 60)) ∧
      ∃ k k', routeBetween Config.default.metrics Config.default.routing
          ⟨"a", "id", "b", "a_id", .oneToMany⟩ (fieldTable "a" "id" ⟨.whole 60, .whole 60⟩)
          (fieldTable "b" "a_id" ⟨.real (.ofRat 60), .whole 300⟩) = .ok (some k) ∧
        routeBetween Config.default.metrics Config.default.routing
          ⟨"b", "a_id", "a", "id", .manyToOne⟩
          (fieldTable "b" "a_id" ⟨.real (.ofRat 60), .whole 300⟩)
          (fieldTable "a" "id" ⟨.whole 60, .whole 60⟩) = .ok (some k') ∧
        k.Reversed k' := by
  have huntangled : Untangled Config.default.metrics Config.default.routing (.whole 60)
      (.real (.ofRat 60)) := by
    refine ⟨⟨60, rfl⟩, Option.isSome_iff_exists.1 (by decide +kernel), ?_⟩
    rintro v ⟨e, f, he, -, -, hev, -⟩
    obtain rfl := Except.ok.inj he
    obtain rfl := Option.some.inj hev
    exact ⟨by decide +kernel, by decide, by decide, by decide⟩
  have hdrawn : (routeBetween Config.default.metrics Config.default.routing
      ⟨"a", "id", "b", "a_id", .oneToMany⟩ (fieldTable "a" "id" ⟨.whole 60, .whole 60⟩)
      (fieldTable "b" "a_id" ⟨.real (.ofRat 60), .whole 300⟩)).map (Option.map Connector.points) =
      .ok (some [⟨.whole 263, .whole 105⟩, ⟨.whole 295, .whole 105⟩, ⟨.whole 295, .whole 345⟩,
        ⟨.real (.ofRat 263), .whole 345⟩]) := by decide +kernel
  obtain ⟨k, hk, -⟩ := exists_of_points hdrawn
  have hsource : (fieldTable "a" "id" ⟨.whole 60, .whole 60⟩).position =
      some ⟨.whole 60, .whole 60⟩ := rfl
  have htarget : (fieldTable "b" "a_id" ⟨.real (.ofRat 60), .whole 300⟩).position =
      some ⟨.real (.ofRat 60), .whole 300⟩ := rfl
  obtain ⟨hiff, hreversed⟩ := routeBetween_flip Config.default.metrics Config.default.routing
    ⟨"a", "id", "b", "a_id", .oneToMany⟩ hsource htarget huntangled
  obtain ⟨k', hk'⟩ := hiff.1 ⟨k, hk⟩
  exact ⟨huntangled, k, k', hk, hk', hreversed k k' hk hk'⟩

/-- **A detour that is not the same from its other end.**  Both tables end at `2 ^ 60`, the first one
at a whole number, whose sum with the padding no double holds. -/
theorem routeBetween_flip_tied :
    ∃ k k', routeBetween Config.default.metrics Config.default.routing
        ⟨"a", "id", "b", "a_id", .oneToMany⟩
        (fieldTable "a" "id" ⟨.whole (2 ^ 60 - 200), .whole 60⟩)
        (fieldTable "b" "a_id" ⟨.real (.ofRat (2 ^ 60 - 256)), .whole 300⟩) = .ok (some k) ∧
      routeBetween Config.default.metrics Config.default.routing
        ⟨"b", "a_id", "a", "id", .manyToOne⟩
        (fieldTable "b" "a_id" ⟨.real (.ofRat (2 ^ 60 - 256)), .whole 300⟩)
        (fieldTable "a" "id" ⟨.whole (2 ^ 60 - 200), .whole 60⟩) = .ok (some k') ∧
      ¬ List.Forall₂ Point.SameNumber k'.points k.points.reverse := by
  have hdrawn : (routeBetween Config.default.metrics Config.default.routing
      ⟨"a", "id", "b", "a_id", .oneToMany⟩
      (fieldTable "a" "id" ⟨.whole (2 ^ 60 - 200), .whole 60⟩)
      (fieldTable "b" "a_id" ⟨.real (.ofRat (2 ^ 60 - 256)), .whole 300⟩)).map
        (Option.map Connector.points) =
      .ok (some [⟨.whole (2 ^ 60 + 3), .whole 105⟩, ⟨.whole (2 ^ 60 + 35), .whole 105⟩,
        ⟨.whole (2 ^ 60 + 35), .whole 345⟩, ⟨.real (.ofRat (2 ^ 60)), .whole 345⟩]) := by
    decide +kernel
  have hdrawn' : (routeBetween Config.default.metrics Config.default.routing
      ⟨"b", "a_id", "a", "id", .manyToOne⟩
      (fieldTable "b" "a_id" ⟨.real (.ofRat (2 ^ 60 - 256)), .whole 300⟩)
      (fieldTable "a" "id" ⟨.whole (2 ^ 60 - 200), .whole 60⟩)).map
        (Option.map Connector.points) =
      .ok (some [⟨.real (.ofRat (2 ^ 60)), .whole 345⟩, ⟨.real (.ofRat (2 ^ 60)), .whole 345⟩,
        ⟨.real (.ofRat (2 ^ 60)), .whole 105⟩, ⟨.whole (2 ^ 60 + 3), .whole 105⟩]) := by
    decide +kernel
  obtain ⟨k, hk, hpoints⟩ := exists_of_points hdrawn
  obtain ⟨k', hk', hpoints'⟩ := exists_of_points hdrawn'
  refine ⟨k, k', hk, hk', ?_⟩
  rw [hpoints, hpoints']
  rintro (- | ⟨-, - | ⟨⟨hbend, -⟩, -⟩⟩)
  -- the bends are different numbers
  revert hbend
  decide +kernel

end SchemaDiagram
