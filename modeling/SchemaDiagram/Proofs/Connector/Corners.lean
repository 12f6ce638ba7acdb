/-
# Rounded corners stay on the line

Over exact numbers, a line of horizontal and vertical segments with room for a radius at its corners
is followed by its path: the path passes the points of the line in their order, leaves the line only
at a corner, as far before the corner as it comes back behind it, and never doubles back.

* `Point.At`, `AtArc` : the point at a distance along a segment, and along a line;
* `IsCorner`, `HasRoom` : the corners that are rounded, and a line with room for that;
* `turnCorner_corner`, `turnCorner_through` : the commands at a point between two segments;
* `Follows` : a path that follows a line;
* `smoothFrom_follows`, `smooth_follows` : the path with rounded corners follows its line.
-/
import Mathlib.Tactic.Ring
import SchemaDiagram.Proofs.Connector.Clearance
import SchemaDiagram.Proofs.Number.Rounding

namespace SchemaDiagram

/-! ## Distances along a line -/

/-- The length of a horizontal or vertical segment: one of the two summands is zero. -/
def Point.distance (p q : Point Rat) : Rat := |p.x - q.x| + |p.y - q.y|

/-- A point lies at a distance from the first end of a segment. -/
def Point.At (p q : Point Rat) (d : Rat) (r : Point Rat) : Prop :=
  p.Between q (r.map (↑)) ∧ p.distance r = d

/-- A point lies at an arc length from the first point of a line. -/
def AtArc : List (Point Rat) → Rat → Point Rat → Prop
  | p :: q :: rest, arc, r => p.At q arc r ∨ AtArc (q :: rest) (arc - p.distance q) r
  | _, _, _ => False

namespace Point

variable {p q r : Point Rat} {d : Rat}

theorem distance_nonneg (p q : Point Rat) : 0 ≤ p.distance q := by
  unfold distance
  positivity

/-- The first end of a segment lies at no distance. -/
theorem at_start (p q : Point Rat) : p.At q 0 p := by
  refine ⟨⟨0, le_rfl, zero_le_one, ?_, ?_⟩, ?_⟩
  · simp [map]
  · simp [map]
  · simp [distance]

/-- The second end of a segment lies at its length. -/
theorem at_end (p q : Point Rat) : p.At q (p.distance q) q := by
  refine ⟨⟨1, zero_le_one, le_rfl, ?_, ?_⟩, rfl⟩
  · simp [map]
  · simp [map]

/-- A number between two others, as far from the one and the other as these are from each other. -/
theorem abs_sub_add_abs_sub {u v w : Rat} {t : ℝ} (ht : 0 ≤ t) (ht' : t ≤ 1)
    (hw : (w : ℝ) = v + t * (u - v)) : |u - w| + |v - w| = |u - v| := by
  have hfirst : ((u - w : Rat) : ℝ) = (1 - t) * (u - v : Rat) := by
    push_cast
    rw [hw]
    ring
  have hsecond : ((v - w : Rat) : ℝ) = -(t * (u - v : Rat)) := by
    push_cast
    rw [hw]
    ring
  have hreal : |((u - w : Rat) : ℝ)| + |((v - w : Rat) : ℝ)| = |((u - v : Rat) : ℝ)| := by
    rw [hfirst, hsecond, abs_neg, abs_mul, abs_mul, abs_of_nonneg ht,
      abs_of_nonneg (sub_nonneg.2 ht')]
    ring
  exact_mod_cast hreal

/-- A point at a distance from the second end of a segment lies at the rest of its length. -/
theorem At.swap (h : q.At p d r) : p.At q (p.distance q - d) r := by
  obtain ⟨⟨t, ht, ht', hx, hy⟩, hd⟩ := h
  simp only [map] at hx hy
  refine ⟨⟨1 - t, by linarith, by linarith, ?_, ?_⟩, ?_⟩
  · simp only [map]
    rw [hx]
    ring
  · simp only [map]
    rw [hy]
    ring
  · have hacross := abs_sub_add_abs_sub ht ht' hx
    have hdown := abs_sub_add_abs_sub ht ht' hy
    unfold distance at *
    linarith

end Point

/-- What lies along a part of a line lies along the line. -/
theorem AtArc.cons {p q r : Point Rat} {rest : List (Point Rat)} {arc : Rat}
    (h : AtArc (q :: rest) arc r) : AtArc (p :: q :: rest) (p.distance q + arc) r := by
  right
  rwa [add_sub_cancel_left]

/-! ## Corners -/

/-- A point joins a horizontal and a vertical segment, of which none is empty. -/
def IsCorner (p c q : Point Rat) : Prop :=
  (p.y = c.y ∧ p.x ≠ c.x ∧ c.x = q.x ∧ c.y ≠ q.y) ∨
    (p.x = c.x ∧ p.y ≠ c.y ∧ c.y = q.y ∧ c.x ≠ q.x)

instance (p c q : Point Rat) : Decidable (IsCorner p c q) := by
  unfold IsCorner
  infer_instance

/-- The corners of a line have room to be rounded: a segment between two of them is at least two
radii long, and a segment with one at least one radius. -/
structure HasRoom (radius : Rat) (points : List (Point Rat)) : Prop where
  two : ∀ p c d q, [p, c, d, q] <:+: points → IsCorner p c d → IsCorner c d q →
    2 * radius ≤ c.distance d
  one : ∀ p c q, [p, c, q] <:+: points → IsCorner p c q →
    radius ≤ p.distance c ∧ radius ≤ c.distance q

/-- A line has room on its first segment for a corner at the end of that. -/
theorem HasRoom.first {radius : Rat} {p c : Point Rat} {rest : List (Point Rat)}
    (h : HasRoom radius (p :: c :: rest)) (q : Point Rat) (hq : [q] <+: rest)
    (hcorner : IsCorner p c q) : 0 + radius ≤ p.distance c := by
  have hinfix : [p, c, q] <:+: p :: c :: rest :=
    ((List.prefix_append_right_inj [p, c]).2 hq).isInfix
  have hone := h.one p c q hinfix hcorner
  linarith [hone.1]

theorem HasRoom.tail {radius : Rat} {p : Point Rat} {points : List (Point Rat)}
    (h : HasRoom radius (p :: points)) : HasRoom radius points where
  two a c d b hinfix := h.two a c d b (List.infix_cons hinfix)
  one a c b hinfix := h.one a c b (List.infix_cons hinfix)

section

variable {radius : Rat} {p c q : Point Rat}

/-- In one direction, the radius towards a coordinate ends between the two, at that distance. -/
theorem onBy_between {u v : Rat} (hradius : 0 ≤ radius) (hne : u ≠ v) (hroom : radius ≤ |u - v|) :
    |onBy radius u v| = radius ∧
      ∃ t : ℝ, 0 ≤ t ∧ t ≤ 1 ∧ ((u + onBy radius u v : Rat) : ℝ) = u + t * (v - u) := by
  have hlength : (0 : ℝ) < |((u - v : Rat) : ℝ)| := by
    rw [abs_pos]
    exact_mod_cast sub_ne_zero.2 hne
  have honBy : onBy radius u v = if u < v then radius else -radius := by
    show (if decide (u < v) = true then radius else -radius) = _
    simp only [decide_eq_true_eq]
  constructor
  · rw [honBy]
    split
    · exact abs_of_nonneg hradius
    · rw [abs_neg, abs_of_nonneg hradius]
  · refine ⟨radius / |((u - v : Rat) : ℝ)|, ?_, ?_, ?_⟩
    · have hreal : (0 : ℝ) ≤ radius := by exact_mod_cast hradius
      positivity
    · rw [div_le_one hlength]
      exact_mod_cast hroom
    · rw [honBy]
      rcases lt_or_gt_of_ne hne with hless | hless
      · have hreal : (u : ℝ) < v := by exact_mod_cast hless
        rw [if_pos hless]
        push_cast
        rw [abs_of_neg (sub_neg.2 hreal), neg_sub, div_mul_cancel₀ _ (sub_pos.2 hreal).ne']
      · have hreal : (v : ℝ) < u := by exact_mod_cast hless
        rw [if_neg (not_lt.2 hless.le)]
        push_cast
        rw [abs_of_pos (sub_pos.2 hreal), ← neg_sub (u : ℝ) v, mul_neg,
          div_mul_cancel₀ _ (sub_pos.2 hreal).ne']

/-- Across, the radius towards the other end of a segment is the point at that distance. -/
theorem Point.at_across (hradius : 0 ≤ radius) (hy : c.y = q.y) (hne : c.x ≠ q.x)
    (hroom : radius ≤ c.distance q) : c.At q radius ⟨c.x + onBy radius c.x q.x, c.y⟩ := by
  unfold Point.distance at hroom
  rw [hy, sub_self, abs_zero, add_zero] at hroom
  obtain ⟨hdistance, t, ht, ht', hx⟩ := onBy_between hradius hne hroom
  refine ⟨⟨t, ht, ht', hx, ?_⟩, ?_⟩
  · simp [map, hy]
  · simp [distance, hdistance]

/-- Down, the radius towards the other end of a segment is the point at that distance. -/
theorem Point.at_down (hradius : 0 ≤ radius) (hx : c.x = q.x) (hne : c.y ≠ q.y)
    (hroom : radius ≤ c.distance q) : c.At q radius ⟨c.x, c.y + onBy radius c.y q.y⟩ := by
  unfold Point.distance at hroom
  rw [hx, sub_self, abs_zero, zero_add] at hroom
  obtain ⟨hdistance, t, ht, ht', hy⟩ := onBy_between hradius hne hroom
  refine ⟨⟨t, ht, ht', ?_, hy⟩, ?_⟩
  · simp [map, hx]
  · simp [distance, hdistance]

/-- To go back from a corner is to go on towards where the path comes from. -/
theorem backBy_eq_onBy {start corner : Rat} (hne : start ≠ corner) :
    backBy radius start corner = onBy radius corner start := by
  show (if decide (start < corner) = true then -radius else radius) =
    if decide (corner < start) = true then radius else -radius
  rcases lt_or_gt_of_ne hne with hless | hless
  · simp [hless, hless.le]
  · simp [hless, hless.le]

theorem Run.between_exact (p q : Point Rat) :
    Run.between p q = .ok ⟨|p.x - q.x|, |p.y - q.y|⟩ := by
  show Except.ok (Run.mk (p.x - q.x).abs (p.y - q.y).abs) = _
  rw [rat_abs_eq, rat_abs_eq]

/-- The commands at a point between two segments, over exact numbers. -/
theorem turnCorner_exact (radius : Rat) (p c q : Point Rat) :
    turnCorner radius p c q = .ok (
      if |p.y - c.y| < |p.x - c.x| ∧ |c.x - q.x| < |c.y - q.y| then
        [.lineTo ⟨c.x + backBy radius p.x c.x, c.y⟩,
          .quadTo c ⟨c.x, c.y + onBy radius c.y q.y⟩]
      else if |p.x - c.x| < |p.y - c.y| ∧ |c.y - q.y| < |c.x - q.x| then
        [.lineTo ⟨c.x, c.y + backBy radius p.y c.y⟩,
          .quadTo c ⟨c.x + onBy radius c.x q.x, c.y⟩]
      else [.lineTo c]) := by
  have hadd : ∀ x y : Rat, Arithmetic.add x y = .ok (x + y) := fun _ _ => rfl
  have hlt : ∀ x y : Rat, Arithmetic.lt x y = decide (x < y) := fun _ _ => rfl
  simp only [turnCorner, Run.between_exact, Run.isHorizontal, Run.isVertical, hadd, hlt, bind,
    Except.bind, pure, Except.pure, Bool.and_eq_true, decide_eq_true_eq]
  split
  · rfl
  · split <;> rfl

/-- A corner with room for the radius is cut off at the radius before it and behind it. -/
theorem turnCorner_corner (hradius : 0 ≤ radius) (h : IsCorner p c q)
    (hroom : radius ≤ p.distance c ∧ radius ≤ c.distance q) :
    ∃ cut turned, turnCorner radius p c q = .ok [.lineTo cut, .quadTo c turned] ∧
      c.At p radius cut ∧ c.At q radius turned := by
  have hroom_in : radius ≤ c.distance p := by
    unfold Point.distance at *
    rw [abs_sub_comm c.x, abs_sub_comm c.y]
    exact hroom.1
  rw [turnCorner_exact]
  rcases h with ⟨hy, hx, hx', hy'⟩ | ⟨hx, hy, hy', hx'⟩
  · rw [if_pos, backBy_eq_onBy hx]
    · exact ⟨_, _, rfl, Point.at_across hradius hy.symm (Ne.symm hx) hroom_in,
        Point.at_down hradius hx' hy' hroom.2⟩
    · rw [hy, hx', sub_self, sub_self, abs_zero, abs_pos, abs_pos, sub_ne_zero, sub_ne_zero]
      exact ⟨hx' ▸ hx, hy'⟩
  · rw [if_neg, if_pos, backBy_eq_onBy hy]
    · exact ⟨_, _, rfl, Point.at_down hradius hx.symm (Ne.symm hy) hroom_in,
        Point.at_across hradius hy' hx' hroom.2⟩
    · rw [hx, hy', sub_self, sub_self, abs_zero, abs_pos, abs_pos, sub_ne_zero, sub_ne_zero]
      exact ⟨hy' ▸ hy, hx'⟩
    · rw [hx, sub_self, abs_zero, not_and_or, not_lt]
      exact Or.inl (abs_nonneg _)

/-- Coordinates that are farther apart than others differ. -/
theorem ne_of_abs_lt {u v w z : Rat} (h : |u - v| < |w - z|) : w ≠ z := by
  intro heq
  rw [heq, sub_self, abs_zero] at h
  exact absurd h (not_lt.2 (abs_nonneg _))

/-- Another point between two horizontal or vertical segments is passed in a straight line. -/
theorem turnCorner_through (hin : p.x = c.x ∨ p.y = c.y) (hout : c.x = q.x ∨ c.y = q.y)
    (h : ¬ IsCorner p c q) : turnCorner radius p c q = .ok [.lineTo c] := by
  rw [turnCorner_exact, if_neg, if_neg]
  · rintro ⟨henters, hleaves⟩
    have hy := ne_of_abs_lt henters
    have hx := ne_of_abs_lt hleaves
    exact h (Or.inr ⟨hin.resolve_right hy, hy, hout.resolve_left hx, hx⟩)
  · rintro ⟨henters, hleaves⟩
    have hx := ne_of_abs_lt henters
    have hy := ne_of_abs_lt hleaves
    exact h (Or.inl ⟨hin.resolve_left hx, hx, hout.resolve_right hy, hy⟩)

end

/-! ## Paths that follow a line -/

/-- The commands from a point of a line through the others to the last one.  A corner is left out:
the path goes to the point at the radius before it, and around it to the point at the radius behind
it.  Every other point is passed itself. -/
inductive FollowsFrom (radius : Rat) :
    Point Rat → List (Point Rat) → List (PathCommand Rat) → Prop
  | last {start last} : FollowsFrom radius start [last] [.lineTo last]
  | corner {start c after rest cut turned commands} (hcorner : IsCorner start c after)
      (hcut : c.At start radius cut) (hturned : c.At after radius turned)
      (hrest : FollowsFrom radius c (after :: rest) commands) :
      FollowsFrom radius start (c :: after :: rest) (.lineTo cut :: .quadTo c turned :: commands)
  | through {start c after rest commands} (hcorner : ¬ IsCorner start c after)
      (hrest : FollowsFrom radius c (after :: rest) commands) :
      FollowsFrom radius start (c :: after :: rest) (.lineTo c :: commands)

/-- The commands of a path that follows a line: it starts at the first point. -/
def Follows (radius : Rat) : List (Point Rat) → List (PathCommand Rat) → Prop
  | start :: rest, .moveTo p :: commands => p = start ∧ FollowsFrom radius start rest commands
  | _, _ => False

/-- The commands of a path end along a line one after the other, and never before a part of it that
is spent. -/
def EndsAlong (points : List (Point Rat)) (spent : Rat) (commands : List (PathCommand Rat)) : Prop :=
  ∃ arcs : List Rat, (spent :: arcs).Pairwise (· ≤ ·) ∧
    List.Forall₂ (fun arc command => AtArc points arc command.endPoint) arcs commands

theorem isOrthogonal_cons {p q : Point Rat} {rest : List (Point Rat)}
    (h : IsOrthogonal (p :: q :: rest)) :
    (p.x = q.x ∨ p.y = q.y) ∧ IsOrthogonal (q :: rest) := by
  unfold IsOrthogonal segmentsOf at *
  simp only [List.tail_cons, List.zip_cons_cons, List.forall_mem_cons] at h
  exact h

section

variable {points rest : List (Point Rat)} {p c : Point Rat} {spent arc : Rat}
  {command : PathCommand Rat} {commands : List (PathCommand Rat)}

/-- A command that ends along a line before all others. -/
theorem EndsAlong.cons (hspent : spent ≤ arc) (hcommand : AtArc points arc command.endPoint)
    (h : EndsAlong points arc commands) : EndsAlong points spent (command :: commands) := by
  obtain ⟨arcs, hsorted, hends⟩ := h
  refine ⟨arc :: arcs, ?_, .cons hcommand hends⟩
  rw [List.pairwise_cons]
  refine ⟨?_, hsorted⟩
  intro b hb
  rcases List.mem_cons.1 hb with rfl | hb
  · exact hspent
  · exact hspent.trans ((List.pairwise_cons.1 hsorted).1 b hb)

/-- What ends along a part of a line ends along the line, behind the segment before the part. -/
theorem EndsAlong.behind (h : EndsAlong (c :: rest) spent commands) :
    EndsAlong (p :: c :: rest) (p.distance c + spent) commands := by
  obtain ⟨arcs, hsorted, hends⟩ := h
  refine ⟨arcs.map (p.distance c + ·), ?_, ?_⟩
  · rw [← List.map_cons (f := (p.distance c + ·)), List.pairwise_map]
    exact hsorted.imp fun hle => add_le_add_right hle _
  · rw [List.forall₂_map_left_iff]
    exact hends.imp fun _ _ hat => hat.cons

/-- The commands at a corner end at the radius before it and behind it, and what ends along the rest
of the line goes on from there. -/
theorem EndsAlong.corner {radius : Rat} {after cut turned : Point Rat} (hradius : 0 ≤ radius)
    (hspent : spent + radius ≤ p.distance c) (hcut : c.At p radius cut)
    (hturned : c.At after radius turned) (h : EndsAlong (c :: after :: rest) radius commands) :
    EndsAlong (p :: c :: after :: rest) spent (.lineTo cut :: .quadTo c turned :: commands) := by
  have hfirst : AtArc (p :: c :: after :: rest) (p.distance c - radius) cut := Or.inl hcut.swap
  have hsecond : AtArc (p :: c :: after :: rest) (p.distance c + radius) turned :=
    AtArc.cons (Or.inl hturned)
  have hbefore : spent ≤ p.distance c - radius := by linarith
  have hbetween : p.distance c - radius ≤ p.distance c + radius := by linarith
  exact .cons hbefore hfirst (.cons hbetween hsecond h.behind)

/-- The command at another point ends there. -/
theorem EndsAlong.through (hspent : spent ≤ p.distance c) (h : EndsAlong (c :: rest) 0 commands) :
    EndsAlong (p :: c :: rest) spent (.lineTo c :: commands) := by
  refine .cons hspent (Or.inl (p.at_end c)) ?_
  have hbehind := h.behind (p := p)
  rwa [add_zero] at hbehind

/-- **The path from a point of a line**, of which a part up to the next point is spent by the corner
before, follows the line and ends along what is not spent. -/
theorem smoothFrom_follows {radius : Rat} (hradius : 0 ≤ radius) {start next : Point Rat}
    {rest : List (Point Rat)} (horthogonal : IsOrthogonal (start :: next :: rest))
    (hroom : HasRoom radius (start :: next :: rest)) {spent : Rat}
    (hspent : spent ≤ start.distance next)
    (hcorner : ∀ after, [after] <+: rest → IsCorner start next after →
      spent + radius ≤ start.distance next) :
    ∃ commands, smoothFrom radius start (next :: rest) = .ok commands ∧
      FollowsFrom radius start (next :: rest) commands ∧
      EndsAlong (start :: next :: rest) spent commands := by
  induction rest generalizing start next spent with
  | nil =>
    refine ⟨[.lineTo next], rfl, .last, [start.distance next], ?_, ?_⟩
    · simpa using hspent
    · exact .cons (Or.inl (start.at_end next)) .nil
  | cons after rest ih =>
    obtain ⟨hin, horthogonal⟩ := isOrthogonal_cons horthogonal
    have hout := (isOrthogonal_cons horthogonal).1
    have hprefix : [start, next, after] <:+: start :: next :: after :: rest :=
      (List.prefix_append [start, next, after] rest).isInfix
    by_cases hturn : IsCorner start next after
    · -- the next segment is spent up to the radius
      have hboth := hroom.one start next after hprefix hturn
      obtain ⟨cut, turned, hturned, hcut, hat⟩ := turnCorner_corner hradius hturn hboth
      have hnext : ∀ q, [q] <+: rest → IsCorner next after q →
          radius + radius ≤ next.distance after := by
        intro q hq hnext
        have hinfix : [start, next, after, q] <:+: start :: next :: after :: rest :=
          ((List.prefix_append_right_inj [start, next, after]).2 hq).isInfix
        have htwo := hroom.two start next after q hinfix hturn hnext
        linarith
      obtain ⟨commands, hcommands, hfollows, hends⟩ := ih horthogonal hroom.tail hboth.2 hnext
      have hleft := hcorner after (List.prefix_append [after] rest) hturn
      refine ⟨.lineTo cut :: .quadTo next turned :: commands, ?_,
        .corner hturn hcut hat hfollows, ?_⟩
      · rw [smoothFrom, hturned, hcommands]
        rfl
      · exact hends.corner hradius hleft hcut hat
    · have hthrough : turnCorner radius start next after = .ok [.lineTo next] :=
        turnCorner_through hin hout hturn
      obtain ⟨commands, hcommands, hfollows, hends⟩ :=
        ih horthogonal hroom.tail (next.distance_nonneg after) hroom.tail.first
      refine ⟨.lineTo next :: commands, ?_, .through hturn hfollows, ?_⟩
      · rw [smoothFrom, hthrough, hcommands]
        rfl
      · exact hends.through hspent

/-- The commands from a point of a line go straight to its last point. -/
theorem FollowsFrom.getLast? {radius : Rat} {start : Point Rat}
    (h : FollowsFrom radius start points commands) :
    commands.getLast? = points.getLast?.map .lineTo := by
  induction h with
  | last => rfl
  | corner _ _ _ _ ih => simp [List.getLast?_cons, ih]
  | through _ _ ih => simp [List.getLast?_cons, ih]

/-- **The path with rounded corners** of a line with room for them follows the line: it starts at
the first point and goes straight to the last one, cuts the corners at the radius, passes the other
points, and its commands end along the line one after the other. -/
theorem smooth_follows {radius : Rat} (hradius : 0 ≤ radius) (hlength : 2 ≤ points.length)
    (horthogonal : IsOrthogonal points) (hroom : HasRoom radius points) :
    ∃ commands, smooth radius points = .ok commands ∧
      commands.head? = points.head?.map .moveTo ∧
      commands.getLast? = points.getLast?.map .lineTo ∧
      Follows radius points commands ∧ EndsAlong points 0 commands := by
  match points, hlength with
  | start :: next :: rest, _ =>
    obtain ⟨commands, hcommands, hfollows, hends⟩ :=
      smoothFrom_follows hradius horthogonal hroom (start.distance_nonneg next) hroom.first
    refine ⟨.moveTo start :: commands, ?_, rfl, ?_, ⟨rfl, hfollows⟩, ?_⟩
    · rw [smooth, hcommands]
      rfl
    · simp [List.getLast?_cons, hfollows.getLast?]
    · exact .cons le_rfl (Or.inl (start.at_start next)) hends

/-- A line with a narrow passage between two corners, a way back and an empty segment. -/
def crookedLine : List (Point Rat) :=
  [⟨0, 0⟩, ⟨10, 0⟩, ⟨10, 10⟩, ⟨20, 10⟩, ⟨15, 10⟩, ⟨15, 10⟩, ⟨15, 0⟩]

theorem hasRoom_crookedLine : HasRoom 5 crookedLine := by
  unfold crookedLine
  constructor
  · intro p c d q hinfix hc hd
    simp only [List.infix_cons_iff, List.cons_prefix_cons, List.nil_prefix, and_true,
      List.prefix_rfl, List.prefix_nil, List.cons_ne_self, and_false, reduceCtorEq,
      List.infix_nil, or_self, or_false] at hinfix
    rcases hinfix with ⟨rfl, rfl, rfl, rfl⟩ | ⟨rfl, rfl, rfl, rfl⟩ | ⟨rfl, rfl, rfl, rfl⟩ |
      ⟨rfl, rfl, rfl, rfl⟩
    · norm_num [Point.distance]
    all_goals exact absurd hd (by decide +kernel)
  · intro p c q hinfix hc
    simp only [List.infix_cons_iff, List.cons_prefix_cons, List.nil_prefix, and_true,
      List.prefix_rfl, List.prefix_nil, List.cons_ne_self, and_false, reduceCtorEq,
      List.infix_nil, or_self, or_false] at hinfix
    rcases hinfix with ⟨rfl, rfl, rfl⟩ | ⟨rfl, rfl, rfl⟩ | ⟨rfl, rfl, rfl⟩ | ⟨rfl, rfl, rfl⟩ |
      ⟨rfl, rfl, rfl⟩
    · norm_num [Point.distance]
    · norm_num [Point.distance]
    all_goals exact absurd hc (by decide +kernel)

theorem smooth_follows_crookedLine :
    (0 : Rat) ≤ 5 ∧ 2 ≤ crookedLine.length ∧ IsOrthogonal crookedLine ∧ HasRoom 5 crookedLine ∧
      ∃ commands, smooth 5 crookedLine = .ok commands ∧
        commands.head? = some (.moveTo ⟨0, 0⟩) ∧ commands.getLast? = some (.lineTo ⟨15, 0⟩) ∧
        Follows 5 crookedLine commands ∧ EndsAlong crookedLine 0 commands := by
  have hradius : (0 : Rat) ≤ 5 := by norm_num
  have hlength : 2 ≤ crookedLine.length := by decide
  have horthogonal : IsOrthogonal crookedLine := by
    simp [IsOrthogonal, segmentsOf, crookedLine]
  exact ⟨hradius, hlength, horthogonal, hasRoom_crookedLine,
    smooth_follows hradius hlength horthogonal hasRoom_crookedLine⟩

end

end SchemaDiagram
