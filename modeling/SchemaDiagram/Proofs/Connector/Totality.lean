/-
# Connectors can always be drawn

Among tables with tame positions and moderate settings, every relationship can be routed, and the
path of its connector has a text.  Nothing is made an integer on the way, so NaN does no harm.

* `turnCorner_succeeds`, `smoothFrom_succeeds` : paths with rounded corners;
* `rowCenter_succeeds`, `courseBetween_succeeds` : where a connector leaves, turns and arrives;
* `routeIn_succeeds` : the route of a relationship;
* `Connector.pathText_succeeds` : the text of a path.
-/
import SchemaDiagram.Proofs.Connector.Route
import SchemaDiagram.Proofs.Placement.Totality

namespace SchemaDiagram

/-! ## Texts -/

/-- A path command of which all coordinates are tame. -/
def PathCommand.Tame (command : PathCommand Quantity) : Prop :=
  ∀ p ∈ command.points, p.Tame 1023

/-- A connector of which the path can be written. -/
def Connector.Tame (c : Connector Quantity) : Prop := ∀ command ∈ c.commands, command.Tame

/-- **The path of a connector** has a text. -/
theorem Connector.pathText_succeeds {c : Connector Quantity} (hc : c.Tame) :
    Succeeds c.pathText fun _ => True := by
  have hwords : ∀ command ∈ c.commands, Succeeds command.words fun _ => True := by
    intro command hcommand
    have hnumber : ∀ x ∈ command.coordinates, Succeeds x.briefText fun _ => True := by
      intro x hx
      obtain ⟨p, hp, hx⟩ := List.mem_flatMap.1 hx
      obtain ⟨hpx, hpy⟩ := hc command hcommand p hp
      rcases List.mem_pair.1 hx with rfl | rfl
      · exact hpx.briefText (le_refl _)
      · exact hpy.briefText (le_refl _)
    exact (Succeeds.mapM hnumber).bind fun _ _ => .ok trivial
  exact (Succeeds.mapM hwords).bind fun _ _ => .ok trivial

/-! ## Rounded corners -/

theorem PathCommand.tame_lineTo {p : Point Quantity} (hp : p.Tame 1023) :
    (PathCommand.lineTo p).Tame := by
  intro q hq
  rw [List.mem_singleton.1 hq]
  exact hp

theorem PathCommand.tame_quadTo {control p : Point Quantity} (hcontrol : control.Tame 1023)
    (hp : p.Tame 1023) : (PathCommand.quadTo control p).Tame := by
  intro q hq
  rcases List.mem_pair.1 hq with rfl | rfl
  · exact hcontrol
  · exact hp

theorem Run.between_succeeds {p q : Point Quantity} (hp : p.Tame 1003) (hq : q.Tame 1003) :
    Succeeds (Run.between p q) fun _ => True := by
  refine (hp.1.distance hq.1 (m := 1004) (by omega) (by omega) (by omega)).bind fun _ _ => ?_
  refine (hp.2.distance hq.2 (m := 1004) (by omega) (by omega) (by omega)).bind fun _ _ => ?_
  exact .ok trivial

variable {radius : Quantity}

theorem backBy_tame (hradius : radius.AtMost 200) (start corner : Quantity) :
    (backBy radius start corner).Tame 200 := by
  rw [backBy]
  split
  · exact hradius.tame.neg
  · exact hradius.tame

theorem onBy_tame (hradius : radius.AtMost 200) (corner after : Quantity) :
    (onBy radius corner after).Tame 200 := by
  rw [onBy]
  split
  · exact hradius.tame
  · exact hradius.tame.neg

/-- The commands to a corner and around it are tame. -/
theorem turnCorner_succeeds (hradius : radius.AtMost 200) {start corner after : Point Quantity}
    (hstart : start.Tame 1003) (hcorner : corner.Tame 1003) (hafter : after.Tame 1003) :
    Succeeds (turnCorner radius start corner after) fun commands =>
      ∀ command ∈ commands, command.Tame := by
  have hwide : corner.Tame 1023 := hcorner.mono (by omega)
  have hmove : ∀ {x d : Quantity}, x.Tame 1003 → d.Tame 200 →
      Succeeds (x.add d) (Quantity.Tame 1023) := fun hx hd =>
    hx.add hd (by omega) (by omega) (by omega)
  refine (Run.between_succeeds hstart hcorner).bind fun enters _ => ?_
  refine (Run.between_succeeds hcorner hafter).bind fun leaves _ => ?_
  split
  · refine (hmove hcorner.1 (backBy_tame hradius start.x corner.x)).bind fun cut hcut => ?_
    refine (hmove hcorner.2 (onBy_tame hradius corner.y after.y)).bind fun turned hturned => ?_
    refine .ok (List.forall_mem_cons.2 ⟨PathCommand.tame_lineTo ⟨hcut, hwide.2⟩, ?_⟩)
    exact List.forall_mem_singleton.2 (PathCommand.tame_quadTo hwide ⟨hwide.1, hturned⟩)
  · split
    · refine (hmove hcorner.2 (backBy_tame hradius start.y corner.y)).bind fun cut hcut => ?_
      refine (hmove hcorner.1 (onBy_tame hradius corner.x after.x)).bind fun turned hturned => ?_
      refine .ok (List.forall_mem_cons.2 ⟨PathCommand.tame_lineTo ⟨hwide.1, hcut⟩, ?_⟩)
      exact List.forall_mem_singleton.2 (PathCommand.tame_quadTo hwide ⟨hturned, hwide.2⟩)
    · exact .ok (List.forall_mem_singleton.2 (PathCommand.tame_lineTo hwide))

/-- **The path through tame points** is tame. -/
theorem smoothFrom_succeeds (hradius : radius.AtMost 200) {start : Point Quantity}
    {points : List (Point Quantity)} (hstart : start.Tame 1003)
    (hpoints : ∀ p ∈ points, p.Tame 1003) :
    Succeeds (smoothFrom radius start points) fun commands =>
      ∀ command ∈ commands, command.Tame := by
  induction points generalizing start with
  | nil => exact .ok fun _ h => absurd h List.not_mem_nil
  | cons corner rest ih =>
    obtain ⟨hcorner, hrest⟩ := List.forall_mem_cons.1 hpoints
    cases rest with
    | nil =>
      exact .ok (List.forall_mem_singleton.2 (PathCommand.tame_lineTo (hcorner.mono (by omega))))
    | cons after rest =>
      refine (turnCorner_succeeds hradius hstart hcorner (hrest after List.mem_cons_self)).bind
        fun commands hcommands => ?_
      refine (ih hcorner hrest).bind fun others hothers => .ok ?_
      exact List.forall_mem_append.2 ⟨hcommands, hothers⟩

/-! ## Courses -/

variable {c : Config}

/-- The middle of a row of a tame table. -/
theorem rowCenter_succeeds (hc : c.Moderate) {y : Quantity} (hy : y.Tame 1000) {place : ℕ}
    (hplace : place ≤ 2 ^ 200) :
    Succeeds (rowCenter c.metrics y (ofSetting place)) (Quantity.Tame 1003) := by
  obtain ⟨-, hheader, hfield, hcenter⟩ := hc.metrics
  have hheader : (Quantity.whole c.metrics.headerHeight).Tame 200 :=
    .inr (abs_natCast_le_pow hheader)
  have hcenter : (Quantity.whole c.metrics.fieldCenterOffset).Tame 200 :=
    .inr (abs_natCast_le_pow hcenter)
  have hrows : Succeeds ((Quantity.whole place).mul (.whole c.metrics.fieldHeight))
      (Quantity.AtMost 400) :=
    Quantity.AtMost.mul (x := .whole _) (y := .whole _) (abs_natCast_le_pow hplace)
      (abs_natCast_le_pow hfield) (by omega) (by omega)
  refine (hy.add hheader (m := 1001) (by omega) (by omega) (by omega)).bind fun body hbody => ?_
  refine hrows.bind fun rows hrows => ?_
  refine (hbody.add hrows.tame (m := 1002) (by omega) (by omega) (by omega)).bind fun top htop => ?_
  exact htop.add hcenter (by omega) (by omega) (by omega)

/-- A course of which all coordinates are tame. -/
structure Course.Tame (course : Course Quantity) : Prop where
  leaves : course.leaves.Tame 1003
  bend : course.bend.Tame 1003
  arrives : course.arrives.Tame 1003

theorem midway_succeeds {a b : Quantity} (ha : a.Tame 1002) (hb : b.Tame 1002) :
    Succeeds (midway a b) (Quantity.Tame 1003) :=
  (ha.add hb (m := 1003) (by omega) (by omega) (by omega)).bind fun _ hsum =>
    hsum.half (by omega)

/-- **The course** between tame tables. -/
theorem courseBetween_succeeds (hc : c.Moderate) {fromX toX : Quantity} (hfrom : fromX.Tame 1000)
    (hto : toX.Tame 1000) :
    Succeeds (courseBetween c.metrics c.routing fromX toX) Course.Tame := by
  obtain ⟨hpadding, -, hoffset⟩ := hc.routing
  have hwidth : (c.metrics.boxWidth : Quantity).Tame 200 := .inr (abs_natCast_le_pow hc.metrics.1)
  have hpadding : (ofSetting c.routing.detourPadding : Quantity).Tame 200 :=
    .inr (abs_natCast_le_pow hpadding)
  have hoffset : (ofSetting c.routing.endpointOffset : Quantity).Tame 200 :=
    .inr (abs_natCast_le_pow hoffset)
  have hplus : ∀ {x : Quantity}, x.Tame 1001 →
      Succeeds (x.add (ofSetting c.routing.endpointOffset)) (Quantity.Tame 1002) := fun hx =>
    hx.add hoffset (by omega) (by omega) (by omega)
  have hminus : ∀ {x : Quantity}, x.Tame 1001 →
      Succeeds (x.sub (ofSetting c.routing.endpointOffset)) (Quantity.Tame 1002) := fun hx =>
    hx.sub hoffset (by omega) (by omega) (by omega)
  refine (hfrom.add hwidth (m := 1001) (by omega) (by omega) (by omega)).bind
    fun fromRight hfromRight => ?_
  refine (hto.add hwidth (m := 1001) (by omega) (by omega) (by omega)).bind
    fun toRight htoRight => ?_
  dsimp only
  split
  · refine (hplus hfromRight).bind fun leaves hleaves => ?_
    refine (hminus (hto.mono (by omega))).bind fun arrives harrives => ?_
    refine (midway_succeeds hleaves harrives).bind fun bend hbend => ?_
    exact .ok ⟨hleaves.mono (by omega), hbend, harrives.mono (by omega)⟩
  · split
    · refine (hminus (hfrom.mono (by omega))).bind fun leaves hleaves => ?_
      refine (hplus htoRight).bind fun arrives harrives => ?_
      refine (midway_succeeds hleaves harrives).bind fun bend hbend => ?_
      exact .ok ⟨hleaves.mono (by omega), hbend, harrives.mono (by omega)⟩
    · refine (hplus hfromRight).bind fun leaves hleaves => ?_
      refine (hplus htoRight).bind fun arrives harrives => ?_
      refine ((hfromRight.larger htoRight).add hpadding (m := 1003) (by omega) (by omega)
        (by omega)).bind fun bend hbend => ?_
      exact .ok ⟨hleaves.mono (by omega), hbend, harrives.mono (by omega)⟩

/-- The connector along a tame course is tame. -/
theorem Course.connector_succeeds (hc : c.Moderate) {course : Course Quantity} (h : course.Tame)
    (r : Relationship) {fromY toY : Quantity} (hfrom : fromY.Tame 1003) (hto : toY.Tame 1003) :
    Succeeds (course.connector c.routing r fromY toY) Connector.Tame := by
  obtain ⟨-, hradius, -⟩ := hc.routing
  have hradius : (ofSetting c.routing.curveRadius : Quantity).AtMost 200 :=
    abs_natCast_le_pow hradius
  have hstart : Point.Tame 1003 ⟨course.leaves, fromY⟩ := ⟨h.leaves, hfrom⟩
  have hpoints : ∀ p ∈ [⟨course.bend, fromY⟩, ⟨course.bend, toY⟩, ⟨course.arrives, toY⟩],
      Point.Tame 1003 p := by
    refine List.forall_mem_cons.2 ⟨⟨h.bend, hfrom⟩, List.forall_mem_cons.2 ⟨⟨h.bend, hto⟩, ?_⟩⟩
    exact List.forall_mem_singleton.2 ⟨h.arrives, hto⟩
  have hsmooth : Succeeds (smooth (ofSetting c.routing.curveRadius)
      [⟨course.leaves, fromY⟩, ⟨course.bend, fromY⟩, ⟨course.bend, toY⟩, ⟨course.arrives, toY⟩])
      fun commands => ∀ command ∈ commands, command.Tame := by
    refine (smoothFrom_succeeds hradius hstart hpoints).bind fun commands hcommands => .ok ?_
    refine List.forall_mem_cons.2 ⟨?_, hcommands⟩
    exact PathCommand.tame_lineTo (hstart.mono (by omega))
  exact hsmooth.bind fun commands hcommands => .ok hcommands

/-! ## Routes -/

/-- Where a field of a tame table is drawn. -/
theorem Table.Tame.fieldPlace {t : Table Quantity} (ht : t.Tame) {field : String}
    {p : Point Quantity} {i : ℕ} (h : t.fieldPlace? field = some (p, i)) :
    p.Tame 1000 ∧ i ≤ 2 ^ 200 := by
  obtain ⟨hp, hi⟩ := Table.fieldPlace?_eq_some_iff.1 h
  exact ⟨ht.position p hp, (fieldIndex?_lt hi).le.trans ht.fields⟩

theorem routeBetween_succeeds (hc : c.Moderate) (r : Relationship)
    {source target : Table Quantity} (hsource : source.Tame) (htarget : target.Tame) :
    Succeeds (routeBetween c.metrics c.routing r source target) fun drawn =>
      ∀ connector, drawn = some connector → connector.Tame := by
  rw [routeBetween]
  split
  · next p i q j hfrom hto =>
    obtain ⟨hp, hi⟩ := hsource.fieldPlace hfrom
    obtain ⟨hq, hj⟩ := htarget.fieldPlace hto
    refine (rowCenter_succeeds hc hp.2 hi).bind fun fromY hfromY => ?_
    refine (rowCenter_succeeds hc hq.2 hj).bind fun toY htoY => ?_
    refine (courseBetween_succeeds hc hp.1 hq.1).bind fun course hcourse => ?_
    refine (Course.connector_succeeds hc hcourse r hfromY htoY).bind fun connector htame => ?_
    exact .ok fun _ h => Option.some.inj h ▸ htame
  · refine .ok fun _ h => ?_
    cases h

/-- **Every relationship** among tame tables can be routed, and its connector is tame. -/
theorem routeIn_succeeds (hc : c.Moderate) {tables : Registry (Table Quantity)}
    (htables : ∀ name t, tables.get? name = some t → t.Tame) (r : Relationship) :
    Succeeds (routeIn c.metrics c.routing tables r) fun route =>
      ∀ connector, route.connector? = some connector → connector.Tame := by
  rw [routeIn]
  split
  · next source target hsource htarget =>
    refine (routeBetween_succeeds hc r (htables _ source hsource)
      (htables _ target htarget)).bind fun drawn hdrawn => ?_
    cases drawn with
    | none => exact .ok fun _ h => nomatch h
    | some connector => exact .ok fun _ h => Option.some.inj h ▸ hdrawn connector rfl
  · exact .ok fun _ h => nomatch h

end SchemaDiagram
