/-
# What an edit leaves alone

A diagram has the tables of its text.  Those whose position is known are there, whatever else the
text says, and every other table is allocated beside all known ones and the others before it.

* `Diagram.Framed` : that a diagram consists of some entities, with the known ones in place;
* `Diagram.build_congr` : names that the text does not have make no difference;
* `Diagram.build_framed` : every diagram of a text is framed, and no edit moves its tables.
-/
import SchemaDiagram.Proofs.Diagram.Build

namespace SchemaDiagram

variable {α : Type}

namespace Diagram

/-- The tables that a table is allocated beside when `before` are the names before its own: all
those whose position is known, and then the others before it. -/
def allocatedBeside (d : Diagram α) (known : String → Option (Point α)) (before : List String) :
    List (Table α) :=
  (d.tables.keys.filter (fun name => (known name).isSome) ++
    before.filter (fun name => (known name).isNone)).filterMap d.tables.get?

variable [Arithmetic α]

/-- A diagram that consists of some entities, in order.  Each of them is placed: where it is known
to be, or else where it is allocated. -/
structure Framed (c : Config) (entities : Registry Entity) (known : String → Option (Point α))
    (d : Diagram α) : Prop where
  keys : d.tables.keys = entities.keys
  placed : ∀ name e, entities.get? name = some e → ∃ p, d.tables.get? name = some ⟨e, some p⟩
  kept : ∀ name t p, d.tables.get? name = some t → known name = some p → t.position = some p
  allocated : ∀ before name after, d.tables.keys = before ++ name :: after → known name = none →
    ∃ t p, d.tables.get? name = some t ∧ t.position = some (.ofInts p.position) ∧
      c.allocate t.fields.length (boxesOf (d.allocatedBeside known before)) = .ok p

variable {c : Config} {text : List Char} {recent : Registry (Point α)}
  {saved : Registry (Point α) LooseText} {d : Diagram α}

/-- A diagram depends on the known positions of the tables of its text only. -/
theorem build_congr {recent' : Registry (Point α)} {saved' : Registry (Point α) LooseText}
    (h : ∀ name ∈ (Document.ofText text).tables.keys,
      knownPosition recent saved name = knownPosition recent' saved' name) :
    Diagram.build c text recent saved = Diagram.build c text recent' saved' := by
  have hcarry :
      carryPositions ((Document.ofText text).unplaced : Registry (Table α)) recent saved =
        carryPositions ((Document.ofText text).unplaced : Registry (Table α)) recent' saved' := by
    refine Registry.ext (List.filterMap_congr fun e he => ?_)
    have hmem : e.1 ∈ (Document.ofText text).tables.keys := by
      rw [← Document.keys_unplaced (α := α)]
      exact List.mem_map_of_mem he
    exact congrArg (Option.map fun p => (e.1, p)) (h e.1 hmem)
  have hdrawing : Drawing.make c text recent saved = Drawing.make c text recent' saved' := by
    unfold Drawing.make
    exact congrArg (fun positions => layOut c (Document.ofText text).unplaced positions >>= _)
      hcarry
  rw [Diagram.build, Diagram.build, hdrawing]

/-- A table of a diagram that is known to be somewhere is there. -/
theorem position_of_build (h : Diagram.build c text recent saved = .ok d) {name : String}
    {t : Table α} {p : Point α} (ht : d.tables.get? name = some t)
    (hp : knownPosition recent saved name = some p) :
    t.position = some p := by
  obtain ⟨he, -⟩ := entity_of_build h ht
  have hu := Document.get?_unplaced_of_get? (α := α) he
  obtain ⟨layout, routes, hlayout, -, rfl⟩ := build_eq_ok_iff.1 h
  have hkept := layOut_kept hlayout hu ((get?_carryPositions_of_get? hu).trans hp)
  rw [ht, Option.some.injEq] at hkept
  rw [hkept]
  rfl

/-- A table of a diagram that is not known to be anywhere is where it is allocated. -/
theorem allocate_of_build (h : Diagram.build c text recent saved = .ok d)
    {before after : List String} {name : String} (hkeys : d.tables.keys = before ++ name :: after)
    (hnew : knownPosition recent saved name = none) :
    ∃ t p, d.tables.get? name = some t ∧ t.position = some (.ofInts p.position) ∧
      c.allocate t.fields.length
        (boxesOf (d.allocatedBeside (knownPosition recent saved) before)) = .ok p := by
  have hdocument : before ++ name :: after = (Document.ofText text).tables.keys :=
    hkeys.symm.trans (keys_of_build h)
  -- among the names of the text, those that the layout knows are those with a known position
  have hknown : ∀ other ∈ before ++ name :: after,
      isKnown ((Document.ofText text).unplaced : Registry (Table α))
          (carryPositions ((Document.ofText text).unplaced : Registry (Table α)) recent saved)
          other =
        (knownPosition recent saved other).isSome :=
    fun other hother => isKnown_unplaced (hdocument ▸ hother)
  have hunknown : ∀ other ∈ before,
      (!isKnown ((Document.ofText text).unplaced : Registry (Table α))
          (carryPositions ((Document.ofText text).unplaced : Registry (Table α)) recent saved)
          other) =
        (knownPosition recent saved other).isNone := fun other hother => by
    rw [hknown other (List.mem_append_left _ hother), Option.not_isSome]
  obtain ⟨layout, routes, hlayout, -, rfl⟩ := build_eq_ok_iff.1 h
  have hunplaced : ((Document.ofText text).unplaced : Registry (Table α)).keys =
      before ++ name :: after := (Document.keys_unplaced _).trans hdocument.symm
  have hnot := (hknown name (by simp)).trans (congrArg Option.isSome hnew)
  obtain ⟨t, p, -, hp, hplace⟩ := layOut_allocated hlayout hunplaced hnot
  refine ⟨_, p, hplace, rfl, ?_⟩
  rw [hunplaced, List.filter_congr hknown, List.filter_congr hunknown] at hp
  rw [allocatedBeside, hkeys]
  exact hp

/-- **Every diagram** of a text is framed by the tables of the text and their known positions, its
position map names these tables and no others, and however the text is edited then, no table that
is still in it is moved. -/
theorem build_framed (h : Diagram.build c text recent saved = .ok d) :
    d.Framed c (Document.ofText text).tables (knownPosition recent saved) ∧
    d.positions.keys = (Document.ofText text).tables.keys ∧
    ∀ c' edited saved' d', Diagram.build c' edited d.positions saved' = .ok d' →
      ∀ name t t', d.tables.get? name = some t → d'.tables.get? name = some t' →
        t'.position = t.position := by
  refine ⟨?_, (keys_positions_of_build h).trans (keys_of_build h), ?_⟩
  · exact {
      keys := keys_of_build h
      placed := fun _ _ he => tables_of_build h he
      kept := fun _ _ _ ht hp => position_of_build h ht hp
      allocated := fun _ _ _ hkeys hnew => allocate_of_build h hkeys hnew }
  · intro c' edited saved' d' h' name t t' ht ht'
    obtain ⟨-, p, hp⟩ := entity_of_build h ht
    have hknown : knownPosition d.positions saved' name = some p := by
      rw [knownPosition, get?_positions, ht, Option.bind_some, hp]
      rfl
    rw [hp, position_of_build h' ht' hknown]

/-- Three tables, of which the first one is defined again at the end. -/
def reopenedText : List Char :=
  "Table a \x7b\n  x int\n\x7d\nTable b \x7b\n\x7d\nTable c \x7b\n\x7d\nTable a \x7b\n\x7d".toList

/-- Where the second table was last, and where a table was that has gone since. -/
def reopenedRecent : Registry (Point Quantity) :=
  .ofList [("gone", ⟨.whole 0, .whole 0⟩), ("b", ⟨.whole 60, .whole 60⟩)]

/-- Where the last two tables were once. -/
def reopenedSaved : Registry (Point Quantity) LooseText :=
  .ofList [(.ofString "c", ⟨.whole 700, .whole 60⟩), (.ofString "b", ⟨.whole 0, .whole 0⟩)]

theorem build_framed_reopened :
    ∃ d, Diagram.build Config.default reopenedText reopenedRecent reopenedSaved = .ok d ∧
      d.Framed Config.default (Document.ofText reopenedText).tables
        (knownPosition reopenedRecent reopenedSaved) ∧
      d.positions.keys = (Document.ofText reopenedText).tables.keys ∧
      ∀ c' edited saved' d', Diagram.build c' edited d.positions saved' = .ok d' →
        ∀ name t t', d.tables.get? name = some t → d'.tables.get? name = some t' →
          t'.position = t.position := by
  have hok : (Diagram.build Config.default reopenedText reopenedRecent reopenedSaved).isOk =
      true := by decide +kernel
  obtain ⟨d, h⟩ := exists_of_isOk hok
  exact ⟨d, h, build_framed h⟩

end Diagram

end SchemaDiagram
