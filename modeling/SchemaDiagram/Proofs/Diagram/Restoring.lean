/-
# Building a diagram again

A diagram that is built again where all its tables already are is the same diagram: nothing is
allocated, and the routes are those among the same tables.  The same holds after the positions have
been written as text and read back.  The two diagrams agree in every coordinate up to NaN: a bend
between tables that are infinitely far apart is NaN both times.

* `Diagram.build_of_positions` : building again with the positions at hand;
* `Diagram.build_of_loosen` : building again with nothing but the positions under loose names;
* `Diagram.build_restored` : the same, and building again with the positions as they are read back.
-/
import SchemaDiagram.Proofs.Diagram.Coordinates
import SchemaDiagram.Proofs.Diagram.Frame
import SchemaDiagram.Proofs.Diagram.Positions

namespace SchemaDiagram

namespace Diagram

section

variable {α : Type} [Arithmetic α] {c : Config} {text : List Char} {recent : Registry (Point α)}
  {saved : Registry (Point α) LooseText} {d : Diagram α}

/-- Every table of the text is known to be where it is in the diagram. -/
theorem knownPosition_positions (h : Diagram.build c text recent saved = .ok d) {name : String}
    (hname : name ∈ (Document.ofText text).tables.keys)
    (saved' : Registry (Point α) LooseText) :
    knownPosition d.positions saved' name = d.positions.get? name := by
  rw [← keys_of_build h, ← keys_positions_of_build h, Registry.mem_keys_iff] at hname
  obtain ⟨p, hp⟩ := hname
  rw [knownPosition, hp]
  rfl

/-- **A diagram** that is built again with its positions is the same diagram. -/
theorem build_of_positions (h : Diagram.build c text recent saved = .ok d)
    (saved' : Registry (Point α) LooseText) :
    Diagram.build c text d.positions saved' = .ok d := by
  obtain ⟨layout, routes, hlayout, hroutes, hd⟩ := build_eq_ok_iff.1 h
  have hthere : ∀ name t, layout.tables.get? name = some t →
      (carryPositions ((Document.ofText text).unplaced : Registry (Table α)) d.positions
        saved').get? name = t.position := by
    intro name t ht
    have htables : d.tables.get? name = some t := by
      rw [hd]
      exact ht
    obtain ⟨he, -⟩ := entity_of_build h htables
    have hu := Document.get?_unplaced_of_get? (α := α) he
    have hname : name ∈ (Document.ofText text).tables.keys :=
      (Registry.mem_keys_iff _ _).2 ⟨_, he⟩
    rw [get?_carryPositions_of_get? hu, knownPosition_positions h hname, get?_positions, htables]
    rfl
  -- nothing is allocated now, so the layout is another one with the same tables
  obtain ⟨again, hagain, htables⟩ := layOut_again hlayout hthere
  rw [← htables] at hroutes hd
  exact build_eq_ok_iff.2 ⟨again, routes, hagain, hroutes, hd⟩

/-- A diagram that is built again from nothing but its positions, under loose names, is the same. -/
theorem build_of_loosen (h : Diagram.build c text recent saved = .ok d) :
    Diagram.build c text .empty d.positions.loosen = .ok d := by
  rw [← build_of_positions h .empty]
  -- the names are loose texts now, but all tables are known to be where they were
  refine build_congr fun name hname => ?_
  rw [knownPosition_positions h hname, ← Registry.get?_loosen]
  rfl

end

/-- **Building again restores a diagram**: with its positions, whatever is saved besides, and with
nothing but what is read back from the text of its positions.  They have one unless a whole
coordinate is too long.  The diagram is the same up to NaN, and equal by value where it has none. -/
theorem build_restored {c : Config} {text : List Char} {recent : Registry (Point Quantity)}
    {saved : Registry (Point Quantity) LooseText} {d : Diagram Quantity}
    (h : Diagram.build c text recent saved = .ok d) :
    (∀ saved', Diagram.build c text d.positions saved' = .ok d) ∧
    (WritablePositions d.positions →
      ∃ content loaded, dumpPositions d.positions = .ok content ∧
        loadPositions content.toList = .ok loaded ∧
        Diagram.build c text .empty loaded = .ok d) ∧
    (¬ WritablePositions d.positions → dumpPositions d.positions = .error .unwritable) ∧
    (d.NanFree → d.Equals d) := by
  refine ⟨build_of_positions h, fun hwritable => ?_, dumpPositions_of_not_writable,
    d.equals_self_iff.2⟩
  obtain ⟨content, hcontent, hloaded⟩ := loadPositions_of_dumpPositions hwritable
  exact ⟨content, d.positions.loosen, hcontent, hloaded, build_of_loosen h⟩

/-- Two tables that refer to each other, of which the second one has a name beyond ASCII. -/
def linkedText : List Char :=
  ("Table a \x7b\n  x int [ref: > größe.z]\n\x7d\n" ++
    "Table größe \x7b\n  z int\n\x7d\nRef: größe.z > a.x\n").toList

/-- Where the second of the two tables was once: at a fraction, and below zero. -/
def linkedSaved : Registry (Point Quantity) LooseText :=
  .ofList [(.ofString "größe", ⟨.real (.ofRat (1 / 10)), .whole (-40)⟩)]

/-- Where the first of the two tables can be: at a number of one digit more than is written. -/
def linkedFar : Registry (Point Quantity) := .ofList [("a", ⟨.whole 0, .whole (10 ^ 4300)⟩)]

/-- Where the two tables are infinitely far apart. -/
def linkedApart : Registry (Point Quantity) :=
  .ofList [("a", ⟨.real (.infinite true), .whole 60⟩),
    ("größe", ⟨.real (.infinite false), .whole 60⟩)]

/-- A table that is too far away is drawn all the same. -/
theorem build_linkedFar :
    ∃ d, Diagram.build Config.default linkedText linkedFar .empty = .ok d ∧
      ¬ WritablePositions d.positions := by
  have hok : (Diagram.build Config.default linkedText linkedFar .empty).toOption.any
      (fun d => ¬ WritablePositions d.positions) = true := by decide +kernel
  obtain ⟨d, h, hd⟩ := exists_of_toOption_any hok
  exact ⟨d, h, of_decide_eq_true hd⟩

theorem build_restored_linked :
    (∃ d, Diagram.build Config.default linkedText .empty linkedSaved = .ok d ∧
      (∀ saved', Diagram.build Config.default linkedText d.positions saved' = .ok d) ∧
      (∃ content loaded, dumpPositions d.positions = .ok content ∧
        loadPositions content.toList = .ok loaded ∧
        Diagram.build Config.default linkedText .empty loaded = .ok d) ∧
      d.Equals d) ∧
    ∃ d, Diagram.build Config.default linkedText linkedFar .empty = .ok d ∧
      dumpPositions d.positions = .error .unwritable := by
  constructor
  · have hok : (Diagram.build Config.default linkedText .empty linkedSaved).toOption.any
        (fun d => WritablePositions d.positions ∧ d.NanFree) = true := by decide +kernel
    obtain ⟨d, h, hd⟩ := exists_of_toOption_any hok
    obtain ⟨hwritable, hnan⟩ := of_decide_eq_true hd
    obtain ⟨hagain, hrestored, -, hequal⟩ := build_restored h
    exact ⟨d, h, hagain, hrestored hwritable, hequal hnan⟩
  · obtain ⟨d, h, hd⟩ := build_linkedFar
    exact ⟨d, h, (build_restored h).2.2.1 hd⟩

/-- Not every diagram has a text from which it is restored, and one that is built again need not be
equal by value. -/
theorem not_all_restored :
    (∃ d, Diagram.build Config.default linkedText linkedFar .empty = .ok d ∧
      ¬ ∃ content, dumpPositions d.positions = .ok content) ∧
    ∃ d, Diagram.build Config.default linkedText linkedApart .empty = .ok d ∧
      Diagram.build Config.default linkedText d.positions .empty = .ok d ∧ ¬ d.Equals d := by
  constructor
  · obtain ⟨d, h, hd⟩ := build_linkedFar
    refine ⟨d, h, fun ⟨content, hcontent⟩ => ?_⟩
    rw [dumpPositions_of_not_writable hd] at hcontent
    cases hcontent
  · have hok : (Diagram.build Config.default linkedText linkedApart .empty).toOption.any
        (fun d => ¬ d.NanFree) = true := by decide +kernel
    obtain ⟨d, h, hd⟩ := exists_of_toOption_any hok
    exact ⟨d, h, build_of_positions h .empty,
      fun hequal => of_decide_eq_true hd (d.equals_self_iff.1 hequal)⟩

end Diagram

end SchemaDiagram
