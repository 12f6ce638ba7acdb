/-
# Which diagrams can be drawn

A position map that is read may hold coordinates that no drawing can bear: a sum of huge integers
is no double, and an infinite place is on no grid.  Short of that, every stage succeeds.

* `routesIn_succeeds`, `Diagram.build_succeeds` : the stages of a diagram, with tame positions;
* `Diagram.build_loaded` : every text can be drawn with the positions that are read, up to the paths
  of the connectors, where the settings are moderate and the coordinates tame;
* `Diagram.not_all_built` : a position map with an infinite coordinate that cannot be drawn.
-/
import SchemaDiagram.Diagram.Positions
import SchemaDiagram.Editor.Session
import SchemaDiagram.Proofs.Connector.Totality
import SchemaDiagram.Proofs.Diagram.Build
import SchemaDiagram.Proofs.Schema.Size

namespace SchemaDiagram

variable {c : Config} {text content : List Char}

/-! ## Tame positions -/

/-- That every point of a position map is tame. -/
def TamePositions {κ : Type} (positions : Registry (Point Quantity) κ) : Prop :=
  ∀ e ∈ positions.entries, e.2.Tame 1000

theorem TamePositions.of_get? {κ : Type} [DecidableEq κ]
    {positions : Registry (Point Quantity) κ} (h : TamePositions positions) {name : κ}
    {p : Point Quantity} (hp : positions.get? name = some p) : p.Tame 1000 :=
  h (name, p) ((Registry.mem_entries_iff positions name p).2 hp)

/-! ## Stages -/

/-- Relationships can be routed among tame tables. -/
theorem routesIn_succeeds (hc : c.Moderate) {tables : Registry (Table Quantity)}
    (htables : ∀ name t, tables.get? name = some t → t.Tame) (relationships : List Relationship) :
    Succeeds (routesIn c tables relationships) fun routes =>
      ∀ connector ∈ routes.filterMap fun r => r.2.connector?, connector.Tame := by
  have hroutes : Succeeds (routesIn c tables relationships) fun routes =>
      ∀ r ∈ routes, ∀ connector, r.2.connector? = some connector → connector.Tame := by
    refine Succeeds.mapM fun r _ => ?_
    exact (routeIn_succeeds hc htables r).lift.bind fun route hroute => .ok hroute
  refine hroutes.mono fun routes htame connector hconnector => ?_
  obtain ⟨r, hr, heq⟩ := List.mem_filterMap.1 hconnector
  exact htame r hr connector heq

/-- The tables of a document are tame before they are placed. -/
theorem Document.tame_unplaced (htext : text.length ≤ 2 ^ 200) {name : String}
    {t : Table Quantity} (ht : (ofText text).unplaced.get? name = some t) : t.Tame := by
  rw [get?_unplaced, Option.map_eq_some_iff] at ht
  obtain ⟨e, he, rfl⟩ := ht
  exact ⟨fun _ hp => (nomatch hp), (length_fields_ofText_le he).trans htext⟩

/-- **A diagram** with tame positions is built, and its connectors are tame. -/
theorem Diagram.build_succeeds (hc : c.Moderate) (htext : text.length ≤ 2 ^ 200)
    {recent : Registry (Point Quantity)} {saved : Registry (Point Quantity) LooseText}
    (hrecent : TamePositions recent) (hsaved : TamePositions saved) :
    Succeeds (Diagram.build c text recent saved) fun d => ∀ connector ∈ d.connectors,
      connector.Tame := by
  have hsize : ((Document.ofText text).unplaced : Registry (Table Quantity)).keys.length ≤
      2 ^ 200 := by
    rw [Document.keys_unplaced]
    exact (Document.length_keys_ofText_le text).trans htext
  have hpositions : ∀ name p, (carryPositions
      ((Document.ofText text).unplaced : Registry (Table Quantity)) recent saved).get? name =
        some p → p.Tame 1000 := by
    intro name p hp
    rw [carryPositions, Registry.get?_filterMap, Option.bind_eq_some_iff] at hp
    obtain ⟨t, -, hknown⟩ := hp
    rcases Option.or_eq_some_iff.1 hknown with hp | ⟨-, hp⟩
    · exact hrecent.of_get? hp
    · exact hsaved.of_get? hp
  obtain ⟨layout, hlayout, htables⟩ := layOut_succeeds hc hsize
    (fun _ _ ht => Document.tame_unplaced htext ht) hpositions
  obtain ⟨routes, hroutes, htame⟩ :=
    routesIn_succeeds hc htables (Document.ofText text).relationships
  exact ⟨_, build_eq_ok_iff.2 ⟨layout, routes, hlayout, hroutes, rfl⟩, htame⟩

/-- The paths of tame connectors have texts. -/
theorem Session.pathsOf_succeeds {connectors : List (Connector Quantity)}
    (h : ∀ connector ∈ connectors, connector.Tame) :
    Succeeds (pathsOf connectors) fun _ => True := by
  refine Succeeds.mono (P := fun values => ∀ v ∈ values, True) ?_ fun _ _ => trivial
  exact Succeeds.mapM fun connector hconnector =>
    (Connector.pathText_succeeds (h connector hconnector)).bind fun _ _ => .ok trivial

/-! ## Diagrams -/

/-- **Positions that are read can be drawn**: with moderate settings, every text makes a diagram
whose paths have texts, as long as each coordinate is NaN or of magnitude at most `2 ^ 1000`. -/
theorem Diagram.build_loaded (hc : c.Moderate) (htext : text.length ≤ 2 ^ 200)
    (hcontent : Succeeds (loadPositions content) TamePositions) :
    ∃ saved d paths, loadPositions content = .ok saved ∧
      Diagram.build c text .empty saved = .ok d ∧ Session.pathsOf d.connectors = .ok paths := by
  obtain ⟨saved, hload, hsaved⟩ := hcontent
  have hrecent : TamePositions (.empty : Registry (Point Quantity)) :=
    fun _ he => absurd he List.not_mem_nil
  obtain ⟨d, hd, htame⟩ := build_succeeds hc htext hrecent hsaved
  obtain ⟨paths, hpaths, -⟩ := Session.pathsOf_succeeds htame
  exact ⟨saved, d, paths, hload, hd, hpaths⟩

/-- A position map with a table that is nowhere. -/
def oddPositions : Registry (Point Quantity) LooseText :=
  .ofList [(.ofString "a", ⟨.real .nan, .whole 60⟩), (.ofString "b", ⟨.whole 420, .whole 60⟩)]

/-- The text of that map. -/
def oddContent : List Char :=
  "\x7b\"a\": \x7b\"x\": NaN, \"y\": 60\x7d, \"b\": \x7b\"x\": 420, \"y\": 60\x7d\x7d".toList

/-- A text with both of its tables, a relationship between them and a new table. -/
def oddText : List Char :=
  "Table a \x7b\n  id int\n\x7d\n".toList ++
    "Table b \x7b\n  a int [ref: > a.id]\n\x7d\nTable c \x7b\n\x7d\n".toList

/-- A table that is nowhere does no harm: there is a path to it, and a new table beside it. -/
theorem Diagram.build_loaded_nan :
    ∃ saved d paths, loadPositions oddContent = .ok saved ∧
      Diagram.build .default oddText .empty saved = .ok d ∧
      Session.pathsOf d.connectors = .ok paths := by
  have htame : TamePositions oddPositions := by
    have hcoordinate : ∀ n : ℤ, |n| ≤ 2 ^ 9 → (Quantity.whole n).Tame 1000 := fun n hn =>
      (Quantity.atMost_whole hn (by omega)).tame
    refine List.forall_mem_cons.2 ⟨⟨.inl rfl, hcoordinate 60 (by decide)⟩, ?_⟩
    exact List.forall_mem_singleton.2 ⟨hcoordinate 420 (by decide), hcoordinate 60 (by decide)⟩
  exact build_loaded Config.moderate_default (by decide +kernel) ⟨oddPositions, by decide +kernel, htame⟩

/-! ## Positions that cannot be drawn -/

/-- Settings with room for one table only, and no spiral to search. -/
def narrowConfig : Config :=
  { Config.default with
    bounds := { Config.default.bounds with width := 280, height := 112 }
    layout := { Config.default.layout with spiralRadii := 0 } }

/-- A position map with a table that is infinitely far away. -/
def farPositions : Registry (Point Quantity) LooseText :=
  .ofList [(.ofString "a", ⟨.whole 60, .whole 60⟩),
    (.ofString "b", ⟨.real (.infinite false), .whole 60⟩)]

/-- Not every position map that is read can be drawn: no grid point is near a table that is
infinitely far away. -/
theorem Diagram.not_all_built :
    ¬ ∀ (c : Config) (text content : List Char) (saved : Registry (Point Quantity) LooseText),
      loadPositions content = .ok saved → ∃ d, Diagram.build c text .empty saved = .ok d := by
  intro hall
  let text : List Char := "Table a \x7b\n\x7d\nTable b \x7b\n\x7d\nTable c \x7b\n\x7d\n".toList
  let content : List Char :=
    "\x7b\"a\": \x7b\"x\": 60, \"y\": 60\x7d, \"b\": \x7b\"x\": Infinity, \"y\": 60\x7d\x7d".toList
  have hload : loadPositions content = .ok farPositions := by decide +kernel
  have hfault : Diagram.build narrowConfig text .empty farPositions =
      .error (.arithmetic .infinityToInteger) := by
    decide +kernel
  obtain ⟨d, hd⟩ := hall narrowConfig text content farPositions hload
  rw [hfault] at hd
  cases hd

end SchemaDiagram
