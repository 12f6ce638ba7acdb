/-
# What a check finds

A check of a schema file succeeds exactly when its text has no issues, each of its relationships can
be drawn, and the console can show the notice of it.

* `Telling.bind_of_ok`, `Telling.bind_of_error` : commands step by step;
* `Telling.Stops` : that a command stops in any case;
* `readDiagram_of_build` : the diagram that a command reads;
* `exitCode_check` : the exit code of a check;
* `Diagram.build_rendered` : what is drawn of a diagram, what dangles, and what a check says.
-/
import SchemaDiagram.Command.Run
import SchemaDiagram.Command.Terminal
import SchemaDiagram.Proofs.Diagram.Rendering

namespace SchemaDiagram

/-! ## Commands step by step -/

namespace Telling

variable {α β : Type} {x : Telling α} {f : α → Telling β} {console : Console} {t t' : Transcript}

/-- A command goes on where its first part ends. -/
theorem bind_of_ok {a : α} (h : x console t = .ok a t') : (x >>= f) console t = f a console t' := by
  show EStateM.bind (x console) (fun a => f a console) t = _
  rw [EStateM.bind, h]

/-- A command stops where its first part does. -/
theorem bind_of_error {halt : Halt} (h : x console t = .error halt t') :
    (x >>= f) console t = .error halt t' := by
  show EStateM.bind (x console) (fun a => f a console) t = _
  rw [EStateM.bind, h]

/-- That a command stops, whatever the console can show. -/
def Stops (x : Telling α) : Prop := ∀ console t, ∃ halt t', x console t = .error halt t'

theorem Stops.throw (halt : Halt) : Stops (throw halt : Telling α) := fun _ t => ⟨halt, t, rfl⟩

/-- A command stops if its second part does, since its first part may only stop it before. -/
theorem Stops.bind (h : ∀ a, Stops (f a)) : Stops (x >>= f) := by
  intro console t
  cases hx : x console t with
  | ok a t' =>
    rw [bind_of_ok hx]
    exact h a console t'
  | error halt t' => exact ⟨halt, t', bind_of_error hx⟩

/-- That all went well is noticed if the console can show it. -/
theorem success_eq (s : String) (console : Console) (t : Transcript) :
    success s console t =
      if console.shows (successText s) then
        .ok () { t with notices := t.notices ++ [successText s] }
      else .error .unshown t := by
  show (if [successText s].all console.shows then _ else _ : Telling Unit) console t = _
  rw [List.all_cons, List.all_nil, Bool.and_true]
  split
  · rfl
  · rfl

end Telling

open Telling

variable {console : Console} {files : Files} {schema : Location} {content : List Char}
  {d : Diagram Quantity}

/-- A command that draws a schema file with no saved positions reads the diagram of its text. -/
theorem readDiagram_of_build {c : Config} (verbose : Bool) (hfile : files schema = some content)
    (h : Diagram.build c (universalNewlines content) .empty .empty = .ok d) (t : Transcript) :
    ∃ t', readDiagram files schema none c verbose console t = .ok d t' := by
  obtain ⟨drawing, hdrawing, h⟩ := bind_eq_ok.1 h
  have hread : readFile files schema [] console t = .ok content t := by
    rw [readFile, hfile]
    rfl
  have hofDrawing : ofDrawing (Drawing.make c (universalNewlines content) .empty .empty) console t =
      .ok drawing t := by
    rw [hdrawing]
    rfl
  refine ⟨{ t with log := t.log ++ drawing.log.filter (LogEntry.isShown verbose) }, ?_⟩
  rw [readDiagram, bind_of_ok hread]
  show (ofDrawing _ >>= _) console t = _
  rw [bind_of_ok hofDrawing, ← pure_eq_ok.1 h]
  rfl

/-! ## Checks -/

/-- Nothing is reported of a diagram without issues in which nothing dangles. -/
theorem reportProblems_of_clean (h : d.issues = [] ∧ d.dangling = []) (t : Transcript) :
    reportProblems d console t = .ok () t := by
  rw [reportProblems, h.1, h.2]
  rfl

/-- A report of problems stops. -/
theorem stops_reportProblems (h : ¬ (d.issues = [] ∧ d.dangling = [])) :
    Stops (reportProblems d) := by
  have hany : (!d.issues.isEmpty || !d.dangling.isEmpty) = true := by
    rw [← Bool.not_and, Bool.not_eq_true', ← Bool.not_eq_true, Bool.and_eq_true, List.isEmpty_iff,
      List.isEmpty_iff]
    exact h
  have hdangling : Stops (do
      d.dangling.forM fun r => error ("Dangling relationship " ++ r.label)
      (throw .refused : Telling Unit)) := Stops.bind fun _ => Stops.throw .refused
  rw [reportProblems, if_pos hany]
  -- the relationships are noticed whether there are issues to show or not
  split
  · exact Stops.bind fun _ => hdangling
  · exact hdangling

/-! ## Exit codes -/

section

variable {description : Option (List DatabaseTable)} {r : Request} {t : Transcript}

theorem exitCode_of_ok (h : r.run files description console .empty = .ok () t) :
    r.exitCode console files description = 0 := by
  rw [Request.exitCode, Request.outcome, h]

theorem exitCode_of_error {halt : Halt}
    (h : r.run files description console .empty = .error halt t) :
    r.exitCode console files description = 1 := by
  rw [Request.exitCode, Request.outcome, h]
  cases halt with
  | refused | unshown | drawing | digits | foreignKey => rfl

end

/-- The exit code of a check tells whether there are issues or dangling relationships, and whether
the notice that there are none can be shown. -/
theorem exitCode_check (console : Console) (description : Option (List DatabaseTable))
    (verbose : Bool) (hfile : files schema = some content)
    (h : Diagram.build Config.default (universalNewlines content) .empty .empty = .ok d) :
    Request.exitCode console files description (.check schema verbose) =
      if (d.issues = [] ∧ d.dangling = []) ∧ console.shows (successText (cleanText schema)) then 0
      else 1 := by
  obtain ⟨t, hread⟩ := readDiagram_of_build verbose hfile h .empty
  have hrun : Request.run files description (.check schema verbose) console .empty =
      (reportProblems d >>= fun _ => success (cleanText schema)) console t := bind_of_ok hread
  by_cases hclean : d.issues = [] ∧ d.dangling = []
  · rw [bind_of_ok (reportProblems_of_clean hclean t)] at hrun
    by_cases hshows : console.shows (successText (cleanText schema))
    · rw [if_pos ⟨hclean, hshows⟩]
      exact exitCode_of_ok (hrun.trans ((success_eq _ console t).trans (if_pos hshows)))
    · rw [if_neg fun h => hshows h.2]
      exact exitCode_of_error (hrun.trans ((success_eq _ console t).trans (if_neg hshows)))
  · rw [if_neg fun h => hclean h.1]
    obtain ⟨halt, t', hstop⟩ := stops_reportProblems hclean console t
    exact exitCode_of_error (hrun.trans (bind_of_error hstop))

/-- A part of a path can look like a mark: however clean the file is, its check fails then. -/
example : ¬ Terminal.console.shows (successText (cleanText ⟨"[/x].dbml"⟩)) := by decide +kernel

/-! ## Diagrams -/

/-- The issues of a diagram are those of its text. -/
theorem Diagram.issues_of_build {α : Type} [Arithmetic α] {c : Config} {text : List Char}
    {recent : Registry (Point α)} {saved : Registry (Point α) LooseText} {d : Diagram α}
    (h : Diagram.build c text recent saved = .ok d) : d.issues = (Document.ofText text).issues := by
  obtain ⟨layout, routes, -, -, rfl⟩ := Diagram.build_eq_ok_iff.1 h
  rfl

/-- **Every diagram** has the connectors of the relationships that can be drawn, in their order, and
the others dangle.  A check of a schema file, on a console that can show the notice of its success,
succeeds exactly when its text has no issues and all relationships of its diagram can be drawn. -/
theorem Diagram.build_rendered {c : Config} {text : List Char} {recent : Registry (Point Quantity)}
    {saved : Registry (Point Quantity) LooseText}
    (h : Diagram.build c text recent saved = .ok d) :
    d.connectors.map Connector.relationship =
        d.relationships.filter (fun r => r.DrawnIn d.tables) ∧
    d.dangling = d.relationships.filter (fun r => ¬r.DrawnIn d.tables) ∧
    d.connectors.length + d.dangling.length = d.relationships.length ∧
    ∀ (console : Console) (files : Files) (description : Option (List DatabaseTable))
      (schema : Location) (verbose : Bool) (content : List Char) (checked : Diagram Quantity),
      console.shows (successText (cleanText schema)) = true →
      files schema = some content →
      Diagram.build Config.default (universalNewlines content) .empty .empty = .ok checked →
      Request.exitCode console files description (.check schema verbose) =
        if (Document.ofText (universalNewlines content)).issues = [] ∧
            ∀ r ∈ checked.relationships, r.DrawnIn checked.tables then 0 else 1 := by
  refine ⟨relationship_connectors h, dangling_of_build h, ?_, ?_⟩
  · have hlength : d.connectors.length =
        (d.relationships.filter fun r => r.DrawnIn d.tables).length := by
      rw [← relationship_connectors h, List.length_map]
    have hnot : (fun r : Relationship => decide ¬r.DrawnIn d.tables) =
        fun r => !decide (r.DrawnIn d.tables) := funext fun r => decide_not
    rw [hlength, dangling_of_build h, hnot, ← List.length_eq_length_filter_add]
  · intro console files description schema verbose content checked hshows hfile hchecked
    simp only [← issues_of_build hchecked, ← dangling_eq_nil_iff hchecked]
    rw [exitCode_check console description verbose hfile hchecked]
    exact if_congr (and_iff_left hshows) rfl rfl

/-- A table that refers to itself, twice in the same way, and to a table that there is not. -/
def danglingText : List Char :=
  ("Table a \x7b\n  x int [ref: > a.x]\n  y int [ref: > b.x]\n\x7d\n" ++
    "Ref: a.x > a.x\nRef: a.z > a.x\n").toList

theorem Diagram.build_rendered_dangling :
    ∃ d : Diagram Quantity, Diagram.build Config.default danglingText .empty .empty = .ok d ∧
      d.connectors.map Connector.relationship =
        d.relationships.filter (fun r => r.DrawnIn d.tables) ∧
      d.dangling = d.relationships.filter (fun r => ¬r.DrawnIn d.tables) ∧
      d.connectors.length + d.dangling.length = d.relationships.length ∧
      Request.exitCode Terminal.console (fun _ => some danglingText) none
          (.check ⟨"a.dbml"⟩ false) =
        if (Document.ofText danglingText).issues = [] ∧
            ∀ r ∈ d.relationships, r.DrawnIn d.tables then 0 else 1 := by
  have hlines : universalNewlines danglingText = danglingText := by decide +kernel
  have hok : (Diagram.build (α := Quantity) Config.default danglingText .empty .empty).isOk =
      true := by decide +kernel
  obtain ⟨d, h⟩ := exists_of_isOk hok
  obtain ⟨hdrawn, hdangling, hlength, hcheck⟩ := build_rendered h
  refine ⟨d, h, hdrawn, hdangling, hlength, ?_⟩
  have hchecked := hcheck Terminal.console (fun _ => some danglingText) none ⟨"a.dbml"⟩ false
    danglingText d (by decide +kernel) rfl (by rw [hlines, h])
  rw [hlines] at hchecked
  exact hchecked

end SchemaDiagram
