/-
# User text on a page

The page of a diagram shows names, types, messages and a title that anyone may have written.  None
of them can add a tag, end an attribute, or look like a table or a connector.  This is so for any
messages, whether an issue has such a message or not.

* `Diagram.shape` : the shape of a diagram, which its texts do not touch;
* `Page.ofDiagram_shape` : what a page shows has the shape of the diagram;
* `Diagram.occurrences_htmlWith` : how often each landmark occurs in a page;
* `Diagram.html_unforgeable` : pages of one shape have equally many marks, and one table and one
  connector for each that the diagram has.
-/
import SchemaDiagram.Proofs.Page.Attachment
import SchemaDiagram.Proofs.Page.Census

namespace SchemaDiagram

open Text

variable {c : Config} {title : String} {d : Diagram Quantity} {remarks : List Remark}
  {page : List Char}

/-! ## The shape of a diagram -/

/-- The tables of a diagram that have a position. -/
def Diagram.placed (d : Diagram Quantity) : List (Table Quantity) :=
  d.tables.values.filter fun t => t.position.isSome

/-- The shape of the page of a diagram with some remarks. -/
def Diagram.shape (d : Diagram Quantity) (remarks : List Remark) : Shape where
  remarks := remarks.length
  rows := d.placed.map fun t => t.fields.length
  ends := d.connectors.map fun c => (c.start.kind, c.finish.kind)

/-- The tables that are shown are those with a position. -/
theorem map_fst_placed (tables : List (Table Quantity)) :
    (tables.filterMap fun t => t.position.map fun p => (t, p)).map Prod.fst =
      tables.filter fun t => t.position.isSome := by
  induction tables with
  | nil => rfl
  | cons t rest ih =>
    cases ht : t.position with
    | none => simp [ht, ih]
    | some p => simp [ht, ih]

/-- **What a page shows** has the shape of the diagram, whatever remarks are put on it. -/
theorem Page.ofDiagram_shape {p : Page Quantity} (h : Page.ofDiagram c title d = .ok p)
    (remarks : List Remark) :
    { p with remarks }.shape = d.shape remarks ∧ p.tables.length = d.placed.length ∧
      p.connectors = d.connectors := by
  obtain ⟨size, -, h⟩ := bind_eq_ok.1 h
  obtain ⟨tables, htables, h⟩ := bind_eq_ok.1 h
  rw [← pure_eq_ok.1 h]
  have hrows : tables.map (fun t => t.rows.length) = d.placed.map fun t => t.fields.length := by
    rw [Diagram.placed, ← map_fst_placed, List.map_map]
    exact map_eq_of_mapM (fun _ _ h => TableView.length_rows_of_table h) htables
  refine ⟨?_, ?_, rfl⟩
  · rw [Page.shape, hrows, Diagram.shape]
  · have hlength := congrArg List.length hrows
    rwa [List.length_map, List.length_map] at hlength

/-! ## Landmarks of a page -/

/-- Every landmark occurs in a page as often as the shape of the diagram says. -/
theorem Diagram.occurrences_htmlWith (h : d.htmlWith remarks c title = .ok page) (i : Landmark) :
    occurrences i.token.word page =
      landmarks (d.shape remarks).tags (d.shape remarks).attributes d.placed.length
        d.connectors.length i := by
  obtain ⟨p, hp, h⟩ := bind_eq_ok.1 h
  obtain ⟨lines, hlines, h⟩ := bind_eq_ok.1 h
  obtain ⟨hshape, htables, hconnectors⟩ := Page.ofDiagram_shape hp remarks
  rw [← pure_eq_ok.1 h, (Page.counted_lines hlines).occurrences_writeLines, hshape, htables,
    hconnectors]

/-- The marks of a page are those of its tags and attributes. -/
theorem Diagram.marks_htmlWith (h : d.htmlWith remarks c title = .ok page) :
    page.count '<' = (d.shape remarks).tags ∧ page.count '>' = (d.shape remarks).tags ∧
      page.count '\x22' = 2 * (d.shape remarks).attributes ∧ page.count '\x27' = 0 := by
  simp only [← occurrences_singleton]
  exact ⟨d.occurrences_htmlWith h .less, d.occurrences_htmlWith h .greater,
    d.occurrences_htmlWith h .quote, d.occurrences_htmlWith h .apostrophe⟩

/-- **User text cannot forge markup**: a page, with any remarks, has no apostrophe, one connector
and one table for each that is drawn, and as many marks as every other page of the same shape.  The
page that is written for a diagram is that with the remarks on its issues. -/
theorem Diagram.html_unforgeable (h : d.htmlWith remarks c title = .ok page) :
    page.count '\x27' = 0 ∧
      occurrences "class=\"connector\"".toList page = d.connectors.length ∧
      occurrences "class=\"table\"".toList page = d.placed.length ∧
      ∀ (c' : Config) (title' : String) (d' : Diagram Quantity) (remarks' : List Remark)
        (page' : List Char),
        d'.htmlWith remarks' c' title' = .ok page' → d'.shape remarks' = d.shape remarks →
          page'.count '<' = page.count '<' ∧ page'.count '>' = page.count '>' ∧
            page'.count '\x22' = page.count '\x22' := by
  obtain ⟨hless, hgreater, hquote, hapostrophe⟩ := d.marks_htmlWith h
  refine ⟨hapostrophe, d.occurrences_htmlWith h .connector, d.occurrences_htmlWith h .table, ?_⟩
  intro c' title' d' remarks' page' h' hshape
  obtain ⟨hless', hgreater', hquote', -⟩ := d'.marks_htmlWith h'
  rw [hless', hgreater', hquote', hshape]
  exact ⟨hless.symm, hgreater.symm, hquote.symm⟩

/-- A diagram of one table that refers to itself, with the same text for all names and types. -/
def selfDiagram (s : String) : Diagram Quantity :=
  let corner : Point Quantity := ⟨.whole 60, .whole 60⟩
  { tables := .ofList [(s, { name := s, fields := [⟨s, s, true, false, none⟩],
                             position := some corner })]
    relationships := [⟨s, s, s, s, .manyToMany⟩]
    connectors := [{
      relationship := ⟨s, s, s, s, .manyToMany⟩, topology := .detour, points := [], commands := []
      start := ⟨corner, 0, .crowsFoot⟩, finish := ⟨corner, 180, .tickCircle⟩ }]
    issues := [] }

/-- A name that would end an attribute and open a table and a connector. -/
def forgedName : String := "\"><g class=\"table\"><path class=\"connector\""

/-- Tables and connectors that are only written in names are not counted. -/
theorem Diagram.html_unforgeable_forged :
    ∃ page page' : List Char,
      (selfDiagram forgedName).htmlWith [⟨1, forgedName⟩] Config.default "<b>" = .ok page ∧
        (selfDiagram "a").htmlWith [⟨1, "a"⟩] Config.default "a" = .ok page' ∧
        occurrences "class=\"table\"".toList page = 1 ∧
        page'.count '<' = page.count '<' := by
  have hforged : ((selfDiagram forgedName).htmlWith [⟨1, forgedName⟩] Config.default "<b>").isOk =
      true := by decide +kernel
  have hplain : ((selfDiagram "a").htmlWith [⟨1, "a"⟩] Config.default "a").isOk = true := by
    decide +kernel
  obtain ⟨page, h⟩ := exists_of_isOk hforged
  obtain ⟨page', h'⟩ := exists_of_isOk hplain
  obtain ⟨-, -, htable, hmarks⟩ := Diagram.html_unforgeable h
  obtain ⟨hless, -, -⟩ := hmarks Config.default "a" (selfDiagram "a") [⟨1, "a"⟩] page' h' rfl
  exact ⟨page, page', h, h', htable, hless⟩

end SchemaDiagram
