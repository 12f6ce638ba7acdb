/-
# What a page is made of

The tags, attributes and classes of a page come from its markup alone: their number depends on the
shape of the diagram, never on its texts.

* `Landmark` : what is counted in a page;
* `Counted` : that the markup of some lines decides how often each landmark occurs, and
  `Counted.occurrences_writeLines` : that it occurs so often in what is written;
* `Shape`, `Shape.count` : what the number of landmarks depends on, and the number of each;
* `counted_rowLines`, `counted_tableLines`, `counted_connectorLines`, `Page.counted_lines` : the
  parts of a page, and the whole.
-/
import SchemaDiagram.Page.Html
import SchemaDiagram.Proofs.Outcome
import SchemaDiagram.Proofs.Page.Form

namespace SchemaDiagram

open Text

/-! ## Landmarks -/

/-- What is counted in a page: the marks, the boxes of tables and the paths of connectors. -/
inductive Landmark where
  | less
  | greater
  | quote
  | apostrophe
  | table
  | connector
deriving DecidableEq, Repr

/-- The token of a mark. -/
def Token.ofMark (c : Char) (h : isMark c = true) : Token where
  opening := []
  mark := c
  closing := []
  plain_opening := by
    intro _ h
    exact absurd h List.not_mem_nil
  isMark_mark := h

/-- The token of an attribute that gives a class. -/
def Token.ofClass (name : String) : Token where
  opening := "class=".toList
  mark := '\x22'
  closing := name.toList ++ ['\x22']
  plain_opening := by unfold Plain; decide
  isMark_mark := rfl

namespace Landmark

/-- What stands in a page for a landmark. -/
def token : Landmark → Token
  | .less => .ofMark '<' rfl
  | .greater => .ofMark '>' rfl
  | .quote => .ofMark '\x22' rfl
  | .apostrophe => .ofMark '\x27' rfl
  | .table => .ofClass "table"
  | .connector => .ofClass "connector"

/-- The landmarks. -/
def all : List Landmark := [.less, .greater, .quote, .apostrophe, .table, .connector]

theorem mem_all (i : Landmark) : i ∈ all := by
  cases i <;> decide

/-- No landmark goes on over the end of a line. -/
theorem newline_not_mem_word (i : Landmark) : '\n' ∉ i.token.word := by
  cases i with
  | less => decide
  | greater => decide
  | quote => decide
  | apostrophe => decide
  | table => decide
  | connector => decide

/-- The number of a landmark in some lines, if their markup decides it. -/
def tally (i : Landmark) : List (List Piece) → Option ℕ
  | [] => some 0
  | line :: rest => (i.token.tally (formOf line)).bind fun n => (tally i rest).map (n + ·)

theorem tally_append {i : Landmark} {first second : List (List Piece)} {n k : ℕ}
    (hfirst : i.tally first = some n) (hsecond : i.tally second = some k) :
    i.tally (first ++ second) = some (n + k) := by
  induction first generalizing n with
  | nil =>
    obtain rfl := Option.some.inj hfirst
    rw [List.nil_append, Nat.zero_add]
    exact hsecond
  | cons line rest ih =>
    rw [tally, Option.bind_eq_some_iff] at hfirst
    obtain ⟨here, hhere, hfirst⟩ := hfirst
    obtain ⟨later, hlater, rfl⟩ := Option.map_eq_some_iff.1 hfirst
    rw [List.cons_append, tally, hhere, ih hlater, Option.bind_some, Option.map_some,
      Nat.add_assoc]

/-- The number of a landmark in lines is that in what is written for each of them. -/
theorem sum_occurrences (i : Landmark) {lines : List (List Piece)} {n : ℕ}
    (h : i.tally lines = some n) :
    ((lines.map fun line => line.flatMap Piece.write).map (occurrences i.token.word)).sum = n := by
  induction lines generalizing n with
  | nil => exact Option.some.inj h
  | cons line rest ih =>
    rw [tally, Option.bind_eq_some_iff] at h
    obtain ⟨here, hhere, h⟩ := h
    obtain ⟨later, hlater, rfl⟩ := Option.map_eq_some_iff.1 h
    rw [List.map_cons, List.map_cons, List.sum_cons,
      Token.occurrences_of_tally (fills_write line) hhere, ih hlater]

end Landmark

/-! ## Counted lines -/

/-- The number of every landmark in a part of a page: each tag has one `<` and one `>`, each
attribute two quotes. -/
def landmarks (tags attributes tables connectors : ℕ) : Landmark → ℕ
  | .less => tags
  | .greater => tags
  | .quote => 2 * attributes
  | .apostrophe => 0
  | .table => tables
  | .connector => connectors

/-- That the markup of some lines decides how often each landmark occurs in them. -/
def Counted (lines : List (List Piece)) (count : Landmark → ℕ) : Prop :=
  ∀ i : Landmark, i.tally lines = some (count i)

instance (lines : List (List Piece)) (count : Landmark → ℕ) : Decidable (Counted lines count) :=
  decidable_of_iff (∀ i ∈ Landmark.all, i.tally lines = some (count i))
    ⟨fun h i => h i i.mem_all, fun h i _ => h i⟩

namespace Counted

variable {α : Type} {first second lines : List (List Piece)} {count : Landmark → ℕ}

theorem append {tags tags' attributes attributes' tables tables' connectors connectors' : ℕ}
    (h : Counted first (landmarks tags attributes tables connectors))
    (h' : Counted second (landmarks tags' attributes' tables' connectors')) :
    Counted (first ++ second) (landmarks (tags + tags') (attributes + attributes')
      (tables + tables') (connectors + connectors')) := by
  intro i
  rw [Landmark.tally_append (h i) (h' i)]
  cases i with
  | quote => rw [landmarks, landmarks, landmarks, Nat.mul_add]
  | less => rfl
  | greater => rfl
  | apostrophe => rfl
  | table => rfl
  | connector => rfl

/-- Lines that are written part by part. -/
theorem flatten {l : List α} {parts : List (List (List Piece))}
    {tags attributes tables connectors : α → ℕ}
    (h : List.Forall₂ (fun a part =>
      Counted part (landmarks (tags a) (attributes a) (tables a) (connectors a))) l parts) :
    Counted parts.flatten (landmarks (l.map tags).sum (l.map attributes).sum
      (l.map tables).sum (l.map connectors).sum) := by
  induction h with
  | nil =>
    intro i
    cases i <;> rfl
  | cons hpart h ih =>
    simp only [List.flatten_cons, List.map_cons, List.sum_cons]
    exact hpart.append ih

/-- There are only so many landmarks to count. -/
theorem of_all (h : ∀ i ∈ Landmark.all, i.tally lines = some (count i)) : Counted lines count :=
  fun i => h i i.mem_all

/-- **Written lines** have every landmark as often as their markup decides. -/
theorem occurrences_writeLines (h : Counted lines count) (i : Landmark) :
    occurrences i.token.word (writeLines lines) = count i := by
  rw [writeLines, occurrences_intercalate i.token.word_ne_nil i.newline_not_mem_word]
  exact i.sum_occurrences (h i)

end Counted

/-! ## The head of a page -/

/-- A line of markup that is given by its characters. -/
theorem counted_markupLine {s : String} {chars : List Char} {count : Landmark → ℕ}
    (hs : s = String.ofList chars)
    (h : ∀ i ∈ Landmark.all, i.token.tally (chars.map some) = some (count i)) :
    Counted [markupLine s] count := by
  apply Counted.of_all
  intro i hi
  rw [Landmark.tally, formOf_markupLine, hs, String.toList_ofList, h i hi]
  rfl

/-- Plain markup has no landmark. -/
theorem counted_plain {l : List String} (h : ∀ s ∈ l, Plain s.toList) :
    Counted (l.map markupLine) (landmarks 0 0 0 0) := by
  induction l with
  | nil => decide
  | cons s rest ih =>
    have hline : Counted [markupLine s] (landmarks 0 0 0 0) := by
      intro i
      rw [Landmark.tally, formOf_markupLine, Token.tally_of_plain (h s List.mem_cons_self)]
      cases i <;> rfl
    exact hline.append (ih fun s' hs' => h s' (List.mem_cons_of_mem s hs'))

theorem plain_styleLines : ∀ s ∈ styleLines, Plain s.toList := by
  rw [styleLines]
  repeat refine List.forall_mem_cons.2 ⟨plain_ofList rfl rfl, ?_⟩
  exact List.forall_mem_nil _

theorem counted_headLines (title : String) :
    Counted (headLines title) (landmarks 10 4 0 0) := by
  show Counted _ (landmarks (8 + 0 + 2) (4 + 0 + 0) (0 + 0 + 0) (0 + 0 + 0))
  refine .append (.append ?opening (counted_plain plain_styleLines)) ?closing
  case opening =>
    apply Counted.of_all
    simp only [Landmark.tally, formOf_nil, formOf_markup_cons, formOf_text_cons, formOf_markupLine,
      String.reduceToList]
    decide
  case closing =>
    apply Counted.of_all
    simp only [Landmark.tally, formOf_markupLine, String.reduceToList]
    decide

/-! ## Remarks -/

theorem counted_remarkLine (remark : Remark) : Counted [remarkLine remark] (landmarks 2 0 0 0) := by
  apply Counted.of_all
  simp only [remarkLine, Landmark.tally, formOf_nil, formOf_markup_cons, formOf_text_cons,
    formOf_indentedLine, String.reduceToList]
  decide

/-- The number of tags around the remarks, if there are any. -/
def listTags (remarks : ℕ) : ℕ := if remarks = 0 then 0 else 2

/-- The number of attributes of the list of remarks, if there are any. -/
def listAttributes (remarks : ℕ) : ℕ := if remarks = 0 then 0 else 1

theorem counted_remarkLines (remarks : List Remark) :
    Counted (remarkLines remarks) (landmarks (listTags remarks.length + 2 * remarks.length)
      (listAttributes remarks.length) 0 0) := by
  cases remarks with
  | nil => decide
  | cons remark rest =>
    have hremarks : ∀ l : List Remark,
        Counted (l.map remarkLine) (landmarks (2 * l.length) 0 0 0) := by
      intro l
      induction l with
      | nil => decide
      | cons remark l ih =>
        have h := (counted_remarkLine remark).append ih
        rwa [List.length_cons, Nat.mul_succ, Nat.add_comm]
    have hopening : Counted [markupLine "    <ul class=\"issues\">"] (landmarks 1 1 0 0) :=
      counted_markupLine rfl (by decide)
    have hclosing : Counted [markupLine "    </ul>"] (landmarks 1 0 0 0) :=
      counted_markupLine rfl (by decide)
    have h := hopening.append ((hremarks (remark :: rest)).append hclosing)
    have htags : 1 + (2 * (remark :: rest).length + 1) = 2 + 2 * (remark :: rest).length := by
      omega
    rwa [htags] at h

/-! ## Tables -/

variable {t : TableView Quantity} {size : Nat} {lines : List (List Piece)}

/-- **A row** has the same markup for every field: its flags choose a style and add a key. -/
theorem counted_rowLines {r : RowView Quantity} (h : rowLines t r = .ok lines) :
    Counted lines (landmarks 5 14 0 0) := by
  obtain ⟨left, -, h⟩ := bind_eq_ok.1 h
  obtain ⟨edge, -, h⟩ := bind_eq_ok.1 h
  obtain ⟨right, -, h⟩ := bind_eq_ok.1 h
  rw [← pure_eq_ok.1 h]
  apply Counted.of_all
  cases r.field.primary <;> cases r.field.required <;>
  · simp only [Landmark.tally, formOf_nil, formOf_markup_cons, formOf_text_cons, formOf_append,
      formOf_indentedLine, formOf_attr, formOf_textAttr, String.toList_append, String.reduceToList,
      ↓reduceIte]
    decide

/-- The boxes, the header and the rows of a table are within its group. -/
theorem counted_tableLines (h : tableLines t = .ok lines) :
    Counted lines (landmarks (6 + 5 * t.rows.length) (18 + 14 * t.rows.length) 1 0) := by
  obtain ⟨nameX, -, h⟩ := bind_eq_ok.1 h
  obtain ⟨half, -, h⟩ := bind_eq_ok.1 h
  obtain ⟨nameY, -, h⟩ := bind_eq_ok.1 h
  obtain ⟨rows, hrows, h⟩ := bind_eq_ok.1 h
  rw [← pure_eq_ok.1 h]
  have hrows := Counted.flatten ((forall₂_of_mapM hrows).imp fun r _ h => counted_rowLines h)
  simp only [List.map_const', List.sum_replicate_nat, Nat.mul_zero] at hrows
  have htags : 6 + 5 * t.rows.length = 5 + t.rows.length * 5 + 1 := by
    omega
  have hattributes : 18 + 14 * t.rows.length = 18 + t.rows.length * 14 + 0 := by
    omega
  rw [htags, hattributes]
  show Counted _ (landmarks _ _ (1 + 0 + 0) (0 + 0 + 0))
  refine .append (.append ?opening hrows) ?closing
  case opening =>
    apply Counted.of_all
    simp only [Landmark.tally, formOf_nil, formOf_markup_cons, formOf_text_cons, formOf_append,
      formOf_indentedLine, formOf_attr, formOf_textAttr, String.reduceToList]
    decide
  case closing =>
    exact counted_markupLine rfl (by decide)

/-! ## Connectors -/

/-- The number of tags that draw a kind of marker. -/
def MarkerKind.tags : MarkerKind → ℕ
  | .crowsFoot => 1
  | .tick => 1
  | .tickCircle => 2

/-- The number of attributes that draw a kind of marker. -/
def MarkerKind.attributes : MarkerKind → ℕ
  | .crowsFoot => 1
  | .tick => 4
  | .tickCircle => 8

theorem counted_crowsFootLine (size : ℕ) : Counted [crowsFootLine size] (landmarks 1 1 0 0) := by
  apply Counted.of_all
  simp only [crowsFootLine, Landmark.tally, formOf_nil, formOf_markup_cons, formOf_text_cons,
    formOf_append, formOf_indentedLine, formOf_attr, String.reduceToList]
  decide

theorem counted_tickLine {line : List Piece} (h : tickLine size = .ok line) :
    Counted [line] (landmarks 1 4 0 0) := by
  obtain ⟨half, -, h⟩ := bind_eq_ok.1 h
  rw [← pure_eq_ok.1 h]
  apply Counted.of_all
  simp only [Landmark.tally, formOf_nil, formOf_markup_cons, formOf_text_cons, formOf_append,
    formOf_indentedLine, formOf_attr, formOf_textAttr, String.reduceToList]
  decide

theorem counted_circleLine {line : List Piece} (h : circleLine size = .ok line) :
    Counted [line] (landmarks 1 4 0 0) := by
  obtain ⟨radius, -, h⟩ := bind_eq_ok.1 h
  obtain ⟨center, -, h⟩ := bind_eq_ok.1 h
  rw [← pure_eq_ok.1 h]
  apply Counted.of_all
  simp only [Landmark.tally, formOf_nil, formOf_markup_cons, formOf_append, formOf_indentedLine,
    formOf_textAttr, String.reduceToList]
  decide

theorem counted_strokeLines {kind : MarkerKind} (h : strokeLines size kind = .ok lines) :
    Counted lines (landmarks kind.tags kind.attributes 0 0) := by
  cases kind with
  | crowsFoot =>
    cases h
    exact counted_crowsFootLine size
  | tick =>
    obtain ⟨line, hline, h⟩ := bind_eq_ok.1 h
    rw [← pure_eq_ok.1 h]
    exact counted_tickLine hline
  | tickCircle =>
    obtain ⟨line, hline, h⟩ := bind_eq_ok.1 h
    obtain ⟨circle, hcircle, h⟩ := bind_eq_ok.1 h
    rw [← pure_eq_ok.1 h]
    exact (counted_tickLine hline).append (counted_circleLine hcircle)

theorem counted_markerLines {m : Marker Quantity} (h : markerLines size m = .ok lines) :
    Counted lines (landmarks (1 + m.kind.tags + 1) (2 + m.kind.attributes + 0) 0 0) := by
  obtain ⟨strokes, hstrokes, h⟩ := bind_eq_ok.1 h
  rw [← pure_eq_ok.1 h]
  show Counted _ (landmarks _ _ (0 + 0 + 0) (0 + 0 + 0))
  refine .append (.append ?opening (counted_strokeLines hstrokes)) ?closing
  case opening =>
    apply Counted.of_all
    cases m.kind <;>
    · simp only [Landmark.tally, formOf_nil, formOf_markup_cons, formOf_text_cons, formOf_append,
        formOf_indentedLine, formOf_attr, String.reduceToList]
      decide
  case closing =>
    exact counted_markupLine rfl (by decide)

/-- The number of tags of a connector with two kinds of markers. -/
def connectorTags (ends : MarkerKind × MarkerKind) : ℕ := 7 + ends.1.tags + ends.2.tags

/-- The number of attributes of a connector with two kinds of markers. -/
def connectorAttributes (ends : MarkerKind × MarkerKind) : ℕ :=
  10 + ends.1.attributes + ends.2.attributes

/-- A connector has its path and its markers, whatever it connects. -/
theorem counted_connectorLines {c : Connector Quantity}
    (h : connectorLines size c = .ok lines) :
    Counted lines (landmarks (connectorTags (c.start.kind, c.finish.kind))
      (connectorAttributes (c.start.kind, c.finish.kind)) 0 1) := by
  obtain ⟨path, -, h⟩ := bind_eq_ok.1 h
  obtain ⟨start, hstart, h⟩ := bind_eq_ok.1 h
  obtain ⟨finish, hfinish, h⟩ := bind_eq_ok.1 h
  rw [← pure_eq_ok.1 h]
  have htags : connectorTags (c.start.kind, c.finish.kind) =
      2 + (1 + c.start.kind.tags + 1) + (1 + c.finish.kind.tags + 1) + 1 := by
    show 7 + c.start.kind.tags + c.finish.kind.tags = _
    omega
  have hattributes : connectorAttributes (c.start.kind, c.finish.kind) =
      6 + (2 + c.start.kind.attributes + 0) + (2 + c.finish.kind.attributes + 0) + 0 := by
    show 10 + c.start.kind.attributes + c.finish.kind.attributes = _
    omega
  rw [htags, hattributes]
  show Counted _ (landmarks _ _ (0 + 0 + 0 + 0) (1 + 0 + 0 + 0))
  refine .append (.append (.append ?opening (counted_markerLines hstart))
    (counted_markerLines hfinish)) ?closing
  case opening =>
    apply Counted.of_all
    cases c.relationship.cardinality <;>
    · simp only [Landmark.tally, formOf_nil, formOf_markup_cons, formOf_text_cons, formOf_append,
        formOf_indentedLine, formOf_attr, formOf_textAttr, String.reduceToList]
      decide
  case closing =>
    exact counted_markupLine rfl (by decide)

/-! ## Pages -/

/-- What the markup of a page depends on: the number of its remarks, the number of rows of each
table, and the kinds of markers at the ends of each connector. -/
structure Shape where
  remarks : ℕ
  rows : List ℕ
  ends : List (MarkerKind × MarkerKind)
deriving DecidableEq, Repr

namespace Shape

/-- The number of tags in a page of a shape. -/
def tags (s : Shape) : ℕ :=
  21 + (listTags s.remarks + 2 * s.remarks) + (s.rows.map fun rows => 6 + 5 * rows).sum +
    (s.ends.map connectorTags).sum

/-- The number of attributes in a page of a shape. -/
def attributes (s : Shape) : ℕ :=
  9 + listAttributes s.remarks + (s.rows.map fun rows => 18 + 14 * rows).sum +
    (s.ends.map connectorAttributes).sum

end Shape

/-- The shape of a page. -/
def Page.shape (p : Page Quantity) : Shape where
  remarks := p.remarks.length
  rows := p.tables.map fun t => t.rows.length
  ends := p.connectors.map fun c => (c.start.kind, c.finish.kind)

/-- The tags of a page, part by part. -/
theorem Page.tags_shape (p : Page Quantity) :
    p.shape.tags = 21 + (listTags p.remarks.length + 2 * p.remarks.length) +
      (p.tables.map fun t => 6 + 5 * t.rows.length).sum +
      (p.connectors.map fun c => connectorTags (c.start.kind, c.finish.kind)).sum := by
  rw [Shape.tags, Page.shape, List.map_map, List.map_map]
  rfl

/-- The attributes of a page, part by part. -/
theorem Page.attributes_shape (p : Page Quantity) :
    p.shape.attributes = 9 + listAttributes p.remarks.length +
      (p.tables.map fun t => 18 + 14 * t.rows.length).sum +
      (p.connectors.map fun c => connectorAttributes (c.start.kind, c.finish.kind)).sum := by
  rw [Shape.attributes, Page.shape, List.map_map, List.map_map]
  rfl

/-- **The lines of a page** have the landmarks of its shape. -/
theorem Page.counted_lines {p : Page Quantity} (h : p.lines = .ok lines) :
    Counted lines (landmarks p.shape.tags p.shape.attributes p.tables.length
      p.connectors.length) := by
  obtain ⟨tables, htables, h⟩ := bind_eq_ok.1 h
  obtain ⟨connectors, hconnectors, h⟩ := bind_eq_ok.1 h
  rw [← pure_eq_ok.1 h]
  have htables := Counted.flatten ((forall₂_of_mapM htables).imp fun t _ h => counted_tableLines h)
  have hconnectors := Counted.flatten
    ((forall₂_of_mapM hconnectors).imp fun c _ h => counted_connectorLines h)
  simp only [List.map_const', List.sum_replicate_nat, Nat.mul_zero, Nat.mul_one]
    at htables hconnectors
  have htags : p.shape.tags = 10 + 5 + (listTags p.remarks.length + 2 * p.remarks.length) + 2 +
      (p.tables.map fun t => 6 + 5 * t.rows.length).sum + 0 +
      (p.connectors.map fun c => connectorTags (c.start.kind, c.finish.kind)).sum + 4 := by
    rw [p.tags_shape]
    omega
  have hattributes : p.shape.attributes = 4 + 0 + listAttributes p.remarks.length + 5 +
      (p.tables.map fun t => 18 + 14 * t.rows.length).sum + 0 +
      (p.connectors.map fun c => connectorAttributes (c.start.kind, c.finish.kind)).sum + 0 := by
    rw [p.attributes_shape]
    omega
  have htable : p.tables.length = 0 + 0 + 0 + 0 + p.tables.length + 0 + 0 + 0 := by
    omega
  have hconnector : p.connectors.length = 0 + 0 + 0 + 0 + 0 + 0 + p.connectors.length + 0 := by
    omega
  rw [htags, hattributes, htable, hconnector]
  refine .append (.append (.append (.append (.append (.append (.append
    (counted_headLines p.title) ?header) (counted_remarkLines p.remarks)) ?canvas) htables)
    ?between) hconnectors) ?closing
  case header =>
    apply Counted.of_all
    simp only [Landmark.tally, formOf_nil, formOf_markup_cons, formOf_text_cons, formOf_markupLine,
      String.reduceToList]
    decide
  case canvas =>
    apply Counted.of_all
    simp only [Landmark.tally, formOf_nil, formOf_markup_cons, formOf_text_cons, formOf_append,
      formOf_indentedLine, formOf_attr, formOf_textAttr, formOf_markupLine, String.reduceToList]
    decide
  case between =>
    exact counted_markupLine rfl (by decide)
  case closing =>
    apply Counted.of_all
    simp only [Landmark.tally, formOf_markupLine, String.reduceToList]
    decide

end SchemaDiagram
