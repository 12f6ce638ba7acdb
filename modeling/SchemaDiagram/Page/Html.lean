/-
# HTML pages

A diagram is written as one HTML page: its title, what is said of its issues, and a picture of its
tables and connectors.  Everything that comes from a schema or from the caller is text, never
markup.

* `Page.lines` : the lines of a page as markup and text;
* `Diagram.html` : the page of a diagram;
* `Diagram.htmlWith` : the same with any remarks in place of those on its issues.
-/
import SchemaDiagram.Page.Markup
import SchemaDiagram.Page.View

namespace SchemaDiagram

/-! ## Head -/

/-- The rules by which a page looks. -/
def styleLines : List String := [
  "        body \x7b font-family: Arial, sans-serif; margin: 0; background: #f3f4f6; \x7d",
  "        header \x7b padding: 12px 20px; background: #1f2937; color: #fff; \x7d",
  "        h1 \x7b font-size: 1.1rem; margin: 0; \x7d",
  "        .canvas \x7b overflow: auto; \x7d",
  "        .table-box \x7b fill: #fff; stroke: #d1d5db; \x7d",
  "        .table-header \x7b fill: #2563eb; \x7d",
  "        .table-name \x7b fill: #fff; font-weight: bold; font-size: 14px; \x7d",
  "        .field-row \x7b fill: #fff; stroke: #f3f4f6; \x7d",
  "        .field-name \x7b fill: #111827; font-size: 12px; \x7d",
  "        .field-type \x7b fill: #6b7280; font-size: 12px; \x7d",
  "        .field-name.primary \x7b font-weight: bold; \x7d",
  "        .field-name.nullable \x7b font-style: italic; \x7d",
  "        .connector \x7b fill: none; stroke: rgba(59, 130, 246, 0.9); stroke-width: 1.5;",
  "                     stroke-linecap: round; stroke-linejoin: round; \x7d",
  "        .marker \x7b fill: none; stroke: rgba(59, 130, 246, 0.9); stroke-width: 1.5; \x7d",
  "        .marker .circle \x7b fill: #fff; \x7d",
  "        .issues \x7b margin: 12px 20px; color: #b91c1c; font-size: 0.9rem; \x7d"]

/-- The head of a page. -/
def headLines (title : String) : List (List Piece) := [
  markupLine "<!DOCTYPE html>",
  markupLine "<html lang=\"en\">",
  markupLine "<head>",
  markupLine "    <meta charset=\"UTF-8\">",
  markupLine "    <meta name=\"viewport\" content=\"width=device-width, initial-scale=1.0\">",
  [.markup "    <title>", .text title, .markup "</title>"],
  markupLine "    <style>"] ++ styleLines.map markupLine ++ [
  markupLine "    </style>",
  markupLine "</head>"]

/-! ## Issues -/

/-- The line of a remark. -/
def remarkLine (r : Remark) : List Piece :=
  indentedLine 8 [.markup "<li>Line ", .text (wholeText r.line), .markup ": ", .text r.message,
    .markup "</li>"]

/-- The list of remarks, if there are any. -/
def remarkLines : List Remark → List (List Piece)
  | [] => []
  | remarks =>
    markupLine "    <ul class=\"issues\">" :: (remarks.map remarkLine ++ [markupLine "    </ul>"])

/-! ## Tables -/

/-- The text of a whole setting. -/
def settingText (n : Nat) : String := wholeText n

/-- A coordinate moved by a whole number of units, as text. -/
def shiftedText (x : Quantity) (shift : Int) : Except ArithmeticFault String := do
  return (← x.add (.whole shift)).text

/-- The lines of a row: its box, the name of its field and the type. -/
def rowLines (t : TableView Quantity) (r : RowView Quantity) :
    Except ArithmeticFault (List (List Piece)) := do
  let left ← shiftedText t.corner.x 10
  let right ← (← t.corner.x.add (.whole t.width)).sub (.whole 10)
  let kind := "field-name" ++ (if r.field.primary then " primary" else "") ++
    (if r.field.required then "" else " nullable")
  let key := if r.field.primary then [Piece.markup "&#128273; "] else []
  return [
    indentedLine 16 <| [.markup "<rect class=\"field-row\""] ++
      textAttr "x" t.corner.x.text ++ textAttr "y" r.top.text,
    indentedLine 21 <| textAttr "width" (settingText t.width) ++
      textAttr "height" (settingText t.fieldHeight) ++ [.markup " />"],
    indentedLine 16 <| [.markup "<text"] ++ attr "class" [.markup kind],
    indentedLine 21 <| textAttr "x" left ++ textAttr "y" r.baseline.text,
    indentedLine 21 <| attr "dominant-baseline" [.markup "middle"] ++ [.markup ">"] ++ key ++
      [.text r.field.name, .markup "</text>"],
    indentedLine 16 <| [.markup "<text class=\"field-type\""] ++ textAttr "x" right.text ++
      textAttr "y" r.baseline.text,
    indentedLine 21 <| attr "text-anchor" [.markup "end"] ++
      attr "dominant-baseline" [.markup "middle"] ++
      [.markup ">", .text r.field.type, .markup "</text>"]]

/-- The lines of a table: its box, its header with the name, and its rows. -/
def tableLines (t : TableView Quantity) : Except ArithmeticFault (List (List Piece)) := do
  let nameX ← shiftedText t.corner.x 10
  let nameY ← t.corner.y.add (.real (← (Quantity.whole t.headerHeight).dividedBy 2))
  let rows ← t.rows.mapM (rowLines t)
  let corner := textAttr "x" t.corner.x.text ++ textAttr "y" t.corner.y.text
  return [
    indentedLine 12 <| [.markup "<g class=\"table\""] ++ textAttr "data-table" t.name ++
      [.markup ">"],
    indentedLine 16 <| [.markup "<rect class=\"table-box\""] ++ corner,
    indentedLine 21 <| textAttr "width" (settingText t.width) ++
      textAttr "height" (settingText t.height) ++ [.markup " rx=\"4\" />"],
    indentedLine 16 <| [.markup "<rect class=\"table-header\""] ++ corner,
    indentedLine 21 <| textAttr "width" (settingText t.width) ++
      textAttr "height" (settingText t.headerHeight) ++ [.markup " rx=\"4\" />"],
    indentedLine 16 <| [.markup "<text class=\"table-name\""] ++ textAttr "x" nameX ++
      textAttr "y" nameY.text,
    indentedLine 21 <| attr "dominant-baseline" [.markup "middle"] ++
      [.markup ">", .text t.name, .markup "</text>"]] ++
    rows.flatten ++ [markupLine "            </g>"]

/-! ## Connectors -/

/-- The lines of the three strokes that spread from a crow's foot of the given size. -/
def crowsFootLine (size : Nat) : List Piece :=
  let tip := settingText (size + 1)
  let half := settingText size
  indentedLine 20 <| [.markup "<path"] ++ attr "d" [
    .markup "M ", .text tip, .markup " 0 L -1 -", .text half, .markup " M ", .text tip,
    .markup " 0 L -1 0 M ", .text tip, .markup " 0 L -1 ", .text half] ++ [.markup " />"]

/-- The line of the stroke of a tick of the given size. -/
def tickLine (size : Nat) : Except ArithmeticFault (List Piece) := do
  let x := (← (Quantity.whole size).dividedBy 2).text
  return indentedLine 20 <| [.markup "<line"] ++ textAttr "x1" x ++
    attr "y1" [.markup "-", .text (settingText size)] ++ textAttr "x2" x ++
    textAttr "y2" (settingText size) ++ [.markup " />"]

/-- The line of the circle beside a tick of the given size. -/
def circleLine (size : Nat) : Except ArithmeticFault (List Piece) := do
  let radius ← (Quantity.whole size).dividedBy 2
  let center ← (Quantity.whole size).add (.real radius)
  return indentedLine 20 <| [.markup "<circle class=\"circle\""] ++ textAttr "cx" center.text ++
    [.markup " cy=\"0\""] ++ textAttr "r" radius.text ++ [.markup " />"]

/-- The lines that draw a kind of marker. -/
def strokeLines (size : Nat) : MarkerKind → Except ArithmeticFault (List (List Piece))
  | .crowsFoot => .ok [crowsFootLine size]
  | .tick => do return [← tickLine size]
  | .tickCircle => do return [← tickLine size, ← circleLine size]

/-- The lines of a marker. -/
def markerLines (size : Nat) (m : Marker Quantity) : Except ArithmeticFault (List (List Piece)) := do
  let strokes ← strokeLines size m.kind
  return [
    indentedLine 16 <| [.markup "<g"] ++ attr "class" [.markup "marker ", .markup m.kind.text],
    indentedLine 18 <| attr "transform" [
      .markup "translate(", .text m.anchor.x.text, .markup ",", .text m.anchor.y.text,
      .markup ") rotate(", .text (settingText m.rotation), .markup ")"] ++ [.markup ">"]] ++
    strokes ++ [markupLine "                </g>"]

/-- The lines of a connector: its path and its two markers. -/
def connectorLines (size : Nat) (c : Connector Quantity) :
    Except ArithmeticFault (List (List Piece)) := do
  let r := c.relationship
  let path ← c.pathText
  let start ← markerLines size c.start
  let finish ← markerLines size c.finish
  return [
    indentedLine 12 <| [.markup "<g class=\"relationship\""] ++
      attr "data-from" [.text r.fromTable, .markup ".", .text r.fromField],
    indentedLine 14 <| attr "data-to" [.text r.toTable, .markup ".", .text r.toField],
    indentedLine 14 <| attr "data-type" [.markup r.cardinality.text] ++ [.markup ">"],
    indentedLine 16 <| [.markup "<path class=\"connector\""] ++ textAttr "d" path ++
      [.markup " />"]] ++
    start ++ finish ++ [markupLine "            </g>"]

/-! ## Pages -/

/-- The lines of a page. -/
def Page.lines (p : Page Quantity) : Except ArithmeticFault (List (List Piece)) := do
  let tables ← p.tables.mapM tableLines
  let connectors ← p.connectors.mapM (connectorLines p.markerSize)
  let width := p.size.x.text
  let height := p.size.y.text
  return headLines p.title ++ [
    markupLine "<body>",
    [.markup "    <header><h1>", .text p.title, .markup "</h1></header>"]] ++
    remarkLines p.remarks ++ [
    markupLine "    <div class=\"canvas\">",
    indentedLine 8 <| [.markup "<svg xmlns=\"http://www.w3.org/2000/svg\""] ++
      textAttr "width" width ++ textAttr "height" height,
    indentedLine 12 <| attr "viewBox" [
      .markup "0 0 ", .text width, .markup " ", .text height] ++ [.markup ">"]] ++
    tables.flatten ++ [markupLine ""] ++ connectors.flatten ++ [
    markupLine "        </svg>",
    markupLine "    </div>",
    markupLine "</body>",
    markupLine "</html>"]

/-- The page of a diagram with some remarks in place of those on its issues. -/
def Diagram.htmlWith (remarks : List Remark) (c : Config) (title : String) (d : Diagram Quantity) :
    Except ArithmeticFault (List Char) := do
  let page ← Page.ofDiagram c title d
  return writeLines (← { page with remarks }.lines)

/-- The page of a diagram. -/
def Diagram.html (c : Config) (title : String) (d : Diagram Quantity) :
    Except ArithmeticFault (List Char) :=
  d.htmlWith (d.issues.map Issue.remark) c title

end SchemaDiagram
