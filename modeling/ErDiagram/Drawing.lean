import ErDiagram.Diagram
import ErDiagram.Markup
import ErDiagram.Scene

/-! Drawing a diagram as vector graphics.

Lines lie behind the tables and markers before them. A table is drawn where the scene has its box,
which need not be a scene of the same tables. -/

namespace ErDiagram.Drawing

open Coordinate Markup

variable {α : Type} [Coordinate α]

/-- The blank space around the drawing. -/
def margin : α := ((64 : Nat) : α)

/-! ### What is in view -/

/-- How far a drawing reaches to each side. -/
structure Extent (α : Type) where
  minX : α
  minY : α
  maxX : α
  maxY : α
deriving DecidableEq, Repr

namespace Extent

/-- An empty drawing reaches the origin. -/
def start : Extent α := ⟨zero, zero, zero, zero⟩

def addRect (e : Extent α) (r : Rect α) : Extent α :=
  ⟨lesser e.minX r.x, lesser e.minY r.y, greater e.maxX r.right, greater e.maxY r.bottom⟩

def addPoint (e : Extent α) (p : Point α) : Extent α :=
  ⟨lesser e.minX p.x, lesser e.minY p.y, greater e.maxX p.x, greater e.maxY p.y⟩

/-- The rectangle that is shown: from the origin, or from a margin before what lies left of it or
above it, to a margin behind the last of the drawing. -/
def view (e : Extent α) : Rect α :=
  let x := if e.minX < zero then e.minX - margin else zero
  let y := if e.minY < zero then e.minY - margin else zero
  ⟨x, y, e.maxX + margin - x, e.maxY + margin - y⟩

end Extent

/-- How far the boxes of a scene and the connectors of a diagram reach. -/
def extent (d : Diagram α) (s : Scene α) : Extent α :=
  let boxes := match s.bounds with
    | some bounds => Extent.start.addRect bounds
    | none => Extent.start
  (d.connectors.flatMap Connector.points).foldl Extent.addPoint boxes

/-- The rectangle that is shown. -/
def viewBox (d : Diagram α) (s : Scene α) : Rect α :=
  (extent d s).view

/-! ### Elements -/

variable [Written α]

/-- The attributes that place a rectangle. -/
def placed (r : Rect α) : List (String × String) :=
  [("x", written r.x), ("y", written r.y), ("width", written r.width),
    ("height", written r.height)]

/-- The attributes that place a text. -/
def placedAt (x y : α) : List (String × String) :=
  [("x", written x), ("y", written y)]

def style : Node :=
  let face := "font-family: monospace; font-size: "
  let rule := fun (name body : String) => "  ." ++ name ++ " \x7b " ++ face ++ body ++ " \x7d\n"
  .element "style" [] [.text ("\n" ++
    rule "table-name" "14px; font-weight: bold; fill: #f3f4f6;" ++
    rule "row-text" "14px; fill: #d1d5db;" ++
    rule "row-note" "11px; fill: #9ca3af;")]

/-- The dots of the background. -/
def definitions : Node :=
  let dot := [("x", "0"), ("y", "0"), ("width", "1"), ("height", "1"), ("fill", "none"),
    ("stroke", "#607a9f")]
  let pattern := [("id", "GridPattern"), ("x", "0"), ("y", "0"), ("width", "16"),
    ("height", "16"), ("patternUnits", "userSpaceOnUse")]
  .element "defs" [] [.text "\n  ",
    .element "pattern" pattern [.text "\n    ", .empty "rect" dot, .text "\n  "],
    .text "\n"]

def polyline (c : Connector α) : Node :=
  let points := c.points.map fun p => written p.x ++ "," ++ written p.y
  .empty "polyline" [("data-from", c.source), ("data-to", c.target), ("stroke", c.color),
    ("points", " ".intercalate points)]

def markerRect (m : Marker α) : Node :=
  .empty "rect" (placed m.rect ++ [("fill", m.color)])

/-- A text of a row with the note behind it. -/
def rowText (attributes : List (String × String)) (content : String) (note : Option String) :
    Node :=
  let span := note.toList.map fun text => Node.element "tspan" [("class", "row-note")] [.text text]
  .element "text" (("class", "row-text") :: attributes) (.text content :: span)

/-- How far below the top of a row its text stands. -/
def baseline (m : TextMetrics α) : α :=
  m.paddingY + m.lineHeight * (((3 : Nat) : α) / ((4 : Nat) : α))

/-- The row of an attribute. Rows have two fills in turn. -/
def row (m : TextMetrics α) (table : String) (a : Attribute) (index : Nat) (r : Rect α) : Node :=
  let fill := if index % 2 = 0 then "#475569" else "#334155"
  let y := r.y + baseline m
  block "g" [("id", attributeId table a.name)] [
    .empty "rect" (placed r ++ [("fill", fill)]),
    rowText (placedAt (r.x + m.paddingX) y) a.name a.flagNote,
    rowText (placedAt (r.right - m.paddingX) y ++ [("text-anchor", "end")]) a.target.label
      a.valueNote]

/-- The rows of a table that the scene has. -/
def rows (s : Scene α) (t : Table) : List Node :=
  t.attributes.zipIdx.filterMap fun (a, index) =>
    (s.rowRect t.name a.name).map (row s.metrics t.name a index)

/-- A table at the place that the scene has for it, if it has one. -/
def table? (s : Scene α) (t : Table) : Option Node := do
  let box ← s.tableRect t.name
  let header ← s.headerRect t.name
  let name := Node.element "text"
    (("class", "table-name") ::
      placedAt (header.x + s.metrics.paddingX) (header.y + baseline s.metrics))
    [.text t.name]
  return block "g" [("id", tableId t.name)] <|
    .empty "rect" (placed box ++ [("rx", "6"), ("fill", "#1e293b"), ("stroke", "#0f172a")]) ::
    name :: rows s t

/-- The whole drawing. -/
def document (d : Diagram α) (s : Scene α) : Node :=
  let view := viewBox d s
  let viewText := [view.x, view.y, view.width, view.height].map written
  let root := [("xmlns", "http://www.w3.org/2000/svg"), ("width", written view.width),
    ("height", written view.height), ("viewBox", " ".intercalate viewText)]
  let lines := [("class", "connectors"), ("stroke-linejoin", "bevel"), ("stroke-width", "4"),
    ("fill", "none")]
  let markers := d.connectors.flatMap fun c =>
    [markerRect c.sourceMarker, markerRect c.targetMarker]
  block "svg" root <|
    [style, definitions,
      .empty "rect" (placed view ++ [("fill", "#334155")]),
      .empty "rect" (placed view ++ [("fill", "url(#GridPattern)")]),
      block "g" lines (d.connectors.map polyline)] ++
    d.tables.filterMap (table? s) ++
    [block "g" [("class", "markers"), ("stroke", "none")] markers]

end Drawing

/-- The text of the drawing of a diagram on a scene. -/
def render {α : Type} [Coordinate α] [Written α] (d : Diagram α) (s : Scene α) : String :=
  String.ofList ((Drawing.document d s).write ++ ['\n'])

end ErDiagram
