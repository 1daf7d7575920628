import ErDiagram.NameMap
import ErDiagram.Text.Split
import ErDiagram.TextMetrics

/-! Measured tables at their places. -/

namespace ErDiagram

/-- The box of a table, with the names of its rows from top to bottom. -/
structure TableBox (α : Type) where
  corner : Point α
  width : α
  height : α
  rows : List String
deriving DecidableEq, Repr

/-- The boxes of all tables. Sizes are measured once; only the corners change. -/
structure Scene (α : Type) where
  metrics : TextMetrics α
  boxes : NameMap (TableBox α)

variable {α : Type} [Coordinate α]

open Coordinate

/-- The rectangle of a box. -/
def TableBox.rect (b : TableBox α) : Rect α :=
  ⟨b.corner.x, b.corner.y, b.width, b.height⟩

/-- The box of a table at the origin. -/
def TextMetrics.box (m : TextMetrics α) (t : Table) : TableBox α :=
  ⟨.origin, m.tableWidth t, m.tableHeight t, t.attributes.map Attribute.name⟩

namespace Scene

/-- Measures the tables; all boxes start at the origin. -/
def ofTables (metrics : TextMetrics α) (tables : List Table) : Scene α :=
  ⟨metrics, .ofList (tables.map fun t => (t.name, metrics.box t))⟩

/-- Moves each box that has a new corner there. -/
def sync (s : Scene α) (corners : NameMap (Point α)) : Scene α :=
  { s with boxes := s.boxes.mapValues fun name box =>
      { box with corner := (corners.get? name).getD box.corner } }

def tableRect (s : Scene α) (table : String) : Option (Rect α) :=
  (s.boxes.get? table).map TableBox.rect

/-- The header is the topmost row of a box. -/
def headerRect (s : Scene α) (table : String) : Option (Rect α) :=
  (s.tableRect table).map fun rect => { rect with height := s.metrics.rowHeight }

/-- The row of an attribute, below the header and the rows of the attributes before it. -/
def rowRect (s : Scene α) (table row : String) : Option (Rect α) := do
  let box ← s.boxes.get? table
  let index ← box.rows.idxOf? row
  let height := s.metrics.rowHeight
  return ⟨box.corner.x, box.corner.y + height * ((index + 1 : Nat) : α), box.width, height⟩

/-- The least rectangle around all boxes, if there is one. -/
def bounds (s : Scene α) : Option (Rect α) :=
  match s.boxes.entries.map fun entry => entry.2.rect with
  | [] => none
  | first :: others =>
    let minX := others.foldl (fun x r => lesser x r.x) first.x
    let minY := others.foldl (fun y r => lesser y r.y) first.y
    let maxX := others.foldl (fun x r => greater x r.right) first.right
    let maxY := others.foldl (fun y r => greater y r.bottom) first.bottom
    some ⟨minX, minY, maxX - minX, maxY - minY⟩

/-- The rectangle of the element with the given id. Behind the word that begins every id, a dot
separates the name of a table from that of its row. -/
def rectOf (s : Scene α) : Geometry α := fun id =>
  match "table.".toList.isPrefixOf? id.toList with
  | none => none
  | some rest =>
    match Text.splitFirst '.' rest with
    | some (table, row) => s.rowRect (String.ofList table) (String.ofList row)
    | none => s.tableRect (String.ofList rest)

end Scene

end ErDiagram
