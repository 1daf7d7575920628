import ErDiagram.Geometry
import ErDiagram.NameMap
import ErDiagram.Schema

/-! Connectors: elbowed lines from a reference to the attribute it refers to. -/

namespace ErDiagram

/-- A filled rectangle at an end of a connector. -/
structure Marker (α : Type) where
  rect : Rect α
  color : String
deriving DecidableEq, Repr

/-- A line between two rows, named by their ids. Its points are joined by level and upright
segments. -/
structure Connector (α : Type) where
  source : String
  target : String
  points : List (Point α)
  color : String
  sourceMarker : Marker α
  targetMarker : Marker α
deriving DecidableEq, Repr

/-- How far a connector keeps from a box before it turns, the size of its markers, and the color it
has when its target has none. -/
structure RoutingSettings (α : Type) where
  padding : α
  markerWidth : α
  markerHeight : α
  defaultColor : String
deriving DecidableEq, Repr

variable {α : Type} [Coordinate α]

namespace RoutingSettings

open Coordinate

def standard : RoutingSettings α where
  padding := ((32 : Nat) : α)
  markerWidth := ((6 : Nat) : α)
  markerHeight := ((10 : Nat) : α)
  defaultColor := "#fff"

/-- The points of a connector from the right edge of a row to the left edge of another one. A
connector that has to go back leftward does so below both boxes, but it goes down beside the first
and up beside the second of them without regard to the other one. -/
def path (s : RoutingSettings α) (start finish : Point α) (sourceBox targetBox : Rect α) :
    List (Point α) :=
  let leave := start.x + s.padding
  let enter := finish.x - s.padding
  let turns :=
    if finish.x < start.x then
      let below := greater (sourceBox.bottom + s.padding) (targetBox.bottom + s.padding)
      [⟨leave, below⟩, ⟨enter, below⟩]
    else [⟨enter, start.y⟩]
  [start, ⟨leave, start.y⟩] ++ turns ++ [⟨enter, finish.y⟩, finish]

/-- The marker around an end of a connector. -/
def marker (s : RoutingSettings α) (center : Point α) (color : String) : Marker α :=
  ⟨.centeredAt center s.markerWidth s.markerHeight, color⟩

/-- The connector of a reference. There is none while one of the two boxes or rows is not drawn. -/
def connect (s : RoutingSettings α) (colors : NameMap String) (geometry : Geometry α)
    (table : String) (r : Reference) : Option (Connector α) := do
  let source := attributeId table r.source
  let target := attributeId r.targetTable r.targetAttribute
  let sourceBox ← geometry (tableId table)
  let targetBox ← geometry (tableId r.targetTable)
  let sourceRow ← geometry source
  let targetRow ← geometry target
  let start := sourceRow.rightCenter
  let finish := targetRow.leftCenter
  let color := (colors.get? r.targetTable).getD s.defaultColor
  return {
    source, target, color
    points := s.path start finish sourceBox targetBox
    sourceMarker := s.marker start color
    targetMarker := s.marker finish color }

/-- The connectors of all references whose ends are drawn, in the order of declaration. -/
def route (s : RoutingSettings α) (tables : List Table) (colors : NameMap String)
    (geometry : Geometry α) : List (Connector α) :=
  tables.flatMap fun t => t.references.filterMap (s.connect colors geometry t.name)

end RoutingSettings

end ErDiagram
