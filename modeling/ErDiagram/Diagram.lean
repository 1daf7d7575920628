import ErDiagram.Settings

/-! Diagrams: tables with their colors and places, and the connectors between them. -/

namespace ErDiagram

/-- A diagram. Its tables are laid out once; afterwards they move one by one. The connectors are
those of the last routing and do not follow a move by themselves. -/
structure Diagram (α : Type) where
  tables : List Table
  colors : NameMap String
  layout : LayoutSettings α
  routing : RoutingSettings α
  /-- The names of the tables from left to right, once they are laid out. -/
  order : List String
  positions : NameMap (Point α)
  connectors : List (Connector α)
  isLaidOut : Bool

namespace Diagram

variable {α : Type} [Coordinate α]

/-- A diagram of the tables, before layout and routing. -/
def ofTables (settings : Settings α) (tables : List Table) : Diagram α where
  tables
  colors := settings.palette.assign tables
  layout := settings.layout
  routing := settings.routing
  order := []
  positions := .empty
  connectors := []
  isLaidOut := false

/-- Orders and places the tables by their measured widths. -/
def placeTables (d : Diagram α) (geometry : Geometry α) : Diagram α :=
  let order := columnOrder d.tables
  { d with order, positions := d.layout.place order geometry, isLaidOut := true }

/-- Lays the tables out, and tells whether it did. A diagram that is laid out stays as it is. -/
def layOut (d : Diagram α) (geometry : Geometry α) : Bool × Diagram α :=
  if d.isLaidOut then (false, d) else (true, d.placeTables geometry)

/-- Routes all connectors anew. -/
def reroute (d : Diagram α) (geometry : Geometry α) : Diagram α :=
  { d with connectors := d.routing.route d.tables d.colors geometry }

/-- The declared table of that name. -/
def table? (d : Diagram α) (name : String) : Option Table :=
  d.tables.find? fun t => t.name == name

/-- Moves a table by `dx` to the right and `dy` down; there is nothing to move if no table has the
name. A table without a place moves from the origin. -/
def move? (d : Diagram α) (table : String) (dx dy : α) : Option (Diagram α) :=
  if (d.table? table).isSome then
    let position := (d.positions.get? table).getD .origin
    some { d with positions := d.positions.insert table (position.offset dx dy) }
  else none

end Diagram

end ErDiagram
