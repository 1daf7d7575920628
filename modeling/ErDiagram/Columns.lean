import ErDiagram.Geometry
import ErDiagram.NameMap
import ErDiagram.Schema

/-! The order of tables from left to right, and their places in it. -/

namespace ErDiagram

/-- Pulls a table to the left of one that it refers to. If it stands right of the target it is taken
out and put back one place before the place that the target had. A target that is not declared sends
it to the front. -/
def pullLeft (order : List String) (name target : String) : List String :=
  match order.idxOf? name with
  | none => order
  | some here =>
    match order.idxOf? target with
    | none => (order.eraseIdx here).insertIdx 0 name
    | some there =>
      if there < here then (order.eraseIdx here).insertIdx (there - 1) name else order

/-- The names of the tables from left to right. They start in the order of declaration; then each
table in that order is pulled left of the tables it refers to, one reference after another. A later
pull may undo what an earlier one has done. -/
def columnOrder (tables : List Table) : List String :=
  tables.foldl
    (fun order table =>
      table.references.foldl (fun order r => pullLeft order table.name r.targetTable) order)
    (tables.map Table.name)

/-- Where the first table is placed, and the gap between neighbours. -/
structure LayoutSettings (α : Type) where
  marginX : α
  marginY : α
  gap : α
deriving DecidableEq, Repr

variable {α : Type} [Coordinate α]

namespace LayoutSettings

def standard : LayoutSettings α :=
  let margin := ((64 : Nat) : α)
  ⟨margin, margin, margin⟩

/-- Places the named tables side by side, their tops on one line. `x` is where the next one starts.
A table without a rectangle is left out and takes no room. -/
def placeFrom (s : LayoutSettings α) (geometry : Geometry α) (placed : NameMap (Point α)) (x : α) :
    List String → NameMap (Point α)
  | [] => placed
  | name :: names =>
    match geometry (tableId name) with
    | none => placeFrom s geometry placed x names
    | some rect =>
      placeFrom s geometry (placed.insert name ⟨x, s.marginY⟩) (x + (rect.width + s.gap)) names

/-- The top left corners of the tables, in the given order from left to right. -/
def place (s : LayoutSettings α) (order : List String) (geometry : Geometry α) :
    NameMap (Point α) :=
  s.placeFrom geometry .empty s.marginX order

end LayoutSettings

end ErDiagram
