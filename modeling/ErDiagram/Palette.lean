import ErDiagram.NameMap
import ErDiagram.Schema

/-! The colors of tables. -/

namespace ErDiagram

/-- The colors that tables are given in turn. -/
structure Palette where
  colors : List String
deriving DecidableEq, Repr

namespace Palette

/-- Red and green. -/
def standard : Palette := ⟨["#f00", "#0f0"]⟩

/-- The color with the given number, beginning again after the last one. An empty palette has
none. -/
def colorAt (p : Palette) (index : Nat) : Option String :=
  p.colors[index % p.colors.length]?

/-- The colors of the tables by name, in turn in the order of declaration. -/
def assign (p : Palette) (tables : List Table) : NameMap String :=
  NameMap.ofList (tables.zipIdx.filterMap fun (table, index) =>
    (p.colorAt index).map fun color => (table.name, color))

end Palette

end ErDiagram
