import ErDiagram.Diagram

/-! Dragging tables with a pointer. -/

namespace ErDiagram

/-- The table that is held, and the hook that is told of each move. -/
structure DragSession (Hook : Type) where
  held : Option String
  hook : Option Hook
deriving DecidableEq, Repr

/-- What a drag does: whether a table was moved, the diagram after it, and the hook that is told. -/
structure DragResult (Hook α : Type) where
  moved : Bool
  diagram : Diagram α
  fired : Option Hook

namespace DragSession

variable {Hook α : Type} [Coordinate α]

/-- A session that holds no table. -/
def start (hook : Option Hook) : DragSession Hook := ⟨none, hook⟩

def setHook (s : DragSession Hook) (hook : Hook) : DragSession Hook := { s with hook := some hook }

/-- Takes hold of a table. Whether a table has the name shows when it is dragged. -/
def press (s : DragSession Hook) (table : String) : DragSession Hook :=
  { s with held := some table }

/-- Lets go of the table that is held. -/
def release (s : DragSession Hook) : DragSession Hook := { s with held := none }

/-- Moves the table that is held. The hook is told once, and only of a move that was made. -/
def dragBy (s : DragSession Hook) (d : Diagram α) (dx dy : α) : DragResult Hook α :=
  match s.held.bind fun table => d.move? table dx dy with
  | some moved => ⟨true, moved, s.hook⟩
  | none => ⟨false, d, none⟩

end DragSession

end ErDiagram
