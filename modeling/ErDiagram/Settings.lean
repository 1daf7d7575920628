import ErDiagram.Columns
import ErDiagram.Connector
import ErDiagram.Palette
import ErDiagram.TextMetrics

/-! All that can be set about a diagram. -/

namespace ErDiagram

structure Settings (α : Type) where
  layout : LayoutSettings α
  routing : RoutingSettings α
  metrics : TextMetrics α
  palette : Palette
deriving DecidableEq, Repr

/-- What holds for everything that is not set. -/
def Settings.standard {α : Type} [Coordinate α] : Settings α :=
  ⟨.standard, .standard, .standard, .standard⟩

end ErDiagram
