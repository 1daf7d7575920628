import ErDiagram.Geometry
import ErDiagram.Schema
import ErDiagram.Text.DisplayWidth

/-! The room that tables and their texts take. -/

namespace ErDiagram

/-- The notes behind the name of an attribute: its flags in parentheses. -/
def Attribute.flagNote (a : Attribute) : Option String :=
  if a.flags.isEmpty then none else some (" (" ++ ",".intercalate a.flags ++ ")")

/-- The notes behind the target of an attribute: the values of its notes in parentheses. -/
def Attribute.valueNote (a : Attribute) : Option String :=
  if a.notes.isEmpty then none
  else some (" (" ++ ",".intercalate (a.notes.map Note.value) ++ ")")

/-- The text at the left of an attribute's row. -/
def Attribute.leftText (a : Attribute) : String :=
  a.name ++ a.flagNote.getD ""

/-- The text at the right of an attribute's row. -/
def Attribute.rightText (a : Attribute) : String :=
  a.target.label ++ a.valueNote.getD ""

/-- The sizes that text is set in, and the blank space around it. -/
structure TextMetrics (α : Type) where
  charWidth : α
  lineHeight : α
  paddingX : α
  paddingY : α
  /-- Between the name and the target of an attribute. -/
  columnGap : α
  minTableWidth : α
deriving DecidableEq, Repr

namespace TextMetrics

open Coordinate

variable {α : Type} [Coordinate α]

def standard : TextMetrics α where
  charWidth := ((8 : Nat) : α)
  lineHeight := ((20 : Nat) : α)
  paddingX := ((8 : Nat) : α)
  paddingY := ((4 : Nat) : α)
  columnGap := ((32 : Nat) : α)
  minTableWidth := ((160 : Nat) : α)

def textWidth (m : TextMetrics α) (text : String) : α :=
  (Text.displayWidth text : α) * m.charWidth

/-- The height of the header and of each row. -/
def rowHeight (m : TextMetrics α) : α :=
  m.lineHeight + twice m.paddingY

/-- The width of an attribute's row between the paddings. -/
def rowWidth (m : TextMetrics α) (a : Attribute) : α :=
  m.textWidth a.leftText + m.columnGap + m.textWidth a.rightText

/-- The width of a table: that of its longest line and the paddings, but not less than the least
width. -/
def tableWidth (m : TextMetrics α) (t : Table) : α :=
  let widest := t.attributes.foldl (fun width a => greater width (m.rowWidth a)) zero
  greater (greater (m.textWidth t.name) widest + twice m.paddingX) m.minTableWidth

/-- The height of a table: a header and a row for each attribute. -/
def tableHeight (m : TextMetrics α) (t : Table) : α :=
  m.rowHeight * ((t.attributes.length + 1 : Nat) : α)

end TextMetrics

end ErDiagram
