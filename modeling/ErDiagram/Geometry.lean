import ErDiagram.Coordinate

/-! Points and rectangles. The x axis points right and the y axis down. -/

namespace ErDiagram

variable {α : Type}

structure Point (α : Type) where
  x : α
  y : α
deriving DecidableEq, Repr

/-- A rectangle, given by its top left corner and its size. -/
structure Rect (α : Type) where
  x : α
  y : α
  width : α
  height : α
deriving DecidableEq, Repr

/-- Where the elements of a drawing are, by their ids. An element that is not drawn has no
rectangle. -/
abbrev Geometry (α : Type) := String → Option (Rect α)

variable [Coordinate α]

open Coordinate

namespace Point

/-- The origin. -/
def origin : Point α := ⟨zero, zero⟩

/-- The point shifted by `dx` to the right and `dy` down. -/
def offset (p : Point α) (dx dy : α) : Point α := ⟨p.x + dx, p.y + dy⟩

end Point

namespace Rect

/-- The rectangle of the given size around a point. -/
def centeredAt (center : Point α) (width height : α) : Rect α :=
  ⟨center.x - half width, center.y - half height, width, height⟩

def right (r : Rect α) : α := r.x + r.width

def bottom (r : Rect α) : α := r.y + r.height

def centerY (r : Rect α) : α := r.y + half r.height

/-- The middle of the left edge. -/
def leftCenter (r : Rect α) : Point α := ⟨r.x, r.centerY⟩

/-- The middle of the right edge. -/
def rightCenter (r : Rect α) : Point α := ⟨r.right, r.centerY⟩

end Rect

end ErDiagram
