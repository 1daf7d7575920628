/-! The numbers that places and sizes are given in. -/

namespace ErDiagram

/-- What a drawing asks of its numbers: the four operations, the natural numbers, an order that can
be decided, and a test for being a number at all. Doubles meet it, and so do the rationals, which
compute without rounding. -/
class Coordinate (α : Type) extends Add α, Sub α, Mul α, Div α, NatCast α, LT α, BEq α where
  decidableLT : DecidableLT α

namespace Coordinate

variable {α : Type} [Coordinate α]

instance : DecidableLT α := decidableLT

/-- The lesser of two numbers. What is not a number differs from itself and gives way to the other
one; of two equal numbers it is the second, so that the sign of a zero is that of the second. -/
def lesser (a b : α) : α :=
  if b == b then if a < b then a else b else a

/-- The greater of two numbers, under the same rules as `lesser`. -/
def greater (a b : α) : α :=
  if b == b then if b < a then a else b else a

/-- Zero. -/
def zero : α := ((0 : Nat) : α)

/-- Half of a number. -/
def half (a : α) : α := a / ((2 : Nat) : α)

/-- Twice a number. -/
def twice (a : α) : α := a * ((2 : Nat) : α)

end Coordinate

/-- Numbers that can be written in a drawing. -/
class Written (α : Type) where
  written : α → String

export Written (written)

instance : Coordinate Float where
  natCast := Float.ofNat
  decidableLT := inferInstance

end ErDiagram
