/-! Sets of characters given by the code points at which membership changes. -/

namespace ErDiagram.Text

/-- A set of code points as an inversion list: the rising list of the places where membership
changes, beginning outside. A property with hundreds of ranges stays one flat list. -/
structure CodeSet where
  changes : List Nat

namespace CodeSet

/-- Walks the changes up to `n`; each one passed turns membership over. -/
def holdsFrom (inside : Bool) (n : Nat) : List Nat → Bool
  | [] => inside
  | change :: later => if n < change then inside else holdsFrom (!inside) n later

/-- Whether the set has the character. -/
def contains (s : CodeSet) (c : Char) : Bool :=
  holdsFrom false c.toNat s.changes

end CodeSet

end ErDiagram.Text
