import ErDiagram.Decimal.Binary64

/-! The shortest decimal that stands for a double.

The reals that round to a double form an interval around it. Of the decimal grids `10 ^ place`, from
the coarse to the fine, the first one with a point in that interval gives the fewest digits; of the
two neighbours of the double on that grid the nearer one is taken. -/

namespace ErDiagram.Decimal

/-- The number `digits * 10 ^ place`. -/
structure Digits where
  digits : Nat
  place : Int
deriving DecidableEq, Repr

namespace Shortest

/-- The interval of the reals that round to a double, as numerators over one denominator. Its ends
belong to it if the mantissa is even. -/
structure Interval where
  low : Nat
  value : Nat
  high : Nat
  den : Nat
  closed : Bool

/-- The interval around `mantissa * 2 ^ exponent`. The double below a power of two is half as far
away as the one above it. -/
def interval (mantissa : Nat) (exponent : Int) : Interval :=
  let below := if mantissa = Nat.pow 2 52 ∧ exponent ≠ Binary64.leastExponent then 1 else 2
  let unit := exponent - 2
  let up := Nat.pow 2 unit.toNat
  ⟨(4 * mantissa - below) * up, 4 * mantissa * up, (4 * mantissa + 2) * up, Nat.pow 2 (-unit).toNat,
    mantissa % 2 = 0⟩

/-- Whether the fraction `num / den` lies in the interval. -/
def Interval.contains (i : Interval) (num den : Nat) : Bool :=
  let low := i.low * den
  let high := i.high * den
  let x := num * i.den
  if i.closed then low ≤ x && x ≤ high else low < x && x < high

/-- The neighbour of the value on the grid `10 ^ place` that is in the interval, if one is. Of two
it is the nearer one, and the upper one of two equally near. -/
def neighbour? (i : Interval) (place : Int) : Option Digits :=
  let up := Nat.pow 10 place.toNat
  let down := Nat.pow 10 (-place).toNat
  let num := i.value * down
  let den := i.den * up
  let floor := num / den
  let isIn := fun digits : Nat => i.contains (digits * up) down
  let upperIsNearer := den ≤ 2 * (num % den)
  if isIn floor && !(upperIsNearer && isIn (floor + 1)) then some ⟨floor, place⟩
  else if isIn (floor + 1) then some ⟨floor + 1, place⟩
  else none

/-- The first grid with a point in the interval, from `place` downwards, over so many places at
most. Doubles need no more than seventeen digits. -/
def search (i : Interval) (place : Int) : Nat → Digits
  | 0 => ⟨0, 0⟩
  | steps + 1 =>
    match neighbour? i place with
    | some digits => digits
    | none => search i (place - 1) steps

/-- The number of decimal digits. -/
def digitCount (n : Nat) : Nat :=
  (Nat.toDigits 10 n).length

/-- The shortest decimal for `mantissa * 2 ^ exponent` with a mantissa above zero. The search begins
left of the first digit. -/
def ofBinary (mantissa : Nat) (exponent : Int) : Digits :=
  let i := interval mantissa exponent
  let whole := i.value / i.den
  let place : Int :=
    if whole = 0 then 1 - (digitCount (i.den / i.value) : Int) else digitCount whole
  search i place 20

end Shortest

end ErDiagram.Decimal
