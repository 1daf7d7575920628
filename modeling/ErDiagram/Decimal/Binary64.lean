/-! Doubles as exact numbers: what a double stands for, and the double nearest to a fraction. -/

namespace ErDiagram.Decimal

/-- What a double stands for. A finite one is `mantissa * 2 ^ exponent`, with its sign apart since
zero has one too. -/
inductive Binary64 where
  | notANumber
  | infinite (negative : Bool)
  | finite (negative : Bool) (mantissa : Nat) (exponent : Int)
deriving DecidableEq, Repr

namespace Binary64

/-- The bits below the exponent. -/
def fractionBits : Nat := 52

/-- The exponent of the least double above zero. -/
def leastExponent : Int := -1074

/-- Takes a double apart. The leading one of the mantissa is not stored, except that it is missing
where the exponent is least. -/
def ofBits (bits : Nat) : Binary64 :=
  let negative := bits / Nat.pow 2 63 % 2 == 1
  let biased := bits / Nat.pow 2 fractionBits % Nat.pow 2 11
  let fraction := bits % Nat.pow 2 fractionBits
  if biased = 2047 then
    if fraction = 0 then infinite negative else notANumber
  else if biased = 0 then finite negative fraction leastExponent
  else finite negative (Nat.pow 2 fractionBits + fraction) (leastExponent + (biased - 1 : Nat))

def ofFloat (x : Float) : Binary64 := ofBits x.toBits.toNat

/-- The bits of `mantissa * 2 ^ exponent`, for an exponent that is not below the least one. A
mantissa that rounding has brought to the next power of two carries into the exponent by itself. -/
def bitsOf (negative : Bool) (mantissa : Nat) (exponent : Int) : Nat :=
  let sign := if negative then Nat.pow 2 63 else 0
  let infinity := 2047 * Nat.pow 2 fractionBits
  let magnitude :=
    if mantissa < Nat.pow 2 fractionBits then mantissa
    else (exponent - leastExponent).toNat * Nat.pow 2 fractionBits + mantissa
  sign + min magnitude infinity

/-- A quotient rounded to the nearest natural number, a half to the even one. -/
def roundQuotient (num den : Nat) : Nat :=
  let q := num / den
  let twice := 2 * (num % den)
  if twice < den then q
  else if den < twice then q + 1
  else q + q % 2

/-- `num / den * 2 ^ (-exponent)` as a numerator and a denominator. -/
def scale (num den : Nat) (exponent : Int) : Nat × Nat :=
  match exponent with
  | .ofNat k => (num, den * Nat.pow 2 k)
  | .negSucc k => (num * Nat.pow 2 (k + 1), den)

/-- The double nearest to `num / den`, where `den` is not zero; a tie goes to the even mantissa, and
what is too large becomes infinite. The quotient of the two logarithms is off by one at most, so one
of two exponents brings the mantissa to its 53 bits. -/
def nearest (negative : Bool) (num den : Nat) : Float :=
  if num = 0 then Float.ofBits (bitsOf negative 0 leastExponent).toUInt64
  else
    let low := max leastExponent ((num.log2 : Int) - den.log2 - 53)
    let (n, d) := scale num den low
    let exponent := if n / d < Nat.pow 2 53 then low else low + 1
    let (n, d) := scale num den exponent
    Float.ofBits (bitsOf negative (roundQuotient n d) exponent).toUInt64

end Binary64

/-- The double nearest to `digits * 10 ^ exponent`. Far outside the range of doubles the answer is
known without computing the power. -/
def toFloat (negative : Bool) (digits : Nat) (exponent : Int) : Float :=
  let size := (digits.log2 : Int) * 30103 / 100000 + exponent
  if digits = 0 ∨ size < -400 then Binary64.nearest negative 0 1
  else if 400 < size then Binary64.nearest negative (Nat.pow 2 1024) 1
  else
    match exponent with
    | .ofNat k => Binary64.nearest negative (digits * Nat.pow 10 k) 1
    | .negSucc k => Binary64.nearest negative digits (Nat.pow 10 (k + 1))

end ErDiagram.Decimal
