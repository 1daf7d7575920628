import ErDiagram.Coordinate
import ErDiagram.Decimal.Shortest

/-! The text of a number. -/

namespace ErDiagram.Decimal

/-- Drops the zeros at the end of a list of digits. -/
def dropZeros (digits : List Char) : List Char :=
  (digits.reverse.dropWhile (· == '0')).reverse

/-- The number written without an exponent, and without a point if it is whole. -/
def Digits.positional (d : Digits) : String :=
  let digits := Nat.toDigits 10 d.digits
  match d.place with
  | .ofNat k => String.ofList (digits ++ List.replicate k '0')
  | .negSucc k =>
    let padded := List.replicate (k + 2 - digits.length) '0' ++ digits
    let whole := padded.take (padded.length - (k + 1))
    let fraction := dropZeros (padded.drop (padded.length - (k + 1)))
    String.ofList (if fraction.isEmpty then whole else whole ++ '.' :: fraction)

/-- A double in the fewest digits that read back as the same one, never with an exponent. Zero has a
sign; what is not a number has none. -/
def text (x : Float) : String :=
  match Binary64.ofFloat x with
  | .notANumber => "NaN"
  | .infinite negative => if negative then "-inf" else "inf"
  | .finite negative mantissa exponent =>
    let magnitude :=
      if mantissa = 0 then "0" else (Shortest.ofBinary mantissa exponent).positional
    if negative then "-" ++ magnitude else magnitude

end ErDiagram.Decimal

instance : ErDiagram.Written Float := ⟨ErDiagram.Decimal.text⟩
