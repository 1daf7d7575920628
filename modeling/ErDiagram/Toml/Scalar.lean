import ErDiagram.Decimal.Literal
import ErDiagram.Text.Split
import ErDiagram.Toml.Value

/-! Scalars of TOML documents that stand without quotes: numbers, truth values, dates and times. -/

namespace ErDiagram.Toml.Scalar

/-- Digits of the given kind, in groups between underscores. -/
def grouped? (isDigit : Char → Bool) (cs : List Char) : Option (List Char) :=
  let groups := Text.splitOn '_' cs
  if groups.all fun group => !group.isEmpty && group.all isDigit then some groups.flatten else none

/-- A whole number without zeros in front of it. -/
def whole? (cs : List Char) : Option (List Char) :=
  match grouped? Char.isDigit cs with
  | some ('0' :: _ :: _) => none
  | digits => digits

def isHexDigit (c : Char) : Bool :=
  c.isDigit || ('a' ≤ c && c ≤ 'f') || ('A' ≤ c && c ≤ 'F')

def isOctalDigit (c : Char) : Bool := '0' ≤ c && c ≤ '7'

def isBinaryDigit (c : Char) : Bool := c = '0' || c = '1'

/-- An integer. One in a base other than ten has no sign. -/
def integer? (cs : List Char) : Option Int :=
  match cs with
  | '0' :: 'x' :: digits => (grouped? isHexDigit digits).map fun ds => Decimal.number 16 ds
  | '0' :: 'o' :: digits => (grouped? isOctalDigit digits).map fun ds => Decimal.number 8 ds
  | '0' :: 'b' :: digits => (grouped? isBinaryDigit digits).map fun ds => Decimal.number 2 ds
  | _ =>
    let (negative, digits) := Decimal.splitSign cs
    (whole? digits).map fun ds =>
      let size : Int := Decimal.number 10 ds
      if negative then -size else size

/-- The exponent of a number, after its letter. -/
def exponent? (cs : List Char) : Option Int :=
  let (negative, digits) := Decimal.splitSign cs
  (grouped? Char.isDigit digits).map fun ds =>
    let size : Int := Decimal.number 10 ds
    if negative then -size else size

/-- A number with a point, an exponent, or both; digits stand on both sides of a point. -/
def float? (cs : List Char) : Option (Option Float) := do
  let (negative, cs) := Decimal.splitSign cs
  if cs = "inf".toList then return some (Decimal.infinity negative)
  if cs = "nan".toList then return some Decimal.notANumber
  let isLetter := fun c : Char => c == 'e' || c == 'E'
  let mantissa := cs.takeWhile fun c => !isLetter c
  let power := (cs.dropWhile fun c => !isLetter c).drop 1
  let exponent ← if mantissa.length = cs.length then some 0 else exponent? power
  let (whole, fraction) ← match Text.splitFirst '.' mantissa with
    | none => (whole? mantissa).map (·, [])
    | some (whole, fraction) => (whole? whole).bind fun whole =>
      (grouped? Char.isDigit fraction).map (whole, ·)
  let x := Decimal.ofParts negative whole fraction exponent
  return if x.isInf then none else some x

/-- A number of exactly so many digits, and the text after it. -/
def digits? (count : Nat) (cs : List Char) : Option (Nat × List Char) :=
  let digits := cs.take count
  if digits.length = count ∧ digits.all Char.isDigit then
    some (Decimal.number 10 digits, cs.drop count)
  else none

/-- What follows a given character. -/
def after? (c : Char) : List Char → Option (List Char)
  | d :: cs => if d = c then some cs else none
  | [] => none

def isLeapYear (year : Nat) : Bool :=
  year % 4 == 0 && (year % 100 != 0 || year % 400 == 0)

def daysInMonth (year month : Nat) : Nat :=
  if month = 2 then if isLeapYear year then 29 else 28
  else if month ∈ [4, 6, 9, 11] then 30
  else 31

/-- What follows a date of the calendar. -/
def afterDate? (cs : List Char) : Option (List Char) := do
  let (year, cs) ← digits? 4 cs
  let (month, cs) ← digits? 2 (← after? '-' cs)
  let (day, cs) ← digits? 2 (← after? '-' cs)
  guard (1 ≤ month ∧ month ≤ 12 ∧ 1 ≤ day ∧ day ≤ daysInMonth year month)
  return cs

/-- What follows a time of day. Its seconds may be left out; a minute may have a leap second. -/
def afterTime? (cs : List Char) : Option (List Char) := do
  let (hour, cs) ← digits? 2 cs
  let (minute, cs) ← digits? 2 (← after? ':' cs)
  guard (hour ≤ 23 ∧ minute ≤ 59)
  match cs with
  | ':' :: cs =>
    let (second, cs) ← digits? 2 cs
    guard (second ≤ 60)
    match cs with
    | '.' :: cs =>
      guard (!(cs.takeWhile Char.isDigit).isEmpty)
      return cs.dropWhile Char.isDigit
    | _ => return cs
  | _ => return cs

/-- Whether the text is nothing, or a distance from universal time. -/
def isOffset (cs : List Char) : Bool :=
  match cs with
  | [] | ['Z'] | ['z'] => true
  | c :: cs =>
    (c == '+' || c == '-') && Option.isSome (do
      let (hour, cs) ← digits? 2 cs
      let (minute, cs) ← digits? 2 (← after? ':' cs)
      guard (hour ≤ 23 ∧ minute ≤ 59 ∧ cs = []))

/-- Whether the text is a time of day with or without a distance from universal time. -/
def isOffsetTime (cs : List Char) : Bool :=
  match afterTime? cs with
  | some rest => isOffset rest
  | none => false

/-- Whether the text is a date, a time of day, or both. -/
def isMoment (cs : List Char) : Bool :=
  match afterDate? cs with
  | some [] => true
  | some (c :: rest) => (c == 'T' || c == 't' || c == ' ') && isOffsetTime rest
  | none => afterTime? cs == some []

/-- The value that a text without quotes stands for. -/
def ofChars? (cs : List Char) : Option Value :=
  if cs = "true".toList then some (.boolean true)
  else if cs = "false".toList then some (.boolean false)
  else
    match integer? cs with
    | some n => some (.integer n)
    | none =>
      match float? cs with
      | some x => some (.float x)
      | none => if isMoment cs then some .moment else none

/-- The characters that such a text consists of. -/
def isScalarChar (c : Char) : Bool :=
  c.isAlphanum || c ∈ ['+', '-', '.', '_', ':']

/-- Splits off the text of a scalar. A date may have a space before its time of day. -/
def split (cs : List Char) : List Char × List Char :=
  let first := cs.takeWhile isScalarChar
  let rest := cs.dropWhile isScalarChar
  match afterDate? first, rest with
  | some [], ' ' :: c :: more =>
    if c.isDigit then
      (first ++ ' ' :: (c :: more).takeWhile isScalarChar, (c :: more).dropWhile isScalarChar)
    else (first, rest)
  | _, _ => (first, rest)

end ErDiagram.Toml.Scalar
