import ErDiagram.Decimal.Literal
import ErDiagram.Toml.Scalar

/-! Texts in quotes: with escapes or as they stand, on one line or on several. -/

namespace ErDiagram.Toml.Quotation

/-- The characters that stand for themselves in a comment or a text: all but control characters
other than the tab. -/
def isPlain (c : Char) : Bool :=
  c == '\t' || (32 ≤ c.toNat && c.toNat != 127)

/-- The character with the code that hexadecimal digits spell. -/
def coded? (count : Nat) (cs : List Char) : Option (Char × List Char) :=
  let digits := cs.take count
  let n := Decimal.number 16 digits
  if digits.length = count ∧ digits.all Scalar.isHexDigit ∧ n.isValidChar then
    some (Char.ofNat n, cs.drop count)
  else none

/-- The character that an escape stands for, after its backslash. -/
def escape? : List Char → Option (Char × List Char)
  | [] => none
  | c :: cs =>
    match c with
    | 'b' => some ('\x08', cs)
    | 't' => some ('\t', cs)
    | 'n' => some ('\n', cs)
    | 'f' => some ('\x0c', cs)
    | 'r' => some ('\r', cs)
    | 'e' => some ('\x1b', cs)
    | '"' => some ('"', cs)
    | '\\' => some ('\\', cs)
    | 'x' => coded? 2 cs
    | 'u' => coded? 4 cs
    | 'U' => coded? 8 cs
    | _ => none

theorem escape?_length {cs rest : List Char} {c : Char} (hEscape : escape? cs = some (c, rest)) :
    rest.length < cs.length := by
  cases cs with
  | nil => simp [escape?] at hEscape
  | cons d ds =>
    have hCoded : ∀ {count : Nat}, coded? count ds = some (c, rest) → rest.length ≤ ds.length := by
      intro count h
      simp only [coded?] at h
      split at h
      · cases h
        simp
      · cases h
    simp only [escape?] at hEscape
    split at hEscape
    case h_1 | h_2 | h_3 | h_4 | h_5 | h_6 | h_7 | h_8 =>
      cases hEscape
      simp
    case h_9 | h_10 | h_11 => exact Nat.lt_succ_of_le (hCoded hEscape)
    case h_12 => cases hEscape

/-- Puts characters in front of what is read. -/
def prepend (cs : List Char) : Option (List Char × List Char) → Option (List Char × List Char) :=
  Option.map fun (content, rest) => (cs ++ content, rest)

/-- A text on one line with escapes, after its opening quote: the content and what follows it. -/
def basic (cs : List Char) : Option (List Char × List Char) :=
  match cs with
  | [] => none
  | '"' :: rest => some ([], rest)
  | '\\' :: escaped =>
    match _hEscape : escape? escaped with
    | some (c, rest) => prepend [c] (basic rest)
    | none => none
  | c :: rest => if isPlain c then prepend [c] (basic rest) else none
termination_by cs.length
decreasing_by
  · have hLength := escape?_length _hEscape
    simp only [List.length_cons]
    omega
  · simp

/-- A text on one line without escapes, after its opening quote. -/
def literal : List Char → Option (List Char × List Char)
  | [] => none
  | '\'' :: rest => some ([], rest)
  | c :: rest => if isPlain c then prepend [c] (literal rest) else none

/-- The first line break after the opening quotes is no part of a text on several lines. -/
def dropFirstBreak : List Char → List Char
  | '\n' :: cs => cs
  | '\r' :: '\n' :: cs => cs
  | cs => cs

/-- The end of a text on several lines, which is three quotes. Up to two more belong to the
content. -/
def closing? (quote : Char) (cs : List Char) : Option (List Char × List Char) :=
  let quotes := (cs.takeWhile (· == quote)).length
  if quotes < 3 then none
  else
    let count := min quotes 5
    some (List.replicate (count - 3) quote, cs.drop count)

/-- Drops blanks and line breaks. -/
def dropBlanksAndBreaks : List Char → List Char
  | ' ' :: cs | '\t' :: cs | '\n' :: cs => dropBlanksAndBreaks cs
  | '\r' :: '\n' :: cs => dropBlanksAndBreaks cs
  | cs => cs

theorem dropBlanksAndBreaks_length (cs : List Char) :
    (dropBlanksAndBreaks cs).length ≤ cs.length := by
  fun_induction dropBlanksAndBreaks cs with
  | case1 _ ih | case2 _ ih | case3 _ ih | case4 _ ih =>
    simp only [List.length_cons]
    omega
  | case5 => exact Nat.le_refl _

/-- What follows a backslash at the end of a line. All blanks and breaks after it are dropped. -/
def afterLineEnd? (cs : List Char) : Option (List Char) :=
  match cs.dropWhile fun c => c == ' ' || c == '\t' with
  | '\n' :: rest => some (dropBlanksAndBreaks rest)
  | '\r' :: '\n' :: rest => some (dropBlanksAndBreaks rest)
  | _ => none

theorem afterLineEnd?_length {cs rest : List Char} (hEnd : afterLineEnd? cs = some rest) :
    rest.length < cs.length := by
  unfold afterLineEnd? at hEnd
  have hBlank := List.IsSuffix.length_le (List.dropWhile_suffix (l := cs)
    fun c => c == ' ' || c == '\t')
  split at hEnd
  · rename_i more hMore
    cases hEnd
    have hBreak := dropBlanksAndBreaks_length more
    simp only [hMore, List.length_cons] at hBlank
    omega
  · rename_i more hMore
    cases hEnd
    have hBreak := dropBlanksAndBreaks_length more
    simp only [hMore, List.length_cons] at hBlank
    omega
  · cases hEnd

/-- A text on several lines with escapes, after its opening quotes. -/
def basicLines (cs : List Char) : Option (List Char × List Char) :=
  match closing? '"' cs with
  | some closed => some closed
  | none =>
    match cs with
    | [] => none
    | '\\' :: escaped =>
      match _hEnd : afterLineEnd? escaped with
      | some rest => basicLines rest
      | none =>
        match _hEscape : escape? escaped with
        | some (c, rest) => prepend [c] (basicLines rest)
        | none => none
    | '\r' :: '\n' :: rest => prepend ['\r', '\n'] (basicLines rest)
    | c :: rest => if c == '\n' || isPlain c then prepend [c] (basicLines rest) else none
termination_by cs.length
decreasing_by
  · have hLength := afterLineEnd?_length _hEnd
    simp only [List.length_cons]
    omega
  · have hLength := escape?_length _hEscape
    simp only [List.length_cons]
    omega
  · simp only [List.length_cons]
    omega
  · simp

/-- A text on several lines without escapes, after its opening quotes. -/
def literalLines (cs : List Char) : Option (List Char × List Char) :=
  match closing? '\'' cs with
  | some closed => some closed
  | none =>
    match cs with
    | [] => none
    | '\r' :: '\n' :: rest => prepend ['\r', '\n'] (literalLines rest)
    | c :: rest => if c == '\n' || isPlain c then prepend [c] (literalLines rest) else none
termination_by cs.length
decreasing_by
  · simp only [List.length_cons]
    omega
  · simp

/-- A text in quotes, on one line. -/
def line? : List Char → Option (List Char × List Char)
  | '"' :: cs => basic cs
  | '\'' :: cs => literal cs
  | _ => none

/-- A text in quotes. -/
def read? : List Char → Option (List Char × List Char)
  | '"' :: '"' :: '"' :: cs => basicLines (dropFirstBreak cs)
  | '\'' :: '\'' :: '\'' :: cs => literalLines (dropFirstBreak cs)
  | cs => line? cs

end ErDiagram.Toml.Quotation
