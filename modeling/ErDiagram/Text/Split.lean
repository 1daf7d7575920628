/-! Cutting a text at a separating character. -/

namespace ErDiagram.Text

/-- The parts between the separators, empty ones included; a text without a separator is one
part. -/
def splitOn (separator : Char) : List Char → List (List Char)
  | [] => [[]]
  | c :: cs =>
    if c = separator then [] :: splitOn separator cs
    else match splitOn separator cs with
      | [] => [[c]]
      | part :: later => (c :: part) :: later

/-- There is always a part. -/
theorem splitOn_ne_nil (separator : Char) (cs : List Char) : splitOn separator cs ≠ [] := by
  cases cs with
  | nil => simp [splitOn]
  | cons c cs =>
    simp only [splitOn]
    split
    · simp
    · split <;> simp

/-- What stands before and after the first separator. -/
def splitFirst (separator : Char) : List Char → Option (List Char × List Char)
  | [] => none
  | c :: cs =>
    if c = separator then some ([], cs)
    else (splitFirst separator cs).map fun (before, after) => (c :: before, after)

/-- The first separator stands between the two parts, and the part before it has none. -/
theorem splitFirst_eq_some_iff {separator : Char} {cs before after : List Char} :
    splitFirst separator cs = some (before, after) ↔
      cs = before ++ separator :: after ∧ separator ∉ before := by
  induction cs generalizing before with
  | nil => simp [splitFirst]
  | cons c cs ih =>
    by_cases hc : c = separator
    · subst hc
      cases before with
      | nil => simp [splitFirst]
      | cons b bs => simp [splitFirst]; grind
    · cases before with
      | nil => simp [splitFirst, hc]
      | cons b bs => simp [splitFirst, hc]; grind

/-- There is nothing to split exactly when the separator does not occur. -/
theorem splitFirst_eq_none_iff {separator : Char} {cs : List Char} :
    splitFirst separator cs = none ↔ separator ∉ cs := by
  induction cs with
  | nil => simp [splitFirst]
  | cons c cs ih =>
    by_cases hc : c = separator
    · simp [splitFirst, hc]
    · simp [splitFirst, hc, ih, Ne.symm hc]

end ErDiagram.Text
