import ErDiagram.Canvas
import ErDiagram.Decimal.Literal
import ErDiagram.Text.Blank
import ErDiagram.Text.Split

/-! Moves as they are given on the command line: `TABLE=DX,DY`. -/

namespace ErDiagram

/-- Why a text is no move. -/
inductive MoveError where
  | missingEquals (text : String)
  | missingComma (offset : String)
  | missingTable (text : String)
  | badOffset (offset : String)
deriving DecidableEq, Repr

/-- The wording of an error. -/
def MoveError.message : MoveError → String
  | missingEquals text => "expected TABLE=DX,DY, got `" ++ text ++ "`"
  | missingComma offset => "expected DX,DY after `=`, got `" ++ offset ++ "`"
  | missingTable text => "missing table name in `" ++ text ++ "`"
  | badOffset offset =>
    "invalid offset `" ++ offset ++ "`: " ++
      if Text.trimChars offset.toList = [] then "cannot parse float from empty string"
      else "invalid float literal"

namespace Move

/-- How far to move along one axis. Blanks around the number do not count. -/
def offset (cs : List Char) : Except MoveError Float :=
  match Decimal.parse? (Text.trimChars cs) with
  | some x => .ok x
  | none => .error (.badOffset (String.ofList cs))

/-- Reads a move. The name ends at the first equals sign, and the first number at the first comma
after it. -/
def parse (text : String) : Except MoveError (Move Float) :=
  match Text.splitFirst '=' text.toList with
  | none => .error (.missingEquals text)
  | some (table, rest) =>
    match Text.splitFirst ',' rest with
    | none => .error (.missingComma (String.ofList rest))
    | some (dx, dy) =>
      let table := Text.trimChars table
      if table = [] then .error (.missingTable text)
      else do return ⟨String.ofList table, ← offset dx, ← offset dy⟩

end Move

end ErDiagram
