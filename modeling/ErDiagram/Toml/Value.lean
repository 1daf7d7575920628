/-! Values of TOML documents. -/

namespace ErDiagram.Toml

/-- A value. Integers have no bounds here; who reads one asks for its range. -/
inductive Value where
  | text (content : String)
  | integer (n : Int)
  /-- There is no double for a number that is too large for one. -/
  | float (x : Option Float)
  | boolean (b : Bool)
  /-- A date, a time of day, or both. -/
  | moment
  | array (items : List Value)
  | table (entries : List (String × Value))

end ErDiagram.Toml
