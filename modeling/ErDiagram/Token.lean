import ErDiagram.Text.Quoted

/-! The tokens of the schema language, and where they stand in a source. -/

namespace ErDiagram

/-- A token. A line break is one, since a declaration ends with its line; blanks and comments are
none. -/
inductive Token where
  | ident (name : String)
  | text (content : String)
  | openBrace
  | closeBrace
  | openParen
  | closeParen
  | comma
  | colon
  | question
  | dot
  | arrow
  /-- Any other mark. It means something inside a type only. -/
  | symbol (mark : Char)
  | lineBreak
deriving DecidableEq, Repr

/-- The kind of a token, as a message names it. -/
def Token.kind : Token → String
  | ident _ => "Ident"
  | text _ => "Str"
  | openBrace => "LBrace"
  | closeBrace => "RBrace"
  | openParen => "LParen"
  | closeParen => "RParen"
  | comma => "Comma"
  | colon => "Colon"
  | question => "Question"
  | dot => "Dot"
  | arrow => "Arrow"
  | symbol _ => "Symbol"
  | lineBreak => "Newline"

/-- A token as a message shows it: its kind, and its content quoted. -/
def Token.describe : Token → String
  | ident name => "Ident(" ++ Text.quoted name ++ ")"
  | text content => "Str(" ++ Text.quoted content ++ ")"
  | symbol mark => "Symbol(" ++ Text.quotedSingle mark ++ ")"
  | token => token.kind

/-- A token with the number of the line it starts on, counted from 1, and the byte offsets at which
it starts and stops. -/
structure Located where
  token : Token
  line : Nat
  start : Nat
  stop : Nat
deriving DecidableEq, Repr

/-- All tokens of a source, and the place of its end. -/
structure Scanned where
  tokens : List Located
  endLine : Nat
  endOffset : Nat
deriving DecidableEq, Repr

end ErDiagram
