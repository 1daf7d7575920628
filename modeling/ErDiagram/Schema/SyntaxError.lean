import ErDiagram.Token.Scan

/-! Why a source declares no tables. -/

namespace ErDiagram

/-- What could have stood in the place of an unexpected token. -/
inductive Expectation where
  | tableKeyword
  | tableName
  | openBrace
  | attributeName
  | flagName
  | closeParen
  | colonOrArrow
  | colonAfterFlags
  | typeName
  | referencedTable
  | dot
  | referencedAttribute
  | endOfLine
deriving DecidableEq, Repr

/-- The wording of an expectation. -/
def Expectation.describe : Expectation → String
  | tableKeyword => "`table`"
  | tableName => "table name"
  | openBrace => "`\x7b`"
  | attributeName => "attribute name"
  | flagName => "flag name"
  | closeParen => "`)`"
  | colonOrArrow => "`:` or `->`"
  | colonAfterFlags => "`:` after flags"
  | typeName => "type name"
  | referencedTable => "referenced table"
  | dot => "`.`"
  | referencedAttribute => "referenced attribute"
  | endOfLine => "end of line"

/-- What is wrong with a source. The end of the source is found where there is no token. -/
inductive SyntaxCause where
  | scan (cause : ScanCause)
  | unexpected (found : Option Token) (expected : Expectation)
  | unclosedTable (table : String)
  | noteWithoutEquals (segment : String)
  | duplicateTable (table : String)
  | duplicateAttribute (table attr : String)
deriving DecidableEq, Repr

/-- The wording of a cause. -/
def SyntaxCause.message : SyntaxCause → String
  | scan cause => cause.message
  | unexpected found expected =>
    "unexpected " ++ (found.map Token.describe).getD "Eof" ++ ", expected " ++ expected.describe
  | unclosedTable table => "table `" ++ table ++ "` is never closed"
  | noteWithoutEquals segment => "annotation segment `" ++ segment ++ "` has no `=`"
  | duplicateTable table => "table `" ++ table ++ "` is declared twice"
  | duplicateAttribute table attr =>
    "attribute `" ++ attr ++ "` is declared twice in table `" ++ table ++ "`"

/-- A cause and the line it is found on. -/
structure SyntaxFault where
  line : Nat
  cause : SyntaxCause
deriving DecidableEq, Repr

/-- A fault together with the line of the source it is found on, without blanks at its ends. -/
structure SyntaxError extends SyntaxFault where
  content : String
deriving DecidableEq, Repr

/-- The error message, which names the line, the cause and the line's text. -/
def SyntaxError.message (e : SyntaxError) : String :=
  "syntax error on line " ++ toString e.line ++ ": " ++ e.cause.message ++
    " (`" ++ e.content ++ "`)"

/-- Adds the line's text to a fault. -/
def SyntaxFault.quote (source : String) (fault : SyntaxFault) : SyntaxError :=
  { fault with content := String.ofList (Text.trimmedLine fault.line source.toList) }

end ErDiagram
