import ErDiagram.Text.Alphanumeric
import ErDiagram.Text.Lines
import ErDiagram.Token

/-! Reading the tokens of a source.

A step takes the longest token that begins the text. Each function that splits a text comes with
the lemma that its parts make up the text again, so no character is lost or read twice. -/

namespace ErDiagram

/-- Why a text has no token at its beginning. -/
inductive ScanCause where
  | unexpectedCharacter (c : Char)
  | unterminatedText
deriving DecidableEq, Repr

/-- The wording of a cause. -/
def ScanCause.message : ScanCause → String
  | unexpectedCharacter c => "unexpected character " ++ Text.quotedSingle c
  | unterminatedText => "unterminated string"

/-- A cause, and the line on which the token would have started. -/
structure ScanError where
  line : Nat
  cause : ScanCause
deriving DecidableEq, Repr

namespace Token

/-- The characters of names: letters and numbers of all scripts, and the underscore. -/
def isNameChar (c : Char) : Bool :=
  Text.isAlphanumeric c || c == '_'

/-- Splits off the gap before the next token: blanks other than line feeds, and comments. A comment
runs up to the end of its line, and the line feed after it is a token. -/
def splitGap (inComment : Bool) : List Char → List Char × List Char
  | [] => ([], [])
  | c :: cs =>
    if c = '\n' then ([], c :: cs)
    else if inComment || Text.isBlank c then
      let (gap, rest) := splitGap inComment cs
      (c :: gap, rest)
    else if c = '#' then
      let (gap, rest) := splitGap true cs
      (c :: gap, rest)
    else ([], c :: cs)

theorem splitGap_append (inComment : Bool) (cs : List Char) :
    (splitGap inComment cs).1 ++ (splitGap inComment cs).2 = cs := by
  fun_induction splitGap inComment cs <;> simp_all

/-- The beginning of a text after an opening quote: the content up to the closing quote with its
escapes resolved, the spelling of it with the closing quote, and the rest of the text. -/
structure Literal where
  content : List Char
  spelling : List Char
  rest : List Char

/-- What an escaped character stands for: itself, but for three letters that name controls. -/
def unescape (c : Char) : Char :=
  match c with
  | 'n' => '\n'
  | 't' => '\t'
  | 'r' => '\r'
  | _ => c

/-- Reads up to the closing quote. A literal does not span lines; an escaped line feed is content
like any other character. -/
def splitLiteral : List Char → Option Literal
  | [] => none
  | '"' :: cs => some ⟨[], ['"'], cs⟩
  | '\n' :: _ => none
  | ['\\'] => none
  | '\\' :: c :: cs =>
    (splitLiteral cs).map fun l => ⟨unescape c :: l.content, '\\' :: c :: l.spelling, l.rest⟩
  | c :: cs => (splitLiteral cs).map fun l => ⟨c :: l.content, c :: l.spelling, l.rest⟩

theorem splitLiteral_append {cs : List Char} {l : Literal} (hSplit : splitLiteral cs = some l) :
    l.spelling ++ l.rest = cs := by
  fun_induction splitLiteral cs generalizing l with
  | case1 => simp at hSplit
  | case2 cs => simp at hSplit; subst hSplit; rfl
  | case3 => simp at hSplit
  | case4 => simp at hSplit
  | case5 c cs ih =>
    obtain ⟨m, hm, rfl⟩ := Option.map_eq_some_iff.1 hSplit
    simp [ih hm]
  | case6 c cs _ _ _ _ ih =>
    obtain ⟨m, hm, rfl⟩ := Option.map_eq_some_iff.1 hSplit
    simp [ih hm]

/-- A token at the beginning of a text, with its spelling and the rest of the text. -/
structure Lexeme where
  token : Token
  spelling : List Char
  rest : List Char

/-- The token that begins with `c` and goes on in `cs`. -/
def lexeme (c : Char) (cs : List Char) : Except ScanCause Lexeme :=
  match c with
  | '\n' => .ok ⟨lineBreak, [c], cs⟩
  | '{' => .ok ⟨openBrace, [c], cs⟩
  | '}' => .ok ⟨closeBrace, [c], cs⟩
  | '(' => .ok ⟨openParen, [c], cs⟩
  | ')' => .ok ⟨closeParen, [c], cs⟩
  | ',' => .ok ⟨comma, [c], cs⟩
  | ':' => .ok ⟨colon, [c], cs⟩
  | '?' => .ok ⟨question, [c], cs⟩
  | '.' => .ok ⟨dot, [c], cs⟩
  | '"' =>
    match splitLiteral cs with
    | some l => .ok ⟨text (String.ofList l.content), c :: l.spelling, l.rest⟩
    | none => .error .unterminatedText
  | '-' =>
    match cs with
    | '>' :: rest => .ok ⟨arrow, [c, '>'], rest⟩
    | _ => .ok ⟨symbol c, [c], cs⟩
  | _ =>
    if isNameChar c then
      let name := c :: cs.takeWhile isNameChar
      .ok ⟨ident (String.ofList name), name, cs.dropWhile isNameChar⟩
    else if Text.isControl c then .error (.unexpectedCharacter c)
    else .ok ⟨symbol c, [c], cs⟩

/-- The spelling of a lexeme and the rest make up the text. -/
theorem lexeme_append {c : Char} {cs : List Char} {l : Lexeme} (hLexeme : lexeme c cs = .ok l) :
    l.spelling ++ l.rest = c :: cs := by
  unfold lexeme at hLexeme
  split at hLexeme <;> try (cases hLexeme; rfl)
  · split at hLexeme
    · rename_i m hSplit
      cases hLexeme
      simp [splitLiteral_append hSplit]
    · cases hLexeme
  · split at hLexeme <;> (cases hLexeme; rfl)
  · split at hLexeme
    · cases hLexeme
      simp
    · split at hLexeme
      · cases hLexeme
      · cases hLexeme
        rfl

/-- A lexeme has a spelling. -/
theorem lexeme_spelling_ne_nil {c : Char} {cs : List Char} {l : Lexeme}
    (hLexeme : lexeme c cs = .ok l) : l.spelling ≠ [] := by
  unfold lexeme at hLexeme
  split at hLexeme <;> try (cases hLexeme; simp)
  · split at hLexeme <;> cases hLexeme
    simp
  · split at hLexeme <;> (cases hLexeme; simp)
  · split at hLexeme
    · cases hLexeme
      simp
    · split at hLexeme <;> cases hLexeme
      simp

/-- A lexeme takes at least one character. -/
theorem lexeme_rest_length {c : Char} {cs : List Char} {l : Lexeme}
    (hLexeme : lexeme c cs = .ok l) : l.rest.length ≤ cs.length := by
  have hLength := congrArg List.length (lexeme_append hLexeme)
  have hSpelling := List.length_pos_iff.2 (lexeme_spelling_ne_nil hLexeme)
  simp only [List.length_append, List.length_cons] at hLength
  omega

/-- Reads the tokens of a text that begins on the given line at the given byte offset. -/
def scanFrom (line offset : Nat) (cs : List Char) : Except ScanError Scanned :=
  let start := offset + Text.byteLength (splitGap false cs).1
  match _hGap : (splitGap false cs).2 with
  | [] => .ok ⟨[], line, start⟩
  | c :: more =>
    match _hLexeme : lexeme c more with
    | .error cause => .error ⟨line, cause⟩
    | .ok l =>
      let stop := start + Text.byteLength l.spelling
      let nextLine := if l.token = lineBreak then line + 1 else line
      match scanFrom nextLine stop l.rest with
      | .error error => .error error
      | .ok later => .ok { later with tokens := ⟨l.token, line, start, stop⟩ :: later.tokens }
termination_by cs.length
decreasing_by
  have hRest := lexeme_rest_length _hLexeme
  have hLength := congrArg List.length (splitGap_append false cs)
  simp only [_hGap, List.length_append, List.length_cons] at hLength
  omega

end Token

/-- All tokens of a source. -/
def tokenize (source : String) : Except ScanError Scanned :=
  Token.scanFrom 1 0 source.toList

end ErDiagram
