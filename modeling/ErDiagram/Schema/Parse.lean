import ErDiagram.Schema
import ErDiagram.Schema.SyntaxError

/-! Reading tables from a source.

Each reader takes the tokens that are left and gives back those after what it has read. Where a
token does not fit, the fault names it and what was expected in its place; no reader looks further
ahead than the token it stands at. -/

namespace ErDiagram.Parse

/-- What a reader gives: a value, or the fault that ends the reading. -/
abbrev Read := Except SyntaxFault

/-- The fault at the next token, or at the end of the source. -/
def unexpected (endLine : Nat) (expected : Expectation) : List Located → SyntaxFault
  | [] => ⟨endLine, .unexpected none expected⟩
  | t :: _ => ⟨t.line, .unexpected (some t.token) expected⟩

/-- A name. -/
def ident (endLine : Nat) (expected : Expectation) : List Located → Read (String × List Located)
  | ⟨.ident name, _, _, _⟩ :: rest => .ok (name, rest)
  | ts => .error (unexpected endLine expected ts)

/-- One given token. -/
def mark (endLine : Nat) (token : Token) (expected : Expectation) :
    List Located → Read (Unit × List Located)
  | [] => .error (unexpected endLine expected [])
  | t :: rest =>
    if t.token = token then .ok ((), rest) else .error (unexpected endLine expected (t :: rest))

/-- The flags after the first one, each behind a comma. -/
def moreFlags (endLine : Nat) : List Located → Read (List String × List Located)
  | ⟨.comma, _, _, _⟩ :: ⟨.ident flag, _, _, _⟩ :: rest =>
    match moreFlags endLine rest with
    | .error fault => .error fault
    | .ok (flags, rest) => .ok (flag :: flags, rest)
  | ⟨.comma, _, _, _⟩ :: rest => .error (unexpected endLine .flagName rest)
  | ts => .ok ([], ts)

/-- Flags, after the opening parenthesis. -/
def flagList (endLine : Nat) (ts : List Located) : Read (List String × List Located) := do
  let (first, ts) ← ident endLine .flagName ts
  let (others, ts) ← moreFlags endLine ts
  let ((), ts) ← mark endLine .closeParen .closeParen ts
  return (first :: others, ts)

/-- Flags in parentheses, or none. -/
def flags (endLine : Nat) : List Located → Read (List String × List Located)
  | ⟨.openParen, _, _, _⟩ :: rest => flagList endLine rest
  | ts => .ok ([], ts)

/-- Whether a question mark comes next, and the tokens after it. -/
def questionMark : List Located → Bool × List Located
  | ⟨.question, _, _, _⟩ :: rest => (true, rest)
  | ts => (false, ts)

/-- The tokens that a type may consist of. -/
def isTypeToken (t : Located) : Bool :=
  match t.token with
  | .lineBreak | .closeBrace | .text _ => false
  | _ => true

/-- A type: the text of the source from the start of its first token to the end of its last one. It
is taken as it stands, blanks between the tokens included. -/
def typeText (source : List Char) (endLine : Nat) (ts : List Located) :
    Read (String × List Located) :=
  match ts.takeWhile isTypeToken with
  | [] => .error (unexpected endLine .typeName ts)
  | first :: more =>
    let last := (first :: more).getLast (List.cons_ne_nil _ _)
    let text := Text.trimChars (Text.slice first.start last.stop source)
    .ok (String.ofList text, ts.dropWhile isTypeToken)

/-- One key and its value, without the blanks around each. -/
def note (line : Nat) (segment : List Char) : Read Note :=
  match Text.splitFirst '=' segment with
  | some (key, value) =>
    .ok ⟨String.ofList (Text.trimChars key), String.ofList (Text.trimChars value)⟩
  | none =>
    .error ⟨line, .noteWithoutEquals (String.ofList (Text.trimChars segment))⟩

/-- The notes that a text on the given line spells: keys and values between commas. A blank
text spells none. -/
def notesOf (line : Nat) (content : List Char) : Read (List Note) :=
  if Text.trimChars content = [] then .ok []
  else (Text.splitOn ',' content).mapM (note line)

/-- Notes in quotes, or none. -/
def notes : List Located → Read (List Note × List Located)
  | ⟨.text content, line, _, _⟩ :: rest => do
    let read ← notesOf line content.toList
    return (read, rest)
  | ts => .ok ([], ts)

/-- The target of an attribute: a type after a colon, or a table and its attribute after an arrow.
An attribute with flags has a type. -/
def target (source : List Char) (endLine : Nat) (hasFlags : Bool) (ts : List Located) :
    Read (Target × List Located) :=
  match ts with
  | ⟨.colon, _, _, _⟩ :: rest => do
    let (text, rest) ← typeText source endLine rest
    return (.typed text, rest)
  | ⟨.arrow, _, _, _⟩ :: rest =>
    if hasFlags then .error (unexpected endLine .colonAfterFlags ts)
    else do
      let (table, rest) ← ident endLine .referencedTable rest
      let ((), rest) ← mark endLine .dot .dot rest
      let (attr, rest) ← ident endLine .referencedAttribute rest
      return (.reference table attr, rest)
  | _ => .error (unexpected endLine .colonOrArrow ts)

/-- An attribute. The question mark of an optional one stands before its flags or after them. -/
def attributeDecl (source : List Char) (endLine : Nat) (ts : List Located) :
    Read (Attribute × List Located) := do
  let (name, ts) ← ident endLine .attributeName ts
  let (early, ts) := questionMark ts
  let (flags, ts) ← flags endLine ts
  let (late, ts) := if early then (false, ts) else questionMark ts
  let (target, ts) ← target source endLine (!flags.isEmpty) ts
  let (notes, ts) ← notes ts
  return (⟨name, early || late, flags, notes, target⟩, ts)

/-! ### What is left is shorter -/

theorem ident_length {endLine : Nat} {expected : Expectation} {ts : List Located}
    {r : String × List Located} (hRead : ident endLine expected ts = .ok r) :
    r.2.length < ts.length := by
  unfold ident at hRead
  split at hRead <;> cases hRead
  simp

theorem mark_length {endLine : Nat} {token : Token} {expected : Expectation} {ts : List Located}
    {r : Unit × List Located} (hRead : mark endLine token expected ts = .ok r) :
    r.2.length < ts.length := by
  unfold mark at hRead
  split at hRead
  · cases hRead
  · split at hRead <;> cases hRead
    simp

theorem moreFlags_length {endLine : Nat} {ts : List Located} {r : List String × List Located}
    (hRead : moreFlags endLine ts = .ok r) : r.2.length ≤ ts.length := by
  fun_induction moreFlags endLine ts generalizing r with
  | case1 _ _ _ flag _ _ _ rest fault hMore ih => cases hRead
  | case2 _ _ _ flag _ _ _ rest flags rest' hMore ih =>
    cases hRead
    have hRest := ih hMore
    simp only [List.length_cons] at hRest ⊢
    omega
  | case3 => cases hRead
  | case4 => cases hRead; exact Nat.le_refl _

theorem flags_length {endLine : Nat} {ts : List Located} {r : List String × List Located}
    (hRead : flags endLine ts = .ok r) : r.2.length ≤ ts.length := by
  unfold flags at hRead
  split at hRead
  · rename_i rest
    unfold flagList at hRead
    simp only [bind, Except.bind, pure, Except.pure] at hRead
    split at hRead
    · cases hRead
    · rename_i first hFirst
      split at hRead
      · cases hRead
      · rename_i others hOthers
        split at hRead
        · cases hRead
        · rename_i closed hClosed
          cases hRead
          have h1 := ident_length hFirst
          have h2 := moreFlags_length hOthers
          have h3 := mark_length hClosed
          simp only [List.length_cons]
          omega
  · cases hRead; exact Nat.le_refl _

theorem questionMark_length (ts : List Located) : (questionMark ts).2.length ≤ ts.length := by
  unfold questionMark
  split <;> simp

theorem typeText_length {source : List Char} {endLine : Nat} {ts : List Located}
    {r : String × List Located} (hRead : typeText source endLine ts = .ok r) :
    r.2.length ≤ ts.length := by
  unfold typeText at hRead
  split at hRead
  · cases hRead
  · cases hRead
    exact List.IsSuffix.length_le (List.dropWhile_suffix _)

theorem notes_length {ts : List Located} {r : List Note × List Located}
    (hRead : notes ts = .ok r) : r.2.length ≤ ts.length := by
  unfold notes at hRead
  split at hRead
  · simp only [bind, Except.bind, pure, Except.pure] at hRead
    split at hRead
    · cases hRead
    · cases hRead
      simp
  · cases hRead; exact Nat.le_refl _

theorem target_length {source : List Char} {endLine : Nat} {hasFlags : Bool} {ts : List Located}
    {r : Target × List Located} (hRead : target source endLine hasFlags ts = .ok r) :
    r.2.length < ts.length := by
  unfold target at hRead
  simp only [bind, Except.bind, pure, Except.pure] at hRead
  split at hRead
  · split at hRead
    · cases hRead
    · rename_i text hText
      cases hRead
      have := typeText_length hText
      simp only [List.length_cons]
      omega
  · split at hRead
    · cases hRead
    · split at hRead
      · cases hRead
      · rename_i table hTable
        split at hRead
        · cases hRead
        · rename_i dot hDot
          split at hRead
          · cases hRead
          · rename_i name hName
            cases hRead
            have h1 := ident_length hTable
            have h2 := mark_length hDot
            have h3 := ident_length hName
            simp only [List.length_cons]
            omega
  · cases hRead

/-- An attribute takes at least one token. -/
theorem attributeDecl_length {source : List Char} {endLine : Nat} {ts : List Located}
    {r : Attribute × List Located} (hRead : attributeDecl source endLine ts = .ok r) :
    r.2.length < ts.length := by
  unfold attributeDecl at hRead
  simp only [bind, Except.bind, pure, Except.pure] at hRead
  split at hRead
  · cases hRead
  · rename_i name hName
    split at hRead
    · cases hRead
    · rename_i flags hFlags
      have h1 := ident_length hName
      have h2 := questionMark_length name.2
      have h3 := flags_length hFlags
      have h4 := questionMark_length flags.2
      split at hRead
      · cases hRead
      · rename_i target hTarget
        have h5 := target_length hTarget
        split at hRead
        · cases hRead
        · rename_i notes hNotes
          have h6 := notes_length hNotes
          cases hRead
          split at h5 <;> (dsimp only at *; omega)

/-! ### Blocks and tables -/

/-- The attributes of a table up to the closing brace. `seen` has the names that stand before them.
An attribute ends with its line or at the closing brace. -/
def block (source : List Char) (endLine : Nat) (table : String) (tableLine : Nat)
    (seen : List String) (ts : List Located) : Read (List Attribute × List Located) :=
  match ts with
  | [] => .error ⟨tableLine, .unclosedTable table⟩
  | t :: rest =>
    match t.token with
    | .lineBreak => block source endLine table tableLine seen rest
    | .closeBrace => .ok ([], rest)
    | _ =>
      match _hRead : attributeDecl source endLine (t :: rest) with
      | .error fault => .error fault
      | .ok (a, after) =>
        if a.name ∈ seen then .error ⟨t.line, .duplicateAttribute table a.name⟩
        else
          match after with
          | [] => .error ⟨tableLine, .unclosedTable table⟩
          | u :: more =>
            if u.token = .lineBreak ∨ u.token = .closeBrace then
              match block source endLine table tableLine (a.name :: seen) (u :: more) with
              | .error fault => .error fault
              | .ok (others, rest) => .ok (a :: others, rest)
            else .error (unexpected endLine .endOfLine (u :: more))
termination_by ts.length
decreasing_by
  · simp
  · exact attributeDecl_length _hRead

/-- What is left after a block is shorter. -/
theorem block_length {source : List Char} {endLine : Nat} {table : String} {tableLine : Nat}
    {seen : List String} {ts : List Located} {r : List Attribute × List Located}
    (hRead : block source endLine table tableLine seen ts = .ok r) : r.2.length < ts.length := by
  fun_induction block source endLine table tableLine seen ts generalizing r with
  | case1 => cases hRead
  | case2 seen t rest hToken ih =>
    have hRest := ih hRead
    simp only [List.length_cons]
    omega
  | case3 => cases hRead; simp
  | case4 => cases hRead
  | case5 => cases hRead
  | case6 => cases hRead
  | case7 => cases hRead
  | case8 seen t rest a hSeen u more hDecl hEnd others rest' hBlock _ _ _ ih =>
    cases hRead
    have hRest := ih hBlock
    exact Nat.lt_trans hRest (attributeDecl_length hDecl)
  | case9 => cases hRead

/-- A table, after its keyword on the given line. -/
def table (source : List Char) (endLine line : Nat) (ts : List Located) :
    Read (Table × List Located) := do
  let (name, ts) ← ident endLine .tableName ts
  let ((), ts) ← mark endLine .openBrace .openBrace ts
  let (attributes, ts) ← block source endLine name line [] ts
  return (⟨name, attributes⟩, ts)

/-- What is left after a table is shorter. -/
theorem table_length {source : List Char} {endLine line : Nat} {ts : List Located}
    {r : Table × List Located} (hRead : table source endLine line ts = .ok r) :
    r.2.length < ts.length := by
  unfold table at hRead
  simp only [bind, Except.bind, pure, Except.pure] at hRead
  split at hRead
  · cases hRead
  · rename_i name hName
    split at hRead
    · cases hRead
    · rename_i brace hBrace
      split at hRead
      · cases hRead
      · rename_i attributes hBlock
        cases hRead
        have h1 := ident_length hName
        have h2 := mark_length hBrace
        have h3 := block_length hBlock
        dsimp only
        omega

/-- The tables up to the end of the source. `seen` has the names that stand before them. A table
may begin on the line on which another one ends. -/
def tables (source : List Char) (endLine : Nat) (seen : List String) (ts : List Located) :
    Read (List Table) :=
  match ts with
  | [] => .ok []
  | t :: rest =>
    if t.token = .lineBreak then tables source endLine seen rest
    else if t.token = .ident "table" then
      match _hRead : table source endLine t.line rest with
      | .error fault => .error fault
      | .ok (read, after) =>
        if read.name ∈ seen then .error ⟨t.line, .duplicateTable read.name⟩
        else
          match tables source endLine (read.name :: seen) after with
          | .error fault => .error fault
          | .ok others => .ok (read :: others)
    else .error (unexpected endLine .tableKeyword ts)
termination_by ts.length
decreasing_by
  · simp
  · exact Nat.lt_succ_of_lt (table_length _hRead)

end ErDiagram.Parse

namespace ErDiagram

/-- The tables that a source declares, in the order of their declaration, or the first fault of the
source with the line it is found on. -/
def parse (source : String) : Except SyntaxError (List Table) :=
  match tokenize source with
  | .error error => .error (SyntaxFault.quote source ⟨error.line, .scan error.cause⟩)
  | .ok scanned =>
    match Parse.tables source.toList scanned.endLine [] scanned.tokens with
    | .error fault => .error (fault.quote source)
    | .ok tables => .ok tables

end ErDiagram
