import ErDiagram.Toml.Quotation

/-! The statements of TOML documents, one to a line.

Arrays and inline tables nest up to a fixed depth. Loops over their parts are bounded by the length
of the text, of which each part takes at least one character. -/

namespace ErDiagram.Toml

/-- A line of a document: the header of a table, the header of the next table of an array, or a
value under a key. Keys are paths through tables. -/
inductive Statement where
  | header (path : List String)
  | arrayHeader (path : List String)
  | pair (path : List String) (value : Value)

namespace Document

/-- How deep arrays and inline tables may nest. -/
def maxDepth : Nat := 80

/-- How many parts a key may have. -/
def maxKeyParts : Nat := 80

def isSpace (c : Char) : Bool := c == ' ' || c == '\t'

def dropSpaces (cs : List Char) : List Char := cs.dropWhile isSpace

/-- What follows a comment, if there is one and its characters are plain. -/
def afterComment? : List Char → Option (List Char)
  | '#' :: cs =>
    match cs.dropWhile Quotation.isPlain with
    | [] => some []
    | '\n' :: rest => some ('\n' :: rest)
    | '\r' :: '\n' :: rest => some ('\n' :: rest)
    | _ => none
  | cs => some cs

/-- What follows a line break. -/
def afterBreak? : List Char → Option (List Char)
  | '\n' :: cs => some cs
  | '\r' :: '\n' :: cs => some cs
  | _ => none

/-- What follows spaces, comments and line breaks, where a value may go on over several lines. -/
def afterGap? : Nat → List Char → Option (List Char)
  | 0, cs => some cs
  | fuel + 1, cs => do
    let cs ← afterComment? (dropSpaces cs)
    match afterBreak? cs with
    | some rest => afterGap? fuel rest
    | none => return cs

/-- What follows such a gap. -/
def skipGap? (cs : List Char) : Option (List Char) :=
  afterGap? (cs.length + 1) cs

/-- What follows the end of a line, or of the document. -/
def afterLine? (cs : List Char) : Option (List Char) := do
  match ← afterComment? (dropSpaces cs) with
  | [] => return []
  | cs => afterBreak? cs

def isBareKeyChar (c : Char) : Bool :=
  c.isAlphanum || c == '-' || c == '_'

/-- One part of a key: bare, or in quotes. -/
def simpleKey? (cs : List Char) : Option (String × List Char) :=
  match Quotation.line? cs with
  | some (content, rest) => some (String.ofList content, rest)
  | none =>
    let key := cs.takeWhile isBareKeyChar
    if key.isEmpty then none else some (String.ofList key, cs.dropWhile isBareKeyChar)

/-- The parts of a key between dots, at most so many. Spaces may stand around each part. -/
def keyParts? : Nat → List Char → Option (List String × List Char)
  | 0, _ => none
  | count + 1, cs => do
    let (first, cs) ← simpleKey? (dropSpaces cs)
    match dropSpaces cs with
    | '.' :: rest =>
      let (others, rest) ← keyParts? count rest
      return (first :: others, rest)
    | rest => return ([first], rest)

/-- A key, and what follows the spaces after it. -/
def key? (cs : List Char) : Option (List String × List Char) :=
  keyParts? maxKeyParts cs

/-- A reader of values. -/
abbrev ValueReader := List Char → Option (Value × List Char)

/-- A key and its value. What may stand on both sides of the equals sign is skipped by `skip?`. -/
def pair? (skip? : List Char → Option (List Char)) (value? : ValueReader) (cs : List Char) :
    Option ((List String × Value) × List Char) := do
  let (path, cs) ← key? cs
  let (value, cs) ← value? (← skip? (← Scalar.after? '=' (← skip? cs)))
  return ((path, value), cs)

/-- Parts between commas up to a closing mark, after the opening one. A comma may follow the last
part. -/
def parts? {α : Type} (closing : Char) (part? : List Char → Option (α × List Char)) :
    Nat → List Char → Option (List α × List Char)
  | 0, _ => none
  | fuel + 1, cs => do
    match ← skipGap? cs with
    | [] => none
    | c :: rest =>
      if c = closing then return ([], rest)
      let (first, cs) ← part? (c :: rest)
      match ← skipGap? cs with
      | [] => none
      | d :: rest =>
        if d = closing then return ([first], rest)
        if d ≠ ',' then none
        let (others, rest) ← parts? closing part? fuel rest
        return (first :: others, rest)

end Document

/-! ### Tables under construction -/

/-- How a table came to be: by a header of its own, on the way to the table of a longer header, or
by a key with dots. -/
inductive TableOrigin where
  | header
  | implied
  | dotted
deriving DecidableEq

/-- What stands under a key while the document is read. A value is complete; tables may get further
entries, and an array of tables further tables. -/
inductive Item where
  | value (v : Value)
  | table (origin : TableOrigin) (entries : List (String × Item))
  | tables (closed : List (List (String × Item))) (last : List (String × Item))

namespace Item

abbrev Entries := List (String × Item)

/-- Puts an item in the place of the one that the key has. -/
def replace (key : String) (item : Item) (entries : Entries) : Entries :=
  entries.map fun entry => if entry.1 == key then (key, item) else entry

/-- Adds a value under a key with dots. The tables on the way are those that such keys have made;
others may be passed through but not added to. -/
def addPair? (key : String) (v : Value) : List String → Entries → Option Entries
  | [], entries =>
    if (entries.lookup key).isSome then none else some (entries ++ [(key, value v)])
  | step :: path, entries =>
    match entries.lookup step with
    | none =>
      (addPair? key v path []).map fun inner => entries ++ [(step, table .dotted inner)]
    | some (table origin inner) =>
      if origin = .header ∨ (path = [] ∧ origin ≠ .dotted) then none
      else (addPair? key v path inner).map fun inner => replace step (table origin inner) entries
    | some (tables closed last) =>
      if path = [] then none
      else (addPair? key v path last).map fun last => replace step (tables closed last) entries
    | some (value _) => none

/-- Changes what stands under the last key of a path. Tables on the way are made if they are
missing; the last one of an array of tables stands for the array. -/
def change? (f : Option Item → Option Item) (key : String) : List String → Entries → Option Entries
  | [], entries =>
    match entries.lookup key with
    | none => (f none).map fun item => entries ++ [(key, item)]
    | some item => (f (some item)).map fun item => replace key item entries
  | step :: path, entries =>
    match entries.lookup step with
    | none => (change? f key path []).map fun inner => entries ++ [(step, table .implied inner)]
    | some (table origin inner) =>
      (change? f key path inner).map fun inner => replace step (table origin inner) entries
    | some (tables closed last) =>
      (change? f key path last).map fun last => replace step (tables closed last) entries
    | some (value _) => none

/-- A table gets its header once. Until then it may have been on the way to other ones. -/
def openTable : Option Item → Option Item
  | none => some (table .header [])
  | some (table .implied entries) => some (table .header entries)
  | some _ => none

/-- The next table of an array. -/
def openNext : Option Item → Option Item
  | none => some (tables [] [])
  | some (tables closed last) => some (tables (closed ++ [last]) [])
  | some _ => none

/-- Changes the entries of a table that has been opened. -/
def within (f : Entries → Option Entries) : Option Item → Option Item
  | some (table origin entries) => (f entries).map (table origin)
  | some (tables closed last) => (f last).map (tables closed)
  | _ => none

mutual

/-- The value of a finished item. -/
def toValue : Item → Value
  | value v => v
  | table _ entries => .table (entriesToValues entries)
  | tables closed last => .array (listToValues closed ++ [.table (entriesToValues last)])

def entriesToValues : Entries → List (String × Value)
  | [] => []
  | (key, item) :: entries => (key, item.toValue) :: entriesToValues entries

def listToValues : List Entries → List Value
  | [] => []
  | entries :: others => .table (entriesToValues entries) :: listToValues others

end

end Item

namespace Document

/-- The last part of a path and the ones before it. -/
def splitPath? (path : List String) : Option (List String × String) :=
  path.getLast?.map fun last => (path.dropLast, last)

/-- A table from its pairs. -/
def collect? (pairs : List (List String × Value)) : Option Item.Entries :=
  pairs.foldlM (fun entries (path, v) => do
    let (path, key) ← splitPath? path
    Item.addPair? key v path entries) []

/-- A value: a text in quotes, an array, an inline table or a scalar. -/
def value? : Nat → ValueReader
  | depth, '[' :: cs =>
    match depth with
    | 0 => none
    | depth + 1 => do
      let (items, rest) ← parts? ']' (value? depth) (cs.length + 1) cs
      return (.array items, rest)
  | depth, '\x7b' :: cs =>
    match depth with
    | 0 => none
    | depth + 1 => do
      let (pairs, rest) ← parts? '\x7d' (pair? skipGap? (value? depth)) (cs.length + 1) cs
      return (.table (Item.entriesToValues (← collect? pairs)), rest)
  | _, cs =>
    match Quotation.read? cs with
    | some (content, rest) => some (.text (String.ofList content), rest)
    | none =>
      let (scalar, rest) := Scalar.split cs
      (Scalar.ofChars? scalar).map (·, rest)

/-- A statement. A pair stands on one line, apart from what is inside its value. -/
def statement? (cs : List Char) : Option (Statement × List Char) :=
  match cs with
  | '[' :: '[' :: cs => do
    let (path, cs) ← key? cs
    return (.arrayHeader path, ← Scalar.after? ']' (← Scalar.after? ']' cs))
  | '[' :: cs => do
    let (path, cs) ← key? cs
    return (.header path, ← Scalar.after? ']' cs)
  | cs => do
    let ((path, v), cs) ← pair? (some ∘ dropSpaces) (value? maxDepth) cs
    return (.pair path v, cs)

/-- The statements up to the end of the document. Lines may be blank. -/
def statements? : Nat → List Char → Option (List Statement)
  | 0, _ => none
  | fuel + 1, cs =>
    match dropSpaces cs with
    | [] => some []
    | c :: rest =>
      if c = '#' || (afterBreak? (c :: rest)).isSome then
        (afterLine? (c :: rest)).bind (statements? fuel)
      else do
        let (statement, cs) ← statement? (c :: rest)
        let others ← statements? fuel (← afterLine? cs)
        return statement :: others

/-- A document under construction, and the path of the table that takes the next pairs. -/
structure Builder where
  root : Item.Entries
  current : Option (List String × String)

/-- Takes one more statement. -/
def Builder.add? (b : Builder) : Statement → Option Builder
  | .header path => do
    let (path, key) ← splitPath? path
    return ⟨← Item.change? Item.openTable key path b.root, some (path, key)⟩
  | .arrayHeader path => do
    let (path, key) ← splitPath? path
    return ⟨← Item.change? Item.openNext key path b.root, some (path, key)⟩
  | .pair path v => do
    let (path, key) ← splitPath? path
    match b.current with
    | none => return { b with root := ← Item.addPair? key v path b.root }
    | some (tablePath, tableKey) =>
      let add := Item.within (Item.addPair? key v path)
      return { b with root := ← Item.change? add tableKey tablePath b.root }

end Document

/-- The entries of the table that a document spells, or nothing if the text is no document. A byte
order mark may stand at its beginning. -/
def read? (source : String) : Option (List (String × Value)) := do
  let cs := match source.toList with
    | '\ufeff' :: cs => cs
    | cs => cs
  let statements ← Document.statements? (cs.length + 1) cs
  let built ← statements.foldlM Document.Builder.add? ⟨[], none⟩
  return Item.entriesToValues built.root

end ErDiagram.Toml
