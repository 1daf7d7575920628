import ErDiagram.Command.Move

/-! The arguments of the command. -/

namespace ErDiagram.Command

/-- What the command is asked to do: where the source is, where the drawing goes (if not to standard
output), where the settings are, and what to move after the layout. -/
structure Arguments where
  input : String
  output : Option String
  settings : Option String
  moves : List (Move Float)
  logLevel : String

/-- What the arguments ask for. -/
inductive Request where
  | draw (arguments : Arguments)
  | version
  | help

/-- The options that take a value. -/
inductive OptionName where
  | output
  | settings
  | move
  | logLevel
deriving DecidableEq

/-- The arguments read so far. -/
structure Draft where
  input : Option String
  output : Option String
  settings : Option String
  moves : List (Move Float)
  logLevel : Option String

namespace Draft

def start : Draft := ⟨none, none, none, [], none⟩

/-- Gives an option its value. Moves add up; any other option is given once, and the name of a file
is not empty. -/
def set? (d : Draft) (name : OptionName) (value : String) : Option Draft :=
  match name with
  | .output =>
    if value.isEmpty || d.output.isSome then none else some { d with output := some value }
  | .settings =>
    if value.isEmpty || d.settings.isSome then none else some { d with settings := some value }
  | .move => (Move.parse value).toOption.map fun m => { d with moves := d.moves ++ [m] }
  | .logLevel => if d.logLevel.isSome then none else some { d with logLevel := some value }

/-- Takes the name of the source file, which is given once. -/
def setInput? (d : Draft) (value : String) : Option Draft :=
  if value.isEmpty || d.input.isSome then none else some { d with input := some value }

/-- The finished arguments. Without another level, warnings are logged. -/
def finish? (d : Draft) : Option Arguments :=
  d.input.map fun input => ⟨input, d.output, d.settings, d.moves, d.logLevel.getD "warn"⟩

end Draft

/-- An argument before the mark that ends the options. -/
inductive Word where
  /-- Two hyphens: all that follows are names of files. -/
  | endOfOptions
  /-- A long option and the value attached to it. -/
  | long (name : String) (attached : Option String)
  /-- The letters behind one hyphen. -/
  | short (letters : List Char)
  | plain (value : String)

/-- Tells the kinds of words apart. One hyphen alone is a plain word. -/
def Word.ofString (word : String) : Word :=
  match word.toList with
  | ['-', '-'] => .endOfOptions
  | '-' :: '-' :: rest =>
    match Text.splitFirst '=' rest with
    | some (name, value) => .long (String.ofList name) (some (String.ofList value))
    | none => .long (String.ofList rest) none
  | ['-'] => .plain word
  | '-' :: letters => .short letters
  | _ => .plain word

def longOption? : String → Option OptionName
  | "output" => some .output
  | "config" => some .settings
  | "move" => some .move
  | "log-level" => some .logLevel
  | _ => none

def shortOption? : Char → Option OptionName
  | 'o' => some .output
  | 'c' => some .settings
  | _ => none

/-- What one word does to the draft: it may be complete, wait for the next word as the value of an
option, end the options, or answer for all arguments. -/
inductive Step where
  | next (draft : Draft)
  | valueOf (name : OptionName) (draft : Draft)
  | onlyNames (draft : Draft)
  | answer (request : Request)

/-- Reads a word with options. The value of a short option may stand right behind its letter or
behind an equals sign. -/
def step? (d : Draft) (word : String) : Option Step :=
  match Word.ofString word with
  | .endOfOptions => some (.onlyNames d)
  | .plain value => (d.setInput? value).map .next
  | .long "version" none => some (.answer .version)
  | .long "help" none => some (.answer .help)
  | .long name attached =>
    (longOption? name).bind fun name =>
      match attached with
      | some value => (d.set? name value).map .next
      | none => some (.valueOf name d)
  | .short ('V' :: _) => some (.answer .version)
  | .short ('h' :: _) => some (.answer .help)
  | .short [] => none
  | .short (letter :: rest) =>
    (shortOption? letter).bind fun name =>
      match rest with
      | [] => some (.valueOf name d)
      | '=' :: value => (d.set? name (String.ofList value)).map .next
      | value => (d.set? name (String.ofList value)).map .next

/-- Reads the words after the mark that ends the options. -/
def onlyNames? (d : Draft) (words : List String) : Option Draft :=
  words.foldlM Draft.setInput? d

/-- Reads the words one after another. The first one that does not fit refuses them all, unless one
before it has asked for the version or for help. -/
def readFrom? (d : Draft) : List String → Option Request
  | [] => d.finish?.map .draw
  | word :: words =>
    match step? d word with
    | none => none
    | some (.next d) => readFrom? d words
    | some (.onlyNames d) => ((onlyNames? d words).bind Draft.finish?).map .draw
    | some (.answer request) => some request
    | some (.valueOf name d) =>
      match words with
      | [] => none
      | value :: words =>
        match Word.ofString value with
        | .plain value => (d.set? name value).bind fun d => readFrom? d words
        | _ => none

/-- What the words on the command line ask for, unless they are refused. -/
def Request.ofWords? (words : List String) : Option Request :=
  readFrom? .start words

end ErDiagram.Command
