import ErDiagram.Command.Arguments
import ErDiagram.Command.Files
import ErDiagram.Decimal.Text
import ErDiagram.Settings.OfToml

/-! What the command does. -/

namespace ErDiagram.Command

/-- Why there is no drawing. -/
inductive RunError where
  | missingSettings (path : String)
  | unreadableSettings (error : FileError)
  | invalidSettings
  | file (error : FileError)
  | invalidSource (error : SyntaxError)
  | unknownTable (table : String)

/-- The wording of an error. -/
def RunError.message : RunError → String
  | missingSettings path => "configuration file not found: " ++ path
  | unreadableSettings error => "failed to read configuration: " ++ error.message
  | invalidSettings => "invalid configuration"
  | file error => "I/O error: " ++ error.message
  | invalidSource error => error.message
  | unknownTable table => "unknown table `" ++ table ++ "`"

/-- The drawing of a source with all moves made in order. -/
def draw (settings : Settings Float) (source : String) (moves : List (Move Float)) :
    Except RunError String :=
  match Canvas.load settings source with
  | .error error => .error (.invalidSource error)
  | .ok canvas =>
    match canvas.applyMoves moves with
    | (_, some table) => .error (.unknownTable table)
    | (moved, none) => .ok moved.render

section

variable {m : Type → Type} [Monad m] [FileAccess m]

/-- The settings in a file, or the standard ones without a file. -/
def loadSettings : Option String → m (Except RunError (Settings Float))
  | none => return .ok .standard
  | some path => do
    if !(← FileAccess.pathExists path) then return .error (.missingSettings path)
    match ← FileAccess.readText path with
    | .error error => return .error (.unreadableSettings error)
    | .ok text =>
      match Settings.ofToml? text with
      | some settings => return .ok settings
      | none => return .error .invalidSettings

/-- Reads the settings and the source, draws, and writes the drawing to the output file if there is
one. Otherwise the drawing is the result. Nothing is written unless everything before has gone
well. -/
def run (a : Arguments) : m (Except RunError (Option String)) := do
  match ← loadSettings a.settings with
  | .error error => return .error error
  | .ok settings =>
    match ← FileAccess.readText a.input with
    | .error error => return .error (.file error)
    | .ok source =>
      match draw settings source a.moves with
      | .error error => return .error error
      | .ok drawing =>
        match a.output with
        | none => return .ok (some drawing)
        | some path =>
          match ← FileAccess.writeText path drawing with
          | .error error => return .error (.file error)
          | .ok () => return .ok none

/-- How the command ends: its exit code, and what it has written to the two output streams. -/
structure Outcome where
  exitCode : UInt32
  output : String
  errors : String

/-- The name of the command. -/
def programName : String := "erdlink"

/-- A short reminder of how the command is used. -/
def usage : String :=
  "Usage: " ++ programName ++ " [OPTIONS] <INPUT>\n"

/-- The name and the number of this version. -/
def version : String := programName ++ " 0.1.0\n"

/-- The levels of logging, from none to all. -/
def logLevels : List String := ["off", "error", "warn", "info", "debug", "trace"]

/-- What is said about a level that does not exist. Levels are known in any mix of cases. -/
def logLevelWarning (level : String) : String :=
  if level.toLower ∈ logLevels then ""
  else "Invalid log level: " ++ level ++ ". Using 'warn' instead.\n"

/-- The whole command, given the words on its command line. -/
def execute (words : List String) : m Outcome := do
  match Request.ofWords? words with
  | none => return ⟨2, "", usage⟩
  | some .help => return ⟨0, usage, ""⟩
  | some .version => return ⟨0, version, ""⟩
  | some (.draw a) =>
    let warning := logLevelWarning a.logLevel
    match ← run a with
    | .ok drawing => return ⟨0, drawing.getD "", warning⟩
    | .error error => return ⟨1, "", warning ++ error.message ++ "\n"⟩

end

end ErDiagram.Command
