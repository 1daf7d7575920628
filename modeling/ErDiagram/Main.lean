import ErDiagram.Command.Run

/-! The command on real files. -/

namespace ErDiagram.Command

/-- The number by which the system tells failures apart, with or without a sign. -/
def errorCode : IO.Error → UInt32
  | .noFileOrDirectory _ code _ | .inappropriateType _ code _ | .invalidArgument _ code _
  | .noSuchThing _ code _ | .resourceExhausted _ code _ => code
  | .illegalOperation code _ | .otherError code _ => code
  | _ => 0

/-- Why the file system has failed. -/
def fileError (error : IO.Error) : FileError :=
  let code := errorCode error
  match (min code (0 - code)).toNat with
  | 2 => .missing
  | 20 => .notDirectory
  | 21 => .isDirectory
  | 36 => .nameTooLong
  | _ => .other (toString error)

def readBytes (path : String) : IO (Except FileError ByteArray) := do
  match ← (IO.FS.readBinFile path).toBaseIO with
  | .ok bytes => return .ok bytes
  | .error error => return .error (fileError error)

instance : FileAccess IO where
  pathExists path := do
    match ← readBytes path with
    | .ok _ => return true
    | .error .missing | .error .notDirectory | .error .nameTooLong => return false
    | .error _ => return true
  readText path := do
    match ← readBytes path with
    | .error error => return .error error
    | .ok bytes =>
      match String.fromUTF8? bytes with
      | some text => return .ok text
      | none => return .error .notText
  writeText path text := do
    match ← (IO.FS.writeFile path text).toBaseIO with
    | .ok () => return .ok ()
    | .error error => return .error (fileError error)

end ErDiagram.Command

open ErDiagram.Command in
def main (words : List String) : IO UInt32 := do
  let outcome ← execute words
  IO.print outcome.output
  IO.eprint outcome.errors
  return outcome.exitCode
