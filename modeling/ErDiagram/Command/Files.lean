import ErDiagram.NameMap
import ErDiagram.Text.Split

/-! Files as the command needs them, and a directory in memory. -/

namespace ErDiagram.Command

/-- Why a file cannot be read or written. -/
inductive FileError where
  | missing
  | isDirectory
  /-- A part of the path that has to be a directory is a file. -/
  | notDirectory
  /-- The path or one of its parts is longer than a name may be. -/
  | nameTooLong
  /-- The path holds a null character, which no name has. -/
  | nullInPath
  /-- The content is not text in UTF-8. -/
  | notText
  | other (message : String)
deriving DecidableEq, Repr

/-- The wording of an error. -/
def FileError.message : FileError → String
  | missing => "No such file or directory (os error 2)"
  | isDirectory => "Is a directory (os error 21)"
  | notDirectory => "Not a directory (os error 20)"
  | nameTooLong => "File name too long (os error 36)"
  | nullInPath => "file name contained an unexpected NUL byte"
  | notText => "stream did not contain valid UTF-8"
  | other message => message

/-- Access to the files of a directory. Writing stores the whole text or nothing. -/
class FileAccess (m : Type → Type) where
  pathExists : String → m Bool
  readText : String → m (Except FileError String)
  writeText : String → String → m (Except FileError Unit)

/-- A directory in memory: the bytes of its files under their paths. Every directory on the way to a
file is there; no other one is. What lies above the directory has directories only. -/
structure FileTree where
  files : NameMap ByteArray

/-- What a path leads to. -/
inductive Place where
  | directory
  /-- A file, with the path under which it is kept. -/
  | file (path : String)
  /-- Nothing yet, in a directory that is there. -/
  | vacant (path : String)
deriving DecidableEq, Repr

namespace FileTree

/-- The bytes that a part of a path may take. -/
def maxPartBytes : Nat := 255

/-- The bytes that a path may take. -/
def maxPathBytes : Nat := 4095

/-- The parts of a path between slashes. An empty part stays where it is, as a single dot does. -/
def parts (path : String) : List String :=
  (Text.splitOn '/' path.toList).map String.ofList

/-- The path of nested directories, the outermost first. -/
def key (names : List String) : String :=
  "/".intercalate names

/-- Whether there is a directory with files under this path. -/
def hasDirectory (t : FileTree) (names : List String) : Bool :=
  t.files.keys.any fun name => (key names ++ "/").toList.isPrefixOf name.toList

/-- The directory above another one. `none` is any directory above the tree. -/
def above : Option (List String) → Option (List String)
  | some (name :: names) => some (name :: names).dropLast
  | _ => none

/-- Follows the parts of a path from a directory. Each part but the last one leads to a
directory. -/
def follow (t : FileTree) (start : Option (List String)) : List String → Except FileError Place
  | [] => .ok .directory
  | part :: later =>
    if part = "" ∨ part = "." then t.follow start later
    else if part = ".." then t.follow (above start) later
    else if maxPartBytes < part.utf8ByteSize then .error .nameTooLong
    else
      match start with
      | none => .error .missing
      | some names =>
        let path := names ++ [part]
        if t.hasDirectory path then t.follow (some path) later
        else if (t.files.get? (key path)).isSome then
          if later = [] then .ok (.file (key path)) else .error .notDirectory
        else if later = [] then .ok (.vacant (key path))
        else .error .missing

/-- Follows the parts of a whole path. One that begins with a slash begins above the tree. -/
def place (t : FileTree) (path : String) (steps : List String) : Except FileError Place :=
  if '\x00' ∈ path.toList then .error .nullInPath
  else if maxPathBytes < path.utf8ByteSize then .error .nameTooLong
  else if path = "" then .error .missing
  else t.follow (if path.toList.head? = some '/' then none else some []) steps

/-- The bytes of a file. -/
def read (t : FileTree) (path : String) : Except FileError ByteArray := do
  match ← t.place path (parts path) with
  | .directory => throw .isDirectory
  | .vacant _ => throw .missing
  | .file name =>
    match t.files.get? name with
    | some bytes => return bytes
    | none => throw .missing

/-- The text of a file. -/
def readText (t : FileTree) (path : String) : Except FileError String := do
  match String.fromUTF8? (← t.read path) with
  | some text => return text
  | none => throw .notText

/-- The parts of a path to write to. A name before slashes at the end is not looked up: it can only
be that of a directory, so what counts is whether it has a directory to be in. -/
def partsToWrite (path : String) : List String :=
  match (parts path).reverse with
  | "" :: later =>
    match later.dropWhile (· == "") with
    | [] | "." :: _ | ".." :: _ => parts path
    | _ :: before => before.reverse ++ [""]
  | _ => parts path

/-- The directory after a text has been written to a file. -/
def writeText (t : FileTree) (path text : String) : Except FileError FileTree := do
  match ← t.place path (partsToWrite path) with
  | .directory => throw .isDirectory
  | .vacant name | .file name => return ⟨t.files.insert name text.toUTF8⟩

/-- Whether a path leads to a file or a directory. -/
def pathExists (t : FileTree) (path : String) : Bool :=
  match t.place path (parts path) with
  | .ok .directory | .ok (.file _) => true
  | .ok (.vacant _) | .error _ => false

/-- A directory of the given files. -/
def ofFiles (files : List (String × ByteArray)) : FileTree :=
  ⟨.ofList (files.map fun (path, bytes) =>
    (key ((parts path).filter fun part => part != "" && part != "."), bytes))⟩

/-- A directory in memory changes with each file that is written. -/
instance : FileAccess (StateM FileTree) where
  pathExists path := do return (← get).pathExists path
  readText path := do return (← get).readText path
  writeText path text := do
    match (← get).writeText path text with
    | .ok tree => set tree; return .ok ()
    | .error error => return .error error

end FileTree

end ErDiagram.Command
