import RemoteDebugger.Error

/-!
# Source files

The files that a controller may ask for, as a tree of directories. A path is walked from the current
directory, or from the top if it begins with a slash, one component after the other; nothing is
known of the directories above the current one.
-/

namespace RemoteDebugger.Source

/-- A file with its bytes, or a directory. -/
inductive FileTree where
  | file (content : List UInt8)
  | directory (entries : List (String × FileTree))

inductive FileFault where
  | notFound
  | notADirectory
  | isADirectory
  | nameTooLong
  | nulInName
  | notText
  deriving DecidableEq, Repr

def FileFault.message : FileFault → String
  | notFound => "No such file or directory (os error 2)"
  | notADirectory => "Not a directory (os error 20)"
  | isADirectory => "Is a directory (os error 21)"
  | nameTooLong => "File name too long (os error 36)"
  | nulInName => "file name contained an unexpected NUL byte"
  | notText => "stream did not contain valid UTF-8"

/-- Longest component and, with its end mark, longest path, in bytes. -/
def maxComponentLength : Nat := 255

@[inherit_doc maxComponentLength] def maxPathLength : Nat := 4096

namespace FileTree

/-- A directory of which nothing is known. -/
def unknown : FileTree := .directory []

/-- Walk components from a place, given the directories above it, nearest first. -/
def walk : List FileTree → FileTree → List String → Except FileFault FileTree
  | _, here, [] => .ok here
  | above, here, name :: rest =>
    match here with
    | .file _ => .error .notADirectory
    | .directory entries =>
      if name = "" ∨ name = "." then walk above here rest
      else if name = ".." then walk above.tail (above.headD unknown) rest
      else if name.utf8ByteSize > maxComponentLength then .error .nameTooLong
      else match entries.lookup name with
        | some next => walk (here :: above) next rest
        | none => .error .notFound

def find (current : FileTree) (path : String) : Except FileFault FileTree :=
  if path.toList.contains '\x00' then .error .nulInName
  else if path = "" then .error .notFound
  else if path.utf8ByteSize ≥ maxPathLength then .error .nameTooLong
  else
    let components := (path.toList.splitOn '/').map String.ofList
    if path.toList.head? = some '/' then walk [] unknown components
    else walk [] current components

def readText (current : FileTree) (path : String) : Except FileFault String := do
  match ← current.find path with
  | .directory _ => throw .isADirectory
  | .file content =>
    match Text.decode? content with
    | some text => pure (String.ofList text)
    | none => throw .notText

def reader (current : FileTree) (path : String) : Except Error String :=
  (current.readText path).mapError fun f => .io f.message

end FileTree

end RemoteDebugger.Source
