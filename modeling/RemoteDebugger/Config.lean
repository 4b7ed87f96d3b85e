import RemoteDebugger.Source.Map

/-!
# Configuration

The settings of a session. Every setting has a default.
-/

namespace RemoteDebugger

/-- Why a file is excluded from tracing: it belongs to a library, and is traced only inside a
project root, or it belongs to the debugger itself, and is never traced. -/
inductive FileKind where
  | library
  | engine
  deriving DecidableEq, Repr

def FileKind.text : FileKind → String
  | library => "library"
  | engine => "engine"

def FileKind.ofString? (s : String) : Option FileKind :=
  match s with
  | "library" => some library
  | "engine" => some engine
  | _ => none

structure Config where
  /-- Most characters of the text of a variable. -/
  maxVariableText : Nat := 1000
  /-- Most characters of a console message. -/
  maxConsoleText : Nat := 1000
  /-- Pause between two messages, in milliseconds. -/
  writerDelay : Nat := 0
  dontTraceEnabled : Bool := true
  /-- Base names of files that are excluded from tracing. -/
  dontTrace : List (String × FileKind) := []
  projectRoots : List String := []
  /-- Patterns of files that stepping passes through. -/
  stepFilters : List String := []
  recordCallSignatures : Bool := false
  suspendOnBreakpointError : Bool := true
  pathMappings : List Source.Mapping := []
  /-- File to which all messages are logged. -/
  wireTraceFile : Option String := none
  logFilter : Option String := none
  deriving DecidableEq, Repr

end RemoteDebugger
