import RemoteDebugger.Program.Frame
import RemoteDebugger.Source.Filter

/-!
# Call signatures

The arguments of a called function with the types of their values, as observed at the call.
-/

namespace RemoteDebugger

/-- A function with the names and types of its arguments, in order of declaration. -/
structure CallSignature where
  file : String
  name : String
  args : List (String × String)
  deriving DecidableEq, Repr

namespace CallSignature

/-- The signature of a frame. The type of an argument is that of the first local of its name. -/
def ofFrame (f : Frame) (file : String) : CallSignature where
  file := file
  name := f.function
  args := f.args.map fun arg => (arg, ((f.locals.find? arg).map Value.typeText).getD "unknown")

/-- The signature of a frame of the project; without roots, every file is in the project. -/
def record? (roots : List String) (f : Frame) (file : String) : Option CallSignature :=
  if roots.isEmpty || Source.isUnder roots file then some (ofFrame f file) else none

end CallSignature

end RemoteDebugger
