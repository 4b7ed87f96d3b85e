import RemoteDebugger.Config
import RemoteDebugger.Source.Glob

/-!
# File filter

Which files the engine leaves alone. Excluded files report no events at all as long as the filter is
enabled; step-filtered files are only passed through while a thread is stepping.
-/

namespace RemoteDebugger.Source

/-- The path begins with one of the roots. This compares texts and not whole names. -/
def isUnder (roots : List String) (path : String) : Bool :=
  roots.any fun root => root.toList.isPrefixOf path.toList

structure FileFilter where
  enabled : Bool
  kinds : List (String × FileKind)
  roots : List String
  stepFilters : List String
  deriving Repr

namespace FileFilter

def ofConfig (c : Config) : FileFilter where
  enabled := c.dontTraceEnabled
  kinds := c.dontTrace
  roots := c.projectRoots.map normalize
  stepFilters := c.stepFilters

/-- A normalized path is inside the project. -/
def inProject (f : FileFilter) (path : String) : Bool := isUnder f.roots path

/-- Events of a file are ignored, as long as the exclusion is switched on. -/
def isExcluded (f : FileFilter) (path : String) : Bool :=
  f.enabled && match f.kinds.lookup (fileName path) with
    | none => false
    | some .engine => true
    | some .library => !f.inProject path

/-- Stepping passes through a file without stopping. This matters to a thread on a step only. -/
def isStepFiltered (f : FileFilter) (path : String) : Bool :=
  f.stepFilters.any fun pattern => Glob.isMatch pattern.toList path.toList

end FileFilter

end RemoteDebugger.Source
