/-!
# Paths and locations

Paths of source files as the engine compares them: with slashes only. A location is a line of such a
path.
-/

namespace RemoteDebugger.Source

/-- Characters with slashes in the place of backslashes. -/
def slashed (cs : List Char) : List Char := cs.map fun c => if c == '\\' then '/' else c

/-- A path with slashes in the place of backslashes. -/
def normalize (path : String) : String := String.ofList (slashed path.toList)

def fileName (path : String) : String :=
  String.ofList (path.toList.reverse.takeWhile (· != '/')).reverse

structure Location where
  file : String
  line : Nat
  deriving DecidableEq, Repr

/-- The location of a line, with the path normalized. -/
def Location.ofPath (path : String) (line : Nat) : Location := ⟨normalize path, line⟩

def Location.text (l : Location) : String := s!"{l.file}:{l.line}"

@[simp] theorem slashed_slashed (cs : List Char) : slashed (slashed cs) = slashed cs := by
  simp only [slashed, List.map_map]
  apply List.map_congr_left
  intro c _
  by_cases h : c = '\\' <;> simp [h]

@[simp] theorem normalize_normalize (path : String) :
    normalize (normalize path) = normalize path := by
  simp [normalize, slashed_slashed]

end RemoteDebugger.Source
