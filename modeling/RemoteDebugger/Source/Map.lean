import RemoteDebugger.Source.Path

/-!
# Source maps

Controller and program may see the same sources under different directories, perhaps on systems with
different separators. A map is a list of pairs of directories. A path is moved by the pair with the
longest directory that contains it, earlier pairs first among equals; the rest of the path is
appended in the separator style of the directory it is moved to.
-/

namespace RemoteDebugger.Source

/-- A directory as the controller and as the program see it. -/
structure Mapping where
  client : String
  server : String
  deriving DecidableEq, Repr

/-- A rule for moving paths: a normalized directory with its final slash, and what replaces it. -/
structure Rule where
  source : List Char
  target : String
  deriving DecidableEq, Repr

/-- A directory, normalized and with a final slash. -/
def directory (path : String) : List Char :=
  let cs := slashed path.toList
  if cs.getLast? = some '/' then cs else cs ++ ['/']

namespace Rule

def between (source target : String) : Rule := ⟨directory source, target⟩

def size (r : Rule) : Nat := (String.ofList r.source).utf8ByteSize

/-- Rules with longer sources first; rules of one length keep their order. -/
def longestFirst (rules : List Rule) : List Rule := rules.mergeSort fun a b => b.size ≤ a.size

/-- The path that remains below a directory, in the directory's own style: with backslashes if it
has any. -/
def join (target : String) (rest : List Char) : String :=
  if rest.isEmpty then target
  else
    let cs := target.toList
    let backslashes := cs.contains '\\'
    let separated :=
      if cs.getLast? = some '/' ∨ cs.getLast? = some '\\' then cs
      else cs ++ [if backslashes then '\\' else '/']
    let rest := if backslashes then rest.map fun c => if c == '/' then '\\' else c else rest
    String.ofList (separated ++ rest)

/-- Move a path by the first rule whose directory contains it. -/
def apply (rules : List Rule) (path : String) : String :=
  let cs := slashed path.toList
  match rules.find? fun r => r.source.isPrefixOf cs with
  | some r => join r.target (cs.drop r.source.length)
  | none => path

end Rule

/-- The rules for moving paths in both directions. -/
structure SourceMap where
  toClientRules : List Rule
  toServerRules : List Rule
  deriving Repr

namespace SourceMap

/-- The map of a list of directory pairs. -/
def ofMappings (ms : List Mapping) : SourceMap where
  toClientRules := Rule.longestFirst (ms.map fun m => Rule.between m.server m.client)
  toServerRules := Rule.longestFirst (ms.map fun m => Rule.between m.client m.server)

/-- No path is moved. -/
def isEmpty (m : SourceMap) : Bool := m.toClientRules.isEmpty

/-- A path of the program as the controller sees it. -/
def toClient (m : SourceMap) (path : String) : String := Rule.apply m.toClientRules path

/-- A path of the controller as the program sees it, with slashes only. -/
def toServer (m : SourceMap) (path : String) : String :=
  normalize (Rule.apply m.toServerRules path)

end SourceMap

end RemoteDebugger.Source
