import RemoteDebugger.Log.Level
import RemoteDebugger.Text.Blank

/-!
# Log directives

A threshold for each part of a program, written as a list of directives. A record is judged by the
directive with the longest name that its target begins with; a directive without a name is for all
targets that no other directive is for.
-/

namespace RemoteDebugger.Log

/-- The threshold of the targets that begin with a name. -/
structure Directive where
  name : Option String
  threshold : Threshold
  deriving DecidableEq, Repr

namespace Directive

def appliesTo (d : Directive) (target : String) : Bool :=
  d.name.all fun n => n.toList.isPrefixOf target.toList

def size (d : Directive) : Nat := (d.name.getD "").utf8ByteSize

/-- Read one directive: a name, a threshold, or both with an equals sign in between. A name alone
lets everything pass. Blanks after the sign do not count. -/
def ofString? (s : List Char) : Option Directive :=
  let everything := Threshold.upTo .trace
  match s.splitOn '=' with
  | [name] =>
    match Threshold.ofString? (String.ofList name) with
    | some t => some ⟨none, t⟩
    | none => some ⟨some (String.ofList name), everything⟩
  | [name, threshold] =>
    let threshold := Text.trim threshold
    if threshold.isEmpty then some ⟨some (String.ofList name), everything⟩
    else (Threshold.ofString? (String.ofList threshold)).map fun t => ⟨some (String.ofList name), t⟩
  | _ => none

/-- Add a directive in the place of the one with its name. The others keep their order. -/
def put (d : Directive) : List Directive → List Directive
  | [] => [d]
  | e :: rest => if e.name = d.name then d :: rest else e :: put d rest

/-- The directives of a list separated by commas; items that are none are left out. A pattern for
the texts of records may follow after a slash, but a text with two slashes has no directives at
all. -/
def listOf (spec : String) : List Directive :=
  match spec.toList.splitOn '/' with
  | [] => []
  | directives :: rest =>
    if rest.length > 1 then []
    else
      let items := (directives.splitOn ',').map Text.trim
      let read := (items.filter fun item => !item.isEmpty).filterMap ofString?
      read.foldl (fun ds d => put d ds) []

end Directive

/-- Directives with the shortest names first; among equals the order of writing is kept. -/
structure Directives where
  sorted : List Directive
  deriving DecidableEq, Repr

namespace Directives

/-- The directives of a text, or a single one for errors alone if it has none. -/
def ofSpec (spec : Option String) : Directives :=
  match (spec.map Directive.listOf).getD [] with
  | [] => ⟨[⟨none, .upTo .error⟩]⟩
  | ds => ⟨ds.mergeSort fun a b => a.size ≤ b.size⟩

def admits (ds : Directives) (level : Level) (target : String) : Bool :=
  match ds.sorted.reverse.find? fun d => d.appliesTo target with
  | some d => d.threshold.admits level
  | none => false

/-- The threshold that lets pass whatever may pass at some target. -/
def threshold (ds : Directives) : Threshold :=
  ds.sorted.foldl (fun t d => t.max d.threshold) .off

end Directives

end RemoteDebugger.Log
