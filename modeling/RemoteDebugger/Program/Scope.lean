import RemoteDebugger.Program.Runtime
import RemoteDebugger.Value.Resolver

/-!
# Addressing of variables

A variable is addressed by a scope and a path. The first step of the path names a local or a global,
or is an expression; each further step is resolved by the resolver of the value reached so far.
-/

namespace RemoteDebugger

/-- The root of a variable path. -/
inductive Scope where
  | frame
  | globals
  | expression
  deriving DecidableEq, Repr

namespace Scope

def text : Scope → String
  | frame => "FRAME"
  | globals => "GLOBAL"
  | expression => "EXPRESSION"

def parse (s : String) : Except Error Scope :=
  match s with
  | "FRAME" => .ok frame
  | "GLOBAL" => .ok globals
  | "EXPRESSION" => .ok expression
  | _ => .error (.invalidPayload "scope" s)

end Scope

/-- A look at the program: it may fail and add containers to the heap, and it consults the registry,
whose decisions outlast a failure. -/
abbrev Inspect := StateT Heap (ExceptT Error (StateM Registry))

def stepInto (v : Value) (child : String) : Inspect Value := do
  let resolver ← (Registry.lookup v : StateM Registry Resolver)
  if resolver.isContainer then resolver.resolve (← get) v child
  else throw (.notAContainer v.typeText)

def resolvePath (root : Value) (path : List String) : Inspect Value := path.foldlM stepInto root

/-- A frame in which variables are looked up, with the program it belongs to and the host that
evaluates there. -/
structure View where
  program : Program
  runtime : Runtime
  frame : FrameRef

namespace View

def here (w : View) : Frame := w.program.frame w.frame

def evaluateBy (w : View) (evaluator : Evaluator) (text : String) : Inspect Value := do
  let (v, h) ← evaluator { w.program with heap := ← get } w.frame text
  set h
  pure v

def evaluate (w : View) (text : String) : Inspect Value := w.evaluateBy w.runtime.evaluate text

/-- The variable of a name among others. -/
def named (vars : Bindings) (name : String) : Inspect Value :=
  match vars.find? name with
  | some v => pure v
  | none => throw (.nameNotFound name)

def root (w : View) (scope : Scope) (name : String) : Inspect Value :=
  match scope with
  | .frame => named w.here.locals name
  | .globals => named w.here.globals name
  | .expression => w.evaluate name

/-- The value at a path in a scope. The empty path is the scope itself, which is no value. -/
def resolve (w : View) (scope : Scope) : List String → Inspect (Option Value)
  | [] => pure none
  | first :: rest => do
    let v ← w.root scope first
    some <$> resolvePath v rest

/-- The children of the value at a path, or the variables of the scope for the empty path. -/
def children (w : View) (scope : Scope) (path : List String) : Inspect Bindings := do
  match ← w.resolve scope path with
  | some v => do
    let resolver ← (Registry.lookup v : StateM Registry Resolver)
    resolver.children (← get) v
  | none =>
    match scope with
    | .globals => pure w.here.globals
    | _ => pure w.here.locals

end View

end RemoteDebugger
