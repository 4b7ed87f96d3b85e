import RemoteDebugger.Program.Scope
import RemoteDebugger.Program.Signature
import RemoteDebugger.Thread.Basic
import RemoteDebugger.Xml

/-!
# Payloads

The structured payloads of answers and notifications: threads, stacks, variables, completions,
console output and call signatures as XML.
-/

namespace RemoteDebugger.Payload

def thread (t : ThreadRef) : Xml := .empty "thread" true [("name", t.name), ("id", t.id)]

def threadList (ts : List ThreadRef) : String := Xml.document (ts.map thread)

def threadCreated (t : ThreadRef) : String := threadList [t]

/-- A frame of a stack, with its file as the controller sees it. -/
def frame (sources : Source.SourceMap) (f : Frame) : Xml :=
  .node "frame"
    [("id", toString f.id), ("name", f.function), ("file", sources.toClient f.file),
      ("line", toString f.line)] []

def suspendedThread (sources : Source.SourceMap) (p : Program) (t : ThreadRef) (reason : StopReason)
    (top : FrameRef) : String :=
  Xml.document [.node "thread" [("id", t.id), ("stop_reason", toString reason.command.code)]
    ((p.stack top).map fun r => frame sources (p.frame r))]

def variableEntry (h : Heap) (maxText : Nat) (v : String × Value) : StateM Registry Xml := do
  let resolver ← Registry.lookup v.2
  let shown ← Registry.display h v.2 maxText
  let type := v.2.type
  pure (.empty "var" true
    ([("name", v.1), ("type", type.name)] ++
      (type.qualifier.map fun q => ("qualifier", q)).toList ++ [("value", shown)] ++
      if resolver.isContainer then [("isContainer", "True")] else []))

def variableList (h : Heap) (maxText : Nat) (vars : Bindings) : StateM Registry String := do
  pure (Xml.document (← vars.mapM (variableEntry h maxText)))

def completions (cs : List Completion) : String :=
  Xml.document (cs.map fun c =>
    .empty "comp" true
      [("p0", c.name), ("p1", c.doc), ("p2", c.args), ("p3", toString c.kind)])

/-- The first characters of a text, and an ellipsis if there are more. -/
def cutText (text : String) (maxLength : Nat) : String :=
  ((Writer.bounded maxLength).putStr text).finish

/-- Text for the console, which is the first stream for output and the second for errors. -/
def consoleOutput (text : String) (stream maxLength : Nat) : String :=
  Xml.document [.empty "io" false [("s", cutText text maxLength), ("ctx", toString stream)]]

def callSignature (c : CallSignature) : String :=
  Xml.document [.node "call_signature" [("file", c.file), ("name", c.name)]
    (c.args.map fun a => .node "arg" [("name", a.1), ("type", a.2)] [])]

end RemoteDebugger.Payload
