import RemoteDebugger.Session.Basic

/-!
# Commands on a thread

What a thread does with a command it has taken from the queue. Commands that let it go on work only
on a thread that is stopped; queries are answered in either case, and only an assignment and a jump
change the program.
-/

namespace RemoteDebugger

/-- What a stopped thread does after a command. Only a resume lets it out of its event. -/
inductive Flow where
  | stay
  | resume (state : ControlState)
  /-- Stay, but report a new stop. -/
  | resuspend (reason : StopReason)
  deriving DecidableEq, Repr

/-- Replace a child of a container that can be changed. Names of entries are rendered here without a
lock. The engine holds the lock of the dictionary meanwhile, so that it does not come back from a
dictionary with a key that holds the dictionary itself; this definition has an outcome there. -/
def Heap.assignChild (h : Heap) (parent : Value) (child : String) (value : Value) :
    Except Error Heap :=
  let missing : Error := .attributeNotFound parent.typeText child
  match parent with
  | .object _ r =>
    .ok { h with objects := h.objects.set r (Bindings.insert child value (h.objects.get r)) }
  | .list r =>
    let items := h.lists.get r
    match (Text.unsigned? Text.maxUInt64 child.toList).filter (· < items.length) with
    | some i => .ok { h with lists := h.lists.set r (items.set i value) }
    | none => .error missing
  | .dict r =>
    let entries := h.dicts.get r
    match entries.findIdx? fun e => Resolver.keyName h e.1 = child with
    | some i => .ok { h with dicts := h.dicts.set r (entries.modify i fun e => (e.1, value)) }
    | none => .error missing
  | _ => .error (.unsupported "assignment into immutable value")

namespace View

/-- Assign the value of an expression to a variable or to a child of one. Returns the value and the
program with the assignment. -/
def change (w : View) (path : List String) (expression : String) : Inspect (Value × Program) := do
  match path.getLast? with
  | none => throw (.invalidPayload "variable path" "")
  | some name =>
    let value ← w.evaluate expression
    match path.dropLast with
    | [] => pure (value, ← { w.program with heap := ← get }.setLocal w.frame name value)
    | parentPath =>
      match ← w.resolve .frame parentPath with
      | none => throw (.invalidPayload "variable path" (".".intercalate parentPath))
      | some parent =>
        set (← (← get).assignChild parent name value)
        pure (value, { w.program with heap := ← get })

end View

namespace Session

/-- Run a look at the program. What it has added to the heap is not kept. -/
def inspect {α : Type} (s : Session) (look : Inspect α) : Session × Except Error α :=
  let (result, resolvers) := (look.run s.program.heap).run.run s.resolvers
  ({ s with resolvers := resolvers }, result.map Prod.fst)

/-- The variables payload of what a look has found. -/
def showVariables (s : Session) (vars : Bindings) : Inspect String := do
  let h ← get
  (Payload.variableList h s.config.maxVariableText vars : StateM Registry String)

def view (s : Session) (top : FrameRef) (selector : FrameSelector) : Except Error View :=
  (selector.find s.program top).map fun r => ⟨s.program, s.runtime, r⟩

/-- Answer a request with what is found in a selected frame. -/
def answer (s : Session) (command : Wire.Command) (seq : Int) (top : FrameRef)
    (selector : FrameSelector) (look : View → Inspect String) : Session :=
  let (s, result) := s.inspect do look (← s.view top selector)
  match result with
  | .ok payload => s.respond command seq payload
  | .error e => s.respondError seq e

def suspendedPayload (s : Session) (t : Thread) (reason : StopReason) (top : FrameRef) : String :=
  Payload.suspendedThread s.sources s.program t.ref reason top

def changeVariable (s : Session) (seq : Int) (top : FrameRef) (selector : FrameSelector)
    (path : List String) (expression : String) : Session :=
  let (s, result) := s.inspect do
    let (value, program) ← (← s.view top selector).change path expression
    set program.heap
    pure (program, ← s.showVariables [(path.getLast?.getD "", value)])
  match result with
  | .ok (program, payload) => ({ s with program := program }).respond .result seq payload
  | .error e => s.respondError seq e

/-- Carry out a command on a thread with the given topmost frame. -/
def execute (s : Session) (t : Thread) (top : FrameRef) (suspended : Bool) (a : Action) :
    Session × Flow :=
  match a with
  | .resume state => (s, if suspended then .resume state else .stay)
  | .setNextStatement seq line =>
    if suspended then
      match s.program.jumpToLine top line with
      | .ok program => ({ s with program := program }, .resuspend .setNextStatement)
      | .error e => (s.respondError seq e, .stay)
    else (s.respondError seq (.threadNotSuspended t.id), .stay)
  | .getVariable seq frame scope path =>
    (s.answer .getVariable seq top frame fun w => do
      s.showVariables (← w.children scope path), .stay)
  | .getFrame seq frame =>
    (s.answer .getFrame seq top frame fun w => s.showVariables w.here.locals, .stay)
  | .evaluate seq frame expression exec response =>
    (s.answer response seq top frame fun w => do
      let evaluator := if exec then w.runtime.execute else w.runtime.evaluate
      s.showVariables [(expression, ← w.evaluateBy evaluator expression)], .stay)
  | .changeVariable seq frame path expression =>
    (s.changeVariable seq top frame path expression, .stay)
  | .completions seq frame token =>
    (s.answer .getCompletions seq top frame fun w => do
      pure (Payload.completions (← w.runtime.completions w.program w.frame token)), .stay)
  | .customOperation seq frame scope path style code function =>
    (s.answer .runCustomOperation seq top frame fun w => do
      match ← w.resolve scope path with
      | some v => w.runtime.customOperation (← get) v style code function
      | none => throw (.invalidPayload "variable path" ""), .stay)
  | .exceptionTrace seq =>
    match t.exception with
    | none => (s.respondError seq (.evaluation .noException), .stay)
    | some e =>
      let reason := t.control.stopReason.getD .suspend
      (s.respond .sendExceptionTrace seq
        (Wire.joinFields [e.typeName, e.message, s.suspendedPayload t reason top]), .stay)
  | .reloadCode seq module_ =>
    match s.runtime.reloadModule module_ with
    | .ok true => (s, .stay)
    | .ok false => (s.respondError seq (.nameNotFound module_), .stay)
    | .error e => (s.respondError seq e, .stay)

def runPending (s : Session) (t : Thread) (top : FrameRef) : Session :=
  let (mine, queue) := s.queue.takeFor t.id
  mine.foldl (fun s c => (s.execute t top false c.action).1) { s with queue := queue }

end Session

end RemoteDebugger
