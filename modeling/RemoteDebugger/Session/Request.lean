import RemoteDebugger.Session.Event

/-!
# Requests

What the controller asks for. Requests are carried out step by step, and a step may fail: the
failure is answered with an error under the number of the request, and nothing takes back what the
steps before it have changed. Requests about a stopped program are not carried out here but wait for
the thread they are addressed to.
-/

namespace RemoteDebugger

structure Fields where
  values : List String

namespace Fields

def ofPayload (payload : String) : Fields := ⟨Wire.splitFields payload⟩

def required (f : Fields) (i : Nat) (what : String) : Except Error String :=
  match f.values[i]? with
  | some field => .ok field
  | none => .error (.invalidPayload what "missing field")

/-- A field that may be absent, empty or `None`. -/
def optional (f : Fields) (i : Nat) : Option String :=
  (f.values[i]?).filter fun field => field != "" && field != "None"

/-- A number of 32 bits, perhaps with blanks around it. -/
def number (f : Fields) (i : Nat) (what : String) : Except Error Nat := do
  let field ← f.required i what
  match Text.unsigned? Text.maxUInt32 (Text.trim field.toList) with
  | some n => pure n
  | none => throw (.invalidPayload what field)

/-- A flag that is set. -/
def flag (f : Fields) (i : Nat) : Bool := ["true", "True", "1"].contains (f.values[i]?.getD "")

/-- The steps of an attribute path in one field, separated by tabs. -/
def splitPath (field : String) : List String :=
  ((field.toList.splitOn '\t').filter fun step => !step.isEmpty).map String.ofList

/-- An attribute path in all fields from one on. -/
def pathFrom (f : Fields) (i : Nat) : List String := (f.values.drop i).flatMap splitPath

def path (f : Fields) (i : Nat) : Except Error (List String) :=
  (f.required i "attribute path").map splitPath

def frame (f : Fields) (i : Nat) : Except Error FrameSelector := do
  FrameSelector.parse (← f.required i "frame id")

def scope (f : Fields) (i : Nat) : Except Error Scope := do
  Scope.parse (← f.required i "scope")

end Fields

/-- Steps that a request takes. What they change before one of them fails stays changed. -/
abbrev Handling := ExceptT Error (StateM Session)

namespace Session

def version : String := "1.1"

def allThreads : String := "*"

/-- Switch the exclusion of files on or off. What is memoized may depend on it. -/
def setDontTrace (s : Session) (enabled : Bool) : Session :=
  { s with
    filter := { s.filter with enabled := enabled }
    breakpoints := s.breakpoints.invalidate }

end Session

namespace Handling

open Session (allThreads version)

def requestedThread (f : Fields) : Handling Thread := do
  let id ← f.required 0 "thread id"
  match (← get).thread? id with
  | some t => pure t
  | none => throw (.threadNotFound id)

def post (target : Target) (a : Action) : Handling Unit := do
  let s ← get
  let queue ← s.queue.post ⟨target, a⟩
  set { s with queue := queue }

/-- Post a command for the thread named by the first field. -/
def postTo (f : Fields) (a : Except Error Action) : Handling Unit := do
  let t ← requestedThread f
  post (.thread t.id) (← a)

def suspendThreads (f : Fields) : Handling Unit := do
  let id ← f.required 0 "thread id"
  let ask := fun t : Thread => { t with suspendRequested := true }
  if id = allThreads then modify fun s => { s with threads := s.threads.map ask }
  else
    let t ← requestedThread f
    modify fun s => s.putThread (ask t)

/-- Let threads go on: one thread, or all that have stopped. -/
def runThreads (f : Fields) : Handling Unit := do
  let id ← f.required 0 "thread id"
  let go := Action.resume .running
  if id = allThreads then
    forM ((← get).threads.filter Thread.isSuspended) fun t => post (.thread t.id) go
  else postTo f (.ok go)

/-- End the session; a single thread cannot be ended. -/
def killThreads (f : Fields) : Handling Unit := do
  if (← f.required 0 "thread id") = allThreads then modify Session.finish
  else throw (.unsupported "kill a single thread")

def changeBreakpoints (change : BreakpointRegistry → BreakpointRegistry) : Handling Unit :=
  modify fun s => { s with breakpoints := change s.breakpoints }

def setBreak (f : Fields) : Handling Unit := do
  let kind ← BreakpointKind.parse (← f.required 1 "breakpoint kind")
  let file ← f.required 2 "file"
  match kind with
  | .line =>
    let file := (← get).sources.toServer file
    let id ← f.number 0 "breakpoint id"
    let line ← f.number 3 "line"
    changeBreakpoints (·.add
      { id := id
        location := Source.Location.ofPath file line
        condition := f.optional 4
        expression := f.optional 5
        function := f.optional 6 })
  | .exception => changeBreakpoints (·.addException ⟨file, true, true⟩)

def removeBreak (f : Fields) : Handling Unit := do
  let kind ← BreakpointKind.parse (← f.required 1 "breakpoint kind")
  let file ← f.required 2 "file"
  match kind with
  | .line =>
    let id ← f.number 0 "breakpoint id"
    let file := Source.normalize ((← get).sources.toServer file)
    changeBreakpoints fun r => (r.remove id file).1
  | .exception => changeBreakpoints fun r => (r.removeException file).1

/-- Set all types of exceptions to stop on, under two flags for all of them. -/
def setExceptions (f : Fields) : Handling Unit := do
  let names := (f.values.drop 2).filter (· != "")
  changeBreakpoints (·.setExceptions
    (names.map fun name => ExceptionFilter.mk name (f.flag 0) (f.flag 1)))

/-- Never stop on exceptions raised at a line that will be caught. -/
def ignoreExceptions (f : Fields) : Handling Unit := do
  let file := (← get).sources.toServer (← f.required 0 "file")
  let line ← f.number 1 "line"
  changeBreakpoints (·.ignoreExceptionsAt (Source.Location.ofPath file line))

def respond (command : Wire.Command) (seq : Int) (payload : String) : Handling Unit :=
  modify fun s => s.respond command seq payload

def sendFile (seq : Int) (f : Fields) : Handling Unit := do
  let s ← get
  let content ← s.sourceText (s.sources.toServer (← f.required 0 "file"))
  respond .getFileContents seq content

def dispatch (command : Wire.Command) (seq : Int) (payload : String) : Handling Unit :=
  let f := Fields.ofPayload payload
  match command with
  | .version => respond .version seq version
  | .run => modify Session.markReady
  | .listThreads => do
    respond .result seq (Payload.threadList ((← get).threads.map Thread.ref))
  | .threadSuspend => suspendThreads f
  | .threadRun => runThreads f
  | .threadKill => killThreads f
  | .stepInto => postTo f (.ok (.resume .stepInto))
  | .stepOver => postTo f (.ok (.resume .stepOver))
  | .stepReturn => postTo f (.ok (.resume .stepReturn))
  | .runToLine => postTo f do pure (.resume (.runToLine (← f.number 1 "line") (f.optional 2)))
  | .setNextStatement => postTo f do pure (.setNextStatement seq (← f.number 1 "line"))
  | .getVariable => postTo f do
    pure (.getVariable seq (← f.frame 1) (← f.scope 2) (f.pathFrom 3))
  | .getFrame => postTo f do pure (.getFrame seq (← f.frame 1))
  | .evaluateExpression => postTo f do
    pure (.evaluate seq (← f.frame 1) (← f.required 2 "expression") (f.flag 3) .evaluateExpression)
  | .execExpression => postTo f do
    pure (.evaluate seq (← f.frame 1) (← f.required 2 "expression") true .execExpression)
  | .changeVariable => postTo f do
    pure (.changeVariable seq (← f.frame 1) (← f.path 2) (← f.required 3 "expression"))
  | .getCompletions => postTo f do
    pure (.completions seq (← f.frame 1) (← f.required 2 "token"))
  | .runCustomOperation => postTo f do
    pure (.customOperation seq (← f.frame 1) (← f.scope 2) (← f.path 3) (← f.required 4 "style")
      (← f.required 5 "code") (← f.required 6 "function name"))
  | .sendExceptionTrace => postTo f (.ok (.exceptionTrace seq))
  | .setBreak => setBreak f
  | .removeBreak => removeBreak f
  | .setExceptionBreak => setExceptions f
  | .ignoreThrownExceptionAt => ignoreExceptions f
  | .enableDontTrace => modify fun s => s.setDontTrace (f.flag 0)
  | .reloadCode => do post .any (.reloadCode seq (← f.required 0 "module"))
  | .getFileContents => sendFile seq f
  | .threadCreate | .writeToConsole | .getBreakpointException | .stepCaughtException
  | .sendExceptionTraceProceeded | .signatureCallTrace | .result | .error =>
    throw (.unexpectedCommand command.name)

end Handling

namespace Session

/-- The controller sends a request. Requests have odd numbers; a failure is answered. -/
def request (s : Session) (code : Nat) (seq : Int) (payload : String) : Session :=
  if seq % 2 = 0 then s.respondError seq (.evenSequence seq)
  else match Wire.Command.ofCode? code with
    | none => s.respondError seq (.unknownCommand code)
    | some command =>
      match (Handling.dispatch command seq payload).run.run s with
      | (.ok _, s) => s
      | (.error e, s) => s.respondError seq e

end Session

end RemoteDebugger
