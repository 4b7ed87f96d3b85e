import RemoteDebugger.Session.Command

/-!
# Events

The program reports calls, lines, returns and exceptions of its threads. Most events are of no
interest and are memoized as such; the others make a thread stop, at once for a breakpoint, an
exception or a request, or when the step it was told to make is done. A stopped thread serves
commands until one lets it go on; each of these is a step of the session of its own.
-/

namespace RemoteDebugger

inductive EventKind where
  | call
  | line
  | ret
  | exception (e : RaisedException)
  deriving DecidableEq, Repr

/-- The memo an event can be skipped by. Exceptions are never skipped. -/
def EventKind.skipScope : EventKind → Option SkipScope
  | call => some .call
  | line => some .line
  | ret => some .ret
  | exception _ => none

inductive Decision where
  /-- Nothing to do at this place, which may be memoized. -/
  | noInterest
  /-- Nothing to do now. -/
  | continue_
  /-- The thread stops in a frame. -/
  | suspend (reason : StopReason) (top : FrameRef)
  deriving DecidableEq, Repr

/-- How an event ended for the host: with the answer whether it is to go on tracing, or not yet. -/
inductive Outcome where
  | done (traced : Bool)
  | blocked
  deriving DecidableEq, Repr

namespace Session

/-- What a log point prints for a value: texts as they are, other values by their resolver. -/
def logText (s : Session) (h : Heap) (v : Value) : Session × String :=
  match v with
  | .str text => (s, text)
  | v =>
    let (result, resolvers) :=
      (Registry.render h v { length := s.config.maxVariableText }).run s.resolvers
    ({ s with resolvers := resolvers }, match result with
      | .ok text => text
      | .error _ => Registry.noText v)

def logPoint (s : Session) (frame : FrameRef) (expression : String) : Session :=
  match s.runtime.evaluate s.program frame expression with
  | .ok (v, h) =>
    let (s, text) := s.logText h v
    s.writeToConsole (text ++ "\n") 1
  | .error e => s.writeToConsole (e.message ++ "\n") 2

def conditionHolds (s : Session) (frame : FrameRef) (b : Breakpoint) : Except Error Bool :=
  match b.condition with
  | none => .ok true
  | some c => (s.runtime.evaluate s.program frame c).map fun r => r.1.isTruthy r.2

/-- Check one breakpoint. A log point prints and never stops the thread, and a condition that fails
is reported. -/
def checkBreakpoint (s : Session) (t : Thread) (frame : FrameRef) (b : Breakpoint) :
    Session × Option StopReason :=
  if b.appliesTo (s.program.frame frame).function then
    match s.conditionHolds frame b with
    | .ok false => (s, none)
    | .ok true =>
      match b.expression with
      | some expression => (s.logPoint frame expression, none)
      | none => (s, some (.breakpoint b.id))
    | .error e =>
      (s.notify .getBreakpointException
        (Wire.joinFields [t.id, b.condition.getD "", e.message]),
        if s.config.suspendOnBreakpointError then some (.breakpoint b.id) else none)
  else (s, none)

/-- Check breakpoints in order up to the first that stops the thread. -/
def checkBreakpoints (s : Session) (t : Thread) (frame : FrameRef) :
    List Breakpoint → Session × Option StopReason
  | [] => (s, none)
  | b :: rest =>
    match s.checkBreakpoint t frame b with
    | (s, some reason) => (s, some reason)
    | (s, none) => s.checkBreakpoints t frame rest

/-- Why a step ends at a line, if it does. -/
def stepEnd? (s : Session) (t : Thread) (frame : FrameRef) : Option StopReason :=
  match t.control.state with
  | .stepInto => some .stepInto
  | .stepOver =>
    if t.control.withinAnchor (s.program.depth frame) then some .stepOver else none
  | .runToLine line function =>
    let f := s.program.frame frame
    if line = f.line ∧ function.all (· == f.function) then some .runToLine else none
  | _ => none

/-- What comes of a call: a thread that will stop in the new frame, or may, keeps being traced
there. -/
def decideCall (t : Thread) (file : String) (snapshot : Snapshot) : Decision :=
  let stops := match t.control.state with
    | .stepInto | .runToLine .. => true
    | _ => t.suspendRequested
  if stops || snapshot.hasBreakpointsIn file || snapshot.hasExceptions then .continue_
  else .noInterest

/-- What comes of a line: a request to stop comes first, then the breakpoints, then the step. -/
def decideLine (s : Session) (t : Thread) (frame : FrameRef) (file : String) (snapshot : Snapshot) :
    Session × Decision :=
  if t.suspendRequested then (s, .suspend .suspend frame)
  else
    let breakpoints := snapshot.at_ file (s.program.frame frame).line
    match s.checkBreakpoints t frame breakpoints with
    | (s, some reason) => (s, .suspend reason frame)
    | (s, none) =>
      match s.stepEnd? t frame with
      | some reason => (s, .suspend reason frame)
      | none =>
        (s, if t.control.state.isStepping || !breakpoints.isEmpty then .continue_ else .noInterest)

/-- What comes of a return: a step out of the frame, or over its end, stops in the caller. -/
def decideReturn (s : Session) (t : Thread) (frame : FrameRef) : Decision :=
  let leave (reason : StopReason) : Decision :=
    if t.control.withinAnchor (s.program.depth frame) then
      match s.program.caller? frame with
      | some caller => .suspend reason caller
      | none => .continue_
    else .continue_
  match t.control.state with
  | .stepOver => leave .stepOver
  | .stepReturn => leave .stepReturn
  | .stepInto | .runToLine .. => .continue_
  | .running | .suspended => .noInterest

def decideException (s : Session) (frame : FrameRef) (file : String) (snapshot : Snapshot)
    (e : RaisedException) : Decision :=
  let location := Source.Location.ofPath file (s.program.frame frame).line
  match snapshot.exceptionStop e location with
  | some reason => .suspend reason frame
  | none => .continue_

def decide (s : Session) (t : Thread) (kind : EventKind) (frame : FrameRef) (file : String)
    (snapshot : Snapshot) : Session × Decision :=
  match kind with
  | .call => (s, decideCall t file snapshot)
  | .line => s.decideLine t frame file snapshot
  | .ret => (s, s.decideReturn t frame)
  | .exception e => (s, s.decideException frame file snapshot e)

def notifySuspended (s : Session) (t : Thread) (reason : StopReason) (top : FrameRef) : Session :=
  s.notify .threadSuspend (s.suspendedPayload t reason top)

def notifyRun (s : Session) (t : Thread) (command : Wire.Command) : Session :=
  s.notify .threadRun (Wire.joinFields [t.id, toString command.code])

/-- Stop a thread inside its event. A stop for an exception is announced with the exception
first. -/
def suspend (s : Session) (t : Thread) (reason : StopReason) (top : FrameRef)
    (exception : Option RaisedException) : Session :=
  let t := { t.stop reason with
    inEngine := true
    exception := exception.or t.exception
    suspension := some ⟨top, exception⟩ }
  let s := match exception with
    | some e =>
      s.notify .sendExceptionTrace
        (Wire.joinFields [toString (s.program.frame top).id, e.typeName, e.message,
          s.suspendedPayload t reason top])
    | none => s
  (s.putThread t).notifySuspended t reason top

/-- Memoize the place of an event, unless its kind is never memoized. -/
def memoize (s : Session) (key : Option SkipKey) (generation : Nat) : Session :=
  match key with
  | some k => { s with breakpoints := s.breakpoints.memoize k generation }
  | none => s

/-- Record the signature of a call, if calls of the file are recorded. -/
def recordCall (s : Session) (kind : EventKind) (frame : FrameRef) (file : String) : Session :=
  match kind, s.recordedRoots with
  | .call, some roots =>
    match CallSignature.record? roots (s.program.frame frame) file with
    | some c => s.notify .signatureCallTrace (Payload.callSignature c)
    | none => s
  | _, _ => s

def apply (s : Session) (t : Thread) (kind : EventKind) (key : Option SkipKey) (generation : Nat) :
    Decision → Session × Outcome
  | .noInterest =>
    (if t.control.state.isStepping then s else s.memoize key generation, .done false)
  | .continue_ => (s, .done true)
  | .suspend reason top =>
    let exception := match kind with
      | .exception e => if reason.isException then some e else none
      | _ => none
    (s.suspend t reason top exception, .blocked)

def fileOf (s : Session) (frame : FrameRef) : String :=
  Source.normalize (s.program.frame frame).file

/-- The place of an event as a memo knows it. Exceptions have none. -/
def skipKey? (s : Session) (kind : EventKind) (frame : FrameRef) : Option SkipKey :=
  kind.skipScope.map fun scope => ⟨s.fileOf frame, (s.program.frame frame).line, scope⟩

/-- The event needs no look: its place may be skipped, and nothing else is asked of its thread. -/
def isSkipped (s : Session) (skip : SkipKey → Bool) (t : Thread) (kind : EventKind)
    (frame : FrameRef) : Bool :=
  !t.control.state.isStepping && !(s.queue.hasPending || t.suspendRequested) &&
    (s.skipKey? kind frame).any skip

/-- Look at an event: pass over excluded and filtered files, carry out the commands that wait for
the thread, and decide. Before it decides, the engine tests once more whether the session has ended.
The test is left out here: no command ends a session, and nothing comes between these steps. -/
def lookAt (s : Session) (t : Thread) (kind : EventKind) (frame : FrameRef) : Session × Outcome :=
  let file := s.fileOf frame
  let key := s.skipKey? kind frame
  let stepping := t.control.state.isStepping
  let snapshot := s.breakpoints.snapshot
  if s.filter.isExcluded file then
    (if stepping then s else s.memoize key snapshot.generation, .done false)
  else if stepping && s.filter.isStepFiltered file then (s, .done false)
  else
    let s := (s.recordCall kind frame file).runPending t frame
    let (s, decision) := s.decide t kind frame file snapshot
    s.apply t kind key snapshot.generation decision

/-- A thread of the program reports an event, and the given places may be skipped. -/
def eventSkipping (s : Session) (skip : SkipKey → Bool) (who : ThreadRef) (kind : EventKind)
    (frame : FrameRef) : Session × Outcome :=
  if s.finished then (s, .done false)
  else
    let (s, t) := s.introduce who
    if t.inEngine || s.isSkipped skip t kind frame then (s, .done false)
    else s.lookAt t kind frame

/-- A thread of the program reports an event. What is memoized is skipped. -/
def event (s : Session) (who : ThreadRef) (kind : EventKind) (frame : FrameRef) :
    Session × Outcome :=
  s.eventSkipping s.breakpoints.skips.contains who kind frame

/-- Let a thread leave its event. The end of a stop for an exception is announced while the session
lasts. -/
def leaveEvent (s : Session) (t : Thread) (suspension : Suspension) : Session × Thread :=
  let t := { t with inEngine := false, suspension := none }
  match suspension.exception with
  | none => (s, t)
  | some _ =>
    (if s.finished then s else s.notify .sendExceptionTraceProceeded t.id,
      { t with exception := none })

/-- Go on as a command asks a stopped thread to. -/
def obey (s : Session) (t : Thread) (suspension : Suspension) : Flow → Session × Thread
  | .stay => (s, t)
  | .resume state =>
    let t := t.resume state (s.program.depth suspension.top)
    (s.notifyRun t state.resumeCommand).leaveEvent t suspension
  | .resuspend reason =>
    let s := s.notifyRun t reason.command
    let t := { t with control := .stopped reason }
    (s.notifySuspended t reason suspension.top, t)

/-- One step of a stopped thread: it serves the next command that waits for it, or leaves its event
if the session has ended. A thread for which there is nothing to do stays as it is. -/
def serve (s : Session) (t : Thread) : Option (Session × Thread) :=
  match t.suspension with
  | none => none
  | some suspension =>
    if s.queue.terminated then some (s.leaveEvent (t.resume .running 0) suspension)
    else
      (s.queue.takeOne t.id).map fun (c, queue) =>
        let (s, flow) := { s with queue := queue }.execute t suspension.top true c.action
        s.obey t suspension flow

/-- The first thread of a list that can make a step, with the list after the step. -/
def serveFirst (s : Session) : List Thread → Option (Session × List Thread)
  | [] => none
  | t :: rest =>
    match s.serve t with
    | some (s, t) => some (s, t :: rest)
    | none => (s.serveFirst rest).map fun r => (r.1, t :: r.2)

/-- One step of some stopped thread. A departed thread that leaves its event is gone for good. -/
def serveAny (s : Session) : Option Session :=
  match s.serveFirst s.threads with
  | some (s, threads) => some { s with threads := threads }
  | none =>
    (s.serveFirst s.departed).map fun r =>
      { r.1 with departed := r.2.filter fun t => t.suspension.isSome }

/-- At most so many steps of stopped threads, each of the first that can take one. -/
def settleUpTo : Nat → Session → Session
  | 0, s => s
  | n + 1, s =>
    match s.serveAny with
    | none => s
    | some s => settleUpTo n s

/-- Let stopped threads serve until nothing waits for them. Every step takes a command out of the
queue or lets a thread leave its event, which bounds their number. -/
def settle (s : Session) : Session :=
  settleUpTo (s.queue.commands.length + s.threads.length + s.departed.length) s

/-- A thread of this identifier is stopped inside an event. -/
def isBlocked (s : Session) (id : String) : Bool :=
  (s.threads ++ s.departed).any fun t => t.id == id && t.suspension.isSome

/-- A thread of this identifier has departed and is still stopped inside an event. -/
def isDeparted (s : Session) (id : String) : Bool := s.departed.any fun t => t.id == id

end Session

end RemoteDebugger
