import RemoteDebugger.Breakpoint.Registry
import RemoteDebugger.Session.Payload
import RemoteDebugger.Source.Files
import RemoteDebugger.Thread.Queue
import RemoteDebugger.Wire.Field
import RemoteDebugger.Wire.Outbox

/-!
# Sessions

The state of a debugger session: breakpoints, threads, waiting commands and everything sent so far,
together with the debugged program. All steps of a session are ordinary functions of this state. A
thread that has stopped inside an event is data: its suspension tells where, and a later step lets
it go on.
-/

namespace RemoteDebugger

/-- Whether the host may start the program. It waits while this is not decided. -/
inductive Lifecycle where
  | initial
  | running
  | finished
  deriving DecidableEq, Repr

namespace Lifecycle

/-- The controller lets the program start. A session that has finished stays finished. -/
def ready (l : Lifecycle) : Lifecycle := if l = finished then l else running

/-- The answer to a host that waits for the program to be started; there is none before it may. -/
def mayRun? : Lifecycle → Option Bool
  | initial => none
  | running => some true
  | finished => some false

end Lifecycle

/-- What a session is built from: its settings and the services of its host. -/
structure Setup where
  config : Config := {}
  runtime : Runtime := Runtime.builtin
  resolvers : Registry := Registry.builtin
  sourceText : String → Except Error String := Source.FileTree.unknown.reader

structure Session where
  config : Config
  runtime : Runtime
  sourceText : String → Except Error String
  sources : Source.SourceMap
  /-- Roots of the files whose calls are recorded, if calls are recorded. -/
  recordedRoots : Option (List String)
  resolvers : Registry
  filter : Source.FileFilter
  breakpoints : BreakpointRegistry := {}
  /-- The threads of the program in the order in which they appeared. -/
  threads : List Thread := []
  /-- Threads that the host has reported as gone while they were stopped inside an event. -/
  departed : List Thread := []
  queue : CommandQueue := {}
  outbox : Wire.Outbox := {}
  lifecycle : Lifecycle := .initial
  finished : Bool := false
  program : Program := {}

namespace Session

def start (setup : Setup) (program : Program) : Session where
  config := setup.config
  runtime := setup.runtime
  sourceText := setup.sourceText
  sources := Source.SourceMap.ofMappings setup.config.pathMappings
  recordedRoots :=
    if setup.config.recordCallSignatures then
      some (setup.config.projectRoots.map Source.normalize)
    else none
  resolvers := setup.resolvers
  filter := Source.FileFilter.ofConfig setup.config
  program := program

def notify (s : Session) (command : Wire.Command) (payload : String) : Session :=
  { s with outbox := s.outbox.notify command payload }

def respond (s : Session) (command : Wire.Command) (seq : Int) (payload : String) : Session :=
  { s with outbox := s.outbox.respond command seq payload }

def respondError (s : Session) (seq : Int) (e : Error) : Session := s.respond .error seq e.message

def writeToConsole (s : Session) (text : String) (stream : Nat) : Session :=
  if s.finished then s
  else s.notify .writeToConsole (Payload.consoleOutput text stream s.config.maxConsoleText)

def thread? (s : Session) (id : String) : Option Thread := s.threads.find? fun t => t.id == id

/-- Put a thread in the place of the one with its identifier. -/
def putThread (s : Session) (t : Thread) : Session :=
  { s with threads := s.threads.map fun u => if u.id = t.id then t else u }

/-- The thread of an identifier; a new one is announced. Whether the session goes on is asked by
those who call this. -/
def introduce (s : Session) (ref : ThreadRef) : Session × Thread :=
  match s.thread? ref.id with
  | some t => (s, t)
  | none =>
    let t : Thread := { ref := ref }
    (({ s with threads := s.threads ++ [t] }).notify .threadCreate (Payload.threadCreated ref), t)

def threadStarted (s : Session) (ref : ThreadRef) : Session :=
  if s.finished then s else (s.introduce ref).1

/-- The host reports the end of a thread. One that is stopped inside an event stays there. -/
def threadExited (s : Session) (id : String) : Session :=
  if s.finished then s
  else
    let s := { s with queue := s.queue.discardFor id }
    match s.thread? id with
    | none => s
    | some t =>
      let s := { s with
        threads := s.threads.filter fun u => u.id != id
        departed := if t.suspension.isSome then s.departed ++ [t] else s.departed }
      s.notify .threadKill id

def markReady (s : Session) : Session := { s with lifecycle := s.lifecycle.ready }

/-- The answer to a host that waits for the program to be started. -/
def mayRun? (s : Session) : Option Bool := s.lifecycle.mayRun?

/-- End the session: nothing waits any more, all threads go on, and the connection is closed. -/
def finish (s : Session) : Session :=
  if s.finished then s
  else { s with
    finished := true
    queue := s.queue.terminate
    lifecycle := .finished
    threads := s.threads.map fun t => t.resume .running 0
    outbox := s.outbox.close }

end Session

end RemoteDebugger
