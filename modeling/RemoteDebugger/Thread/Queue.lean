import RemoteDebugger.Program.Scope
import RemoteDebugger.Thread.Basic

/-!
# Command queue

Requests that only a thread of the program can carry out wait in one queue for all threads. A
command is addressed to a thread or to any thread; a thread takes the commands it may take in the
order in which they were posted. The number of waiting commands is kept beside the queue, since
every event asks for it.
-/

namespace RemoteDebugger

/-- What a thread is asked to do. `seq` is the number of the request that waits for an answer. -/
inductive Action where
  | resume (state : ControlState)
  | setNextStatement (seq : Int) (line : Nat)
  | getVariable (seq : Int) (frame : FrameSelector) (scope : Scope) (path : List String)
  | getFrame (seq : Int) (frame : FrameSelector)
  /-- `response` is the command of the request, which is repeated in the answer. -/
  | evaluate (seq : Int) (frame : FrameSelector) (expression : String) (exec : Bool)
    (response : Wire.Command)
  | changeVariable (seq : Int) (frame : FrameSelector) (path : List String) (expression : String)
  | completions (seq : Int) (frame : FrameSelector) (token : String)
  | customOperation (seq : Int) (frame : FrameSelector) (scope : Scope) (path : List String)
    (style code function : String)
  | exceptionTrace (seq : Int)
  | reloadCode (seq : Int) (module_ : String)
  deriving DecidableEq, Repr

/-- Who carries out a command: one thread, or the first one that comes. -/
inductive Target where
  | thread (id : String)
  | any
  deriving DecidableEq, Repr

structure QueuedCommand where
  target : Target
  action : Action
  deriving DecidableEq, Repr

/-- The thread may take the command. -/
def QueuedCommand.isFor (c : QueuedCommand) (id : String) : Bool :=
  match c.target with
  | .thread t => t == id
  | .any => true

/-- What a thread finds when it waits for a command. -/
inductive Polled where
  | command (c : QueuedCommand)
  | terminated
  /-- There is nothing for the thread yet. -/
  | nothing
  deriving DecidableEq, Repr

/-- Commands that wait for their threads. The counter tells without a look at them whether there are
any. -/
structure CommandQueue where
  commands : List QueuedCommand := []
  pending : Nat := 0
  terminated : Bool := false
  deriving DecidableEq, Repr

namespace CommandQueue

def post (q : CommandQueue) (c : QueuedCommand) : Except Error CommandQueue :=
  if q.terminated then .error .sessionTerminated
  else .ok { q with commands := q.commands ++ [c], pending := q.pending + 1 }

def hasPending (q : CommandQueue) : Bool := q.pending > 0

/-- The first command that a thread may take, with the queue that is left. Commands for other
threads are passed over. -/
def takeOne (q : CommandQueue) (id : String) : Option (QueuedCommand × CommandQueue) :=
  (q.commands.find? (·.isFor id)).map fun c =>
    (c, { q with commands := q.commands.eraseP (·.isFor id), pending := q.pending - 1 })

def takeFor (q : CommandQueue) (id : String) : List QueuedCommand × CommandQueue :=
  if q.hasPending then
    let (mine, others) := q.commands.partition (·.isFor id)
    (mine, { q with commands := others, pending := q.pending - mine.length })
  else ([], q)

/-- One look of a thread that waits for a command. It waits until it finds one or the queue is
closed. -/
def waitFor (q : CommandQueue) (id : String) : Polled × CommandQueue :=
  if q.terminated then (.terminated, q)
  else
    match q.takeOne id with
    | some (c, q) => (.command c, q)
    | none => (.nothing, q)

def discardFor (q : CommandQueue) (id : String) : CommandQueue :=
  let kept := q.commands.filter fun c => c.target != .thread id
  { q with commands := kept, pending := q.pending - (q.commands.length - kept.length) }

/-- Drop all commands and accept no more. There is no way back. -/
def terminate (q : CommandQueue) : CommandQueue :=
  { commands := [], pending := q.pending - q.commands.length, terminated := true }

end CommandQueue

end RemoteDebugger
