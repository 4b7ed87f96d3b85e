import RemoteDebugger.Breakpoint.Basic
import RemoteDebugger.Program.Frame
import RemoteDebugger.Wire.Command

/-!
# Threads under control

What the engine knows of a thread of the program: how it is to go on, why it stopped, and whether it
is inside the engine. A thread that stops stays inside its event until a request lets it go on.
-/

namespace RemoteDebugger

structure ThreadRef where
  id : String
  name : String
  deriving DecidableEq, Repr

inductive ControlState where
  | running
  | stepInto
  | stepOver
  | stepReturn
  | runToLine (line : Nat) (function : Option String)
  | suspended
  deriving DecidableEq, Repr

namespace ControlState

/-- The thread is to stop again when a step is done. -/
def isStepping : ControlState → Bool
  | stepInto | stepOver | stepReturn | runToLine .. => true
  | running | suspended => false

/-- The command named as the reason when a thread goes on in this state. -/
def resumeCommand : ControlState → Wire.Command
  | stepInto => .stepInto
  | stepOver => .stepOver
  | stepReturn => .stepReturn
  | runToLine .. => .runToLine
  | running | suspended => .threadRun

end ControlState

inductive StopReason where
  | breakpoint (id : Nat)
  | stepInto
  | stepOver
  | stepReturn
  | suspend
  | runToLine
  | setNextStatement
  | caughtException
  | uncaughtException
  deriving DecidableEq, Repr

namespace StopReason

/-- The command that stands for a reason: the one that made the thread stop. -/
def command : StopReason → Wire.Command
  | breakpoint _ => .setBreak
  | stepInto => .stepInto
  | stepOver => .stepOver
  | stepReturn => .stepReturn
  | suspend => .threadSuspend
  | runToLine => .runToLine
  | setNextStatement => .setNextStatement
  | caughtException => .stepCaughtException
  | uncaughtException => .setExceptionBreak

/-- The thread stopped on an exception. -/
def isException : StopReason → Bool
  | caughtException | uncaughtException => true
  | _ => false

end StopReason

/-- The control block of a thread. A step remembers the stack depth it started from. -/
structure Control where
  state : ControlState := .running
  anchor : Option Nat := none
  stopReason : Option StopReason := none
  deriving DecidableEq, Repr

namespace Control

/-- The block of a thread that has stopped. -/
def stopped (reason : StopReason) : Control := ⟨.suspended, none, some reason⟩

/-- The block of a thread that goes on from a frame of the given depth. -/
def resumed (state : ControlState) (depth : Nat) : Control :=
  ⟨state, if state.isStepping then some depth else none, none⟩

/-- A frame of the given depth is not above the frame the step started from. -/
def withinAnchor (c : Control) (depth : Nat) : Bool := c.anchor.all fun d => depth ≤ d

end Control

/-- The event in which a thread has stopped: the topmost frame, and the exception if it stopped for
one. -/
structure Suspension where
  top : FrameRef
  exception : Option RaisedException
  deriving DecidableEq, Repr

structure Thread where
  ref : ThreadRef
  control : Control := {}
  /-- The thread runs engine code; events it reports meanwhile are ignored. -/
  inEngine : Bool := false
  /-- A controller has asked the thread to stop at its next line. -/
  suspendRequested : Bool := false
  exception : Option RaisedException := none
  suspension : Option Suspension := none
  deriving DecidableEq, Repr

namespace Thread

def id (t : Thread) : String := t.ref.id

def isSuspended (t : Thread) : Bool := t.control.state == .suspended

/-- The thread stops for a reason, which also meets a request to stop. -/
def stop (t : Thread) (reason : StopReason) : Thread :=
  { t with control := .stopped reason, suspendRequested := false }

def resume (t : Thread) (state : ControlState) (depth : Nat) : Thread :=
  { t with control := .resumed state depth }

end Thread

end RemoteDebugger
