import RemoteDebugger.Error
import RemoteDebugger.Text.Numeral
import RemoteDebugger.Value.Basic

/-!
# Frames of the debugged program

The program as the engine sees it: the heap and the frames of its calls. A frame names its caller by
position, and callers come before the frames they called, so a stack always ends. While a thread is
stopped, requests may assign variables and move the current line of a frame.
-/

namespace RemoteDebugger

/-- Where a frame is among the frames of the program. It has nothing to do with the identifier that
the host gives the frame. -/
abbrev FrameRef := Nat

/-- A call in progress. The host may not let its locals and its line be changed. -/
structure Frame where
  id : Nat
  function : String
  file : String
  line : Nat
  caller : Option FrameRef := none
  locals : Bindings := []
  globals : Bindings := []
  args : List String := []
  /-- The host can assign locals and move the current line. -/
  editable : Bool := true

instance : Inhabited Frame := ⟨{ id := 0, function := "", file := "", line := 0 }⟩

/-- The debugged program: the contents of its containers and its frames. -/
structure Program where
  heap : Heap := {}
  frames : Array Frame := #[]

instance : Inhabited Program := ⟨{}⟩

namespace Program

def frame (p : Program) (r : FrameRef) : Frame := p.frames.getD r default

def modifyFrame (p : Program) (r : FrameRef) (f : Frame → Frame) : Program :=
  { p with frames := p.frames.modify r f }

def caller? (p : Program) (r : FrameRef) : Option FrameRef :=
  (p.frame r).caller.filter (· < r)

theorem caller?_lt {p : Program} {r c : FrameRef} (h : p.caller? r = some c) : c < r := by
  simpa using (Option.filter_eq_some_iff.mp h).2

/-- The frames of a stack, from the given one to the outermost. -/
def stack (p : Program) (top : FrameRef) : List FrameRef :=
  match _h : p.caller? top with
  | some c => top :: stack p c
  | none => [top]
termination_by top
decreasing_by exact caller?_lt _h

def depth (p : Program) (r : FrameRef) : Nat := (p.stack r).length - 1

def setLocal (p : Program) (r : FrameRef) (name : String) (value : Value) : Except Error Program :=
  if (p.frame r).editable then
    .ok (p.modifyFrame r fun f => { f with locals := f.locals.insert name value })
  else .error (.unsupported "set local variable")

/-- Move the current line of a frame, wherever it is. -/
def moveLine (p : Program) (r : FrameRef) (line : Nat) : Program :=
  p.modifyFrame r fun f => { f with line := line }

/-- Make a frame go on at another line, on request. A frame that is not editable refuses, and the
program stays as it is. -/
def jumpToLine (p : Program) (r : FrameRef) (line : Nat) : Except Error Program :=
  if (p.frame r).editable then .ok (p.moveLine r line)
  else .error (.unsupported "jump to line")

end Program

/-- Which frame of a stack a request is about: the topmost, or the one of a number. -/
inductive FrameSelector where
  | top
  | id (n : Nat)
  deriving DecidableEq, Repr

namespace FrameSelector

/-- Read a selector: a star for the topmost frame, or the number of a frame. -/
def parse (s : String) : Except Error FrameSelector :=
  if s = "*" then .ok .top
  else match Text.unsigned? Text.maxUInt64 s.toList with
    | some n => .ok (.id n)
    | none => .error (.invalidPayload "frame id" s)

def find (p : Program) (top : FrameRef) : FrameSelector → Except Error FrameRef
  | .top => .ok top
  | .id n =>
    match (p.stack top).find? fun r => (p.frame r).id = n with
    | some r => .ok r
    | none => .error (.frameNotFound (toString n))

end FrameSelector

end RemoteDebugger
