import RemoteDebugger.Breakpoint.SkipCache
import RemoteDebugger.Thread.Basic

/-!
# Breakpoint registry

All breakpoints of a session as immutable snapshots. Every change makes the next snapshot, with the
next generation number, and empties the skip cache for it. Line breakpoints are kept by file and
line, in the order they were set, and there is at most one with the same number in a file.
-/

namespace RemoteDebugger

abbrev LineTable := List (Nat × List Breakpoint)

namespace LineTable

def at_ (t : LineTable) (line : Nat) : List Breakpoint := (t.lookup line).getD []

/-- Append a breakpoint to those at its line. -/
def add (b : Breakpoint) : LineTable → LineTable
  | [] => [(b.location.line, [b])]
  | (line, bs) :: rest =>
    if line = b.location.line then (line, bs ++ [b]) :: rest else (line, bs) :: add b rest

/-- Remove a breakpoint from each line that has one of its number. Lines without breakpoints are not
kept. -/
def remove (t : LineTable) (id : Nat) : LineTable :=
  (t.map fun e => (e.1, e.2.eraseP fun b => b.id == id)).filter fun e => !e.2.isEmpty

def find? (t : LineTable) (id : Nat) : Option Breakpoint :=
  t.findSome? fun e => e.2.find? fun b => b.id == id

end LineTable

structure Snapshot where
  generation : Nat := 0
  files : List (String × LineTable) := []
  exceptions : List ExceptionFilter := []
  ignored : List Source.Location := []
  deriving DecidableEq, Repr

namespace Snapshot

def tableOf (s : Snapshot) (file : String) : LineTable := (s.files.lookup file).getD []

/-- The breakpoints at a line of a file, in the order they were set. -/
def at_ (s : Snapshot) (file : String) (line : Nat) : List Breakpoint := (s.tableOf file).at_ line

def hasBreakpointsIn (s : Snapshot) (file : String) : Bool := !(s.tableOf file).isEmpty

def hasExceptions (s : Snapshot) : Bool := !s.exceptions.isEmpty

/-- Why the first of some filters that fits an exception stops it. -/
def filterStop (e : RaisedException) (ignored : Bool) : List ExceptionFilter → Option StopReason
  | [] => none
  | f :: rest =>
    if e.isInstanceOf f.typeName then
      if e.unhandled && f.onTerminate then some .uncaughtException
      else if !e.unhandled && f.always && !ignored then some .caughtException
      else filterStop e ignored rest
    else filterStop e ignored rest

/-- Why an exception raised at a location stops the program, if it does. -/
def exceptionStop (s : Snapshot) (e : RaisedException) (l : Source.Location) : Option StopReason :=
  filterStop e (s.ignored.contains l) s.exceptions

/-- Replace the table of a file; an empty table is not kept. -/
def putTable (file : String) (t : LineTable) :
    List (String × LineTable) → List (String × LineTable)
  | [] => if t.isEmpty then [] else [(file, t)]
  | (f, old) :: rest =>
    if f = file then if t.isEmpty then rest else (f, t) :: rest
      else (f, old) :: putTable file t rest

/-- Without the breakpoint of a number in a file. The same number in another file is another
breakpoint and stays. -/
def removeLine (s : Snapshot) (id : Nat) (file : String) : Snapshot :=
  { s with files := putTable file ((s.tableOf file).remove id) s.files }

/-- With a breakpoint in the place of the one with its number in its file. -/
def addLine (s : Snapshot) (b : Breakpoint) : Snapshot :=
  let s := s.removeLine b.id b.location.file
  { s with files := putTable b.location.file ((s.tableOf b.location.file).add b) s.files }

end Snapshot

/-- The breakpoints of a session with the memo of places that need no attention. -/
structure BreakpointRegistry where
  snapshot : Snapshot := {}
  skips : SkipCache := {}

namespace BreakpointRegistry

/-- Change the snapshot: the change has the next generation, under which nothing is memoized yet. -/
def update (r : BreakpointRegistry) (f : Snapshot → Snapshot) : BreakpointRegistry :=
  let generation := r.snapshot.generation + 1
  { snapshot := { f r.snapshot with generation := generation },
    skips := SkipCache.reset generation }

def add (r : BreakpointRegistry) (b : Breakpoint) : BreakpointRegistry :=
  r.update fun s => s.addLine b

def remove (r : BreakpointRegistry) (id : Nat) (file : String) :
    BreakpointRegistry × Option Breakpoint :=
  (r.update fun s => s.removeLine id file, (r.snapshot.tableOf file).find? id)

/-- Stop on a type of exceptions, in the place of what was asked for it before. -/
def addException (r : BreakpointRegistry) (f : ExceptionFilter) : BreakpointRegistry :=
  r.update fun s =>
    { s with exceptions := s.exceptions.filter (fun g => g.typeName != f.typeName) ++ [f] }

def removeException (r : BreakpointRegistry) (typeName : String) : BreakpointRegistry × Bool :=
  let keep := fun f : ExceptionFilter => f.typeName != typeName
  (r.update fun s => { s with exceptions := s.exceptions.filter keep },
    !r.snapshot.exceptions.all keep)

def setExceptions (r : BreakpointRegistry) (fs : List ExceptionFilter) : BreakpointRegistry :=
  r.update fun s => { s with exceptions := fs }

/-- Never stop on exceptions raised at a location that will be caught. -/
def ignoreExceptionsAt (r : BreakpointRegistry) (l : Source.Location) : BreakpointRegistry :=
  r.update fun s => { s with ignored := s.ignored.insert l }

/-- Forget what is memoized, without a change. What threads hold from before is outdated by it, as
after a change. -/
def invalidate (r : BreakpointRegistry) : BreakpointRegistry := r.update id

def memoize (r : BreakpointRegistry) (k : SkipKey) (generation : Nat) : BreakpointRegistry :=
  { r with skips := r.skips.insert k generation }

@[simp] theorem generation_update (r : BreakpointRegistry) (f : Snapshot → Snapshot) :
    (r.update f).snapshot.generation = r.snapshot.generation + 1 := rfl

@[simp] theorem skips_update (r : BreakpointRegistry) (f : Snapshot → Snapshot) :
    (r.update f).skips = SkipCache.reset (r.snapshot.generation + 1) := rfl

@[simp] theorem snapshot_memoize (r : BreakpointRegistry) (k : SkipKey) (g : Nat) :
    (r.memoize k g).snapshot = r.snapshot := rfl

end BreakpointRegistry

end RemoteDebugger
