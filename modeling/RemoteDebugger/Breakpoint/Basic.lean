import RemoteDebugger.Error
import RemoteDebugger.Source.Path

/-!
# Breakpoints

Where and on which exceptions the program stops. A line breakpoint may be bound to a function, may
have a condition, and with an expression it is a log point, which prints instead of stopping.
-/

namespace RemoteDebugger

inductive BreakpointKind where
  | line
  | exception
  deriving DecidableEq, Repr

namespace BreakpointKind

def ofString? (s : String) : Option BreakpointKind :=
  match s with
  | "line" | "python-line" => some line
  | "exception" => some exception
  | _ => none

def text : BreakpointKind → String
  | line => "python-line"
  | exception => "exception"

def parse (s : String) : Except Error BreakpointKind :=
  match ofString? s with
  | some k => .ok k
  | none => .error (.invalidPayload "breakpoint kind" s)

end BreakpointKind

structure Breakpoint where
  id : Nat
  location : Source.Location
  condition : Option String := none
  expression : Option String := none
  function : Option String := none
  deriving DecidableEq, Repr

namespace Breakpoint

def isLogPoint (b : Breakpoint) : Bool := b.expression.isSome

def appliesTo (b : Breakpoint) (function : String) : Bool :=
  b.function.all (· == function)

end Breakpoint

/-- A type of exceptions to stop on, with its subtypes: when one is raised that will be caught, or
when nothing catches it. -/
structure ExceptionFilter where
  typeName : String
  always : Bool
  onTerminate : Bool
  deriving DecidableEq, Repr

/-- An exception raised in the program, with the names of its base types, nearest first. -/
structure RaisedException where
  typeName : String
  ancestors : List String
  message : String
  unhandled : Bool
  deriving DecidableEq, Repr

/-- The exception is of a type or one of its subtypes. -/
def RaisedException.isInstanceOf (e : RaisedException) (typeName : String) : Bool :=
  e.typeName == typeName || e.ancestors.contains typeName

end RemoteDebugger
