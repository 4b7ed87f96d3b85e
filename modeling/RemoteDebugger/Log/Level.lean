/-!
# Log levels

How important a record is, and the threshold up to which records pass. A threshold is a level, or
none at all to keep everything back.
-/

namespace RemoteDebugger.Log

/-- The level of a record, the most important first. -/
inductive Level where
  | error
  | warn
  | info
  | debug
  | trace
  deriving DecidableEq, Repr

namespace Level

/-- All levels, the most important first. -/
def all : List Level := [error, warn, info, debug, trace]

/-- The place of a level among all levels, counted from one. -/
def rank : Level → Nat
  | error => 1
  | warn => 2
  | info => 3
  | debug => 4
  | trace => 5

def name : Level → String
  | error => "ERROR"
  | warn => "WARN"
  | info => "INFO"
  | debug => "DEBUG"
  | trace => "TRACE"

end Level

/-- Up to which level records pass. -/
inductive Threshold where
  | off
  | upTo (level : Level)
  deriving DecidableEq, Repr

namespace Threshold

/-- All thresholds, the strictest first. -/
def all : List Threshold := .off :: Level.all.map .upTo

/-- The least important rank that passes. Zero lets nothing pass. -/
def rank : Threshold → Nat
  | off => 0
  | upTo l => l.rank

def name : Threshold → String
  | off => "OFF"
  | upTo l => l.name

def admits (t : Threshold) (l : Level) : Bool := l.rank ≤ t.rank

/-- The threshold that admits more. -/
def max (a b : Threshold) : Threshold := if a.rank ≤ b.rank then b else a

/-- Read a threshold, in letters of either case. -/
def ofString? (s : String) : Option Threshold :=
  all.find? fun t => t.name.toList == s.toList.map Char.toUpper

@[simp] theorem admits_off (l : Level) : off.admits l = false := by cases l <;> rfl

end Threshold

end RemoteDebugger.Log
