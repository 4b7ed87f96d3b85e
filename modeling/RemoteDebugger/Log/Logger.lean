import RemoteDebugger.Log.Directive

/-!
# Logger

One logger for the whole process, whose sink can be replaced at any time. A record reaches the sink
if the threshold admits it and logging is enabled; the sink has an opinion of its own about targets,
but that is asked only by those who want to know in advance whether a record would be taken.
-/

namespace RemoteDebugger.Log

structure Record where
  level : Level
  target : String
  text : String
  deriving DecidableEq, Repr

inductive Sink where
  /-- A sink of the host, with the one target it says it takes records of, if it says so. -/
  | host (name : String) (target : Option String)
  /-- The standard error stream, by directives. -/
  | standard (directives : Directives)
  deriving DecidableEq, Repr

/-- The sink says that it takes records of a level at a target. -/
def Sink.accepts (s : Sink) (level : Level) (target : String) : Bool :=
  match s with
  | .host _ only => only.all (· == target)
  | .standard directives => directives.admits level target

/-- What a sink of the host receives. -/
inductive Delivery where
  | record (sink : String) (r : Record)
  | flush (sink : String)
  deriving DecidableEq, Repr

structure Logger where
  sink : Sink
  threshold : Threshold
  enabled : Bool := true
  deriving DecidableEq, Repr

namespace Logger

def switch (l : Logger) (sink : Sink) (threshold : Threshold) : Logger :=
  { l with sink := sink, threshold := threshold }

/-- Log to the standard error stream by directives. -/
def useDirectives (l : Logger) (spec : Option String) : Logger :=
  let directives := Directives.ofSpec spec
  l.switch (.standard directives) directives.threshold

/-- Ask in advance whether a record would be taken. -/
def wouldTake (l : Logger) (level : Level) (target : String) : Bool :=
  l.threshold.admits level && l.enabled && l.sink.accepts level target

def log (l : Logger) (r : Record) : List Delivery :=
  if l.threshold.admits r.level && l.enabled then
    match l.sink with
    | .host name _ => [.record name r]
    | .standard _ => []
  else []

def flush (l : Logger) : List Delivery :=
  match l.sink with
  | .host name _ => [.flush name]
  | .standard _ => []

/-- The target of records about the session. -/
def sessionTarget : String := "debugger"

/-- The value of a result. A failure is logged as a warning, after a lead if there is one. -/
def valueOrWarning {α : Type} (l : Logger) (lead : Option String) :
    Except String α → Option α × List Delivery
  | .ok value => (some value, [])
  | .error e =>
    let text := match lead with
      | some lead => lead ++ " " ++ e
      | none => e
    (none, l.log ⟨.warn, sessionTarget, text⟩)

end Logger

end RemoteDebugger.Log
