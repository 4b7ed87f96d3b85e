import RemoteDebugger.Session.Request

/-!
# Runs of a session

A session reacts to one input after the other: a request of the controller, a report of the host,
one step of a stopped thread, or a change of the program that is being debugged. An event is one
step up to the point where its thread stops, and each command that the stopped thread then serves is
a step of its own, so the steps of different threads interleave in any order. The program may change
between any two steps, since the threads that are not stopped go on.

`settle` takes no other steps than these. What holds along every run therefore holds of a session
whose stopped threads have served all they can.
-/

namespace RemoteDebugger

/-- What a session reacts to. A stopped thread is named by its position, the departed threads after
the registered ones. -/
inductive Input where
  | request (code : Nat) (seq : Int) (payload : String)
  | threadStarted (who : ThreadRef)
  | threadExited (id : String)
  | event (who : ThreadRef) (kind : EventKind) (frame : FrameRef)
  | serve (position : Nat)
  | console (text : String) (stream : Nat)
  | finish
  | program (program : Program)

namespace Session

/-- One step of the stopped thread at a position. A departed thread that leaves its event is
gone. -/
def serveAt (s : Session) (i : Nat) : Option Session :=
  match s.threads[i]? with
  | some t => (s.serve t).map fun r => { r.1 with threads := s.threads.set i r.2 }
  | none =>
    (s.departed[i - s.threads.length]?.bind s.serve).map fun r =>
      { r.1 with departed :=
          (s.departed.set (i - s.threads.length) r.2).filter fun t => t.suspension.isSome }

/-- React to an input. Only an event has an outcome for the host. -/
def react (s : Session) : Input → Session × Option Outcome
  | .request code seq payload => (s.request code seq payload, none)
  | .threadStarted who => (s.threadStarted who, none)
  | .threadExited id => (s.threadExited id, none)
  | .event who kind frame => ((s.event who kind frame).1, some (s.event who kind frame).2)
  | .serve i => ((s.serveAt i).getD s, none)
  | .console text stream => (s.writeToConsole text stream, none)
  | .finish => (s.finish, none)
  | .program program => ({ s with program := program }, none)

def run (s : Session) (inputs : List Input) : Session := inputs.foldl (fun s i => (s.react i).1) s

@[simp] theorem run_nil (s : Session) : s.run [] = s := rfl

@[simp] theorem run_cons (s : Session) (i : Input) (inputs : List Input) :
    s.run (i :: inputs) = (s.react i).1.run inputs := rfl

@[simp] theorem run_append (s : Session) (past future : List Input) :
    s.run (past ++ future) = (s.run past).run future :=
  List.foldl_append

theorem run_concat (s : Session) (inputs : List Input) (i : Input) :
    s.run (inputs ++ [i]) = ((s.run inputs).react i).1 :=
  s.run_append inputs [i]

/-- What every reaction keeps, a run keeps. Most invariants of a session are proved for one reaction
and carried along a run by this. -/
theorem run_invariant {P : Session → Prop} (step : ∀ s i, P s → P (s.react i).1) {s : Session}
    (h : P s) (inputs : List Input) : P (s.run inputs) := by
  induction inputs generalizing s with
  | nil => exact h
  | cons i inputs ih => exact ih (step s i h)

/-- The sessions along a run, each with the outcome of the input before it, under a given way to
react. -/
def history (react : Session → Input → Session × Option Outcome) :
    Session → List Input → List (Session × Option Outcome)
  | _, [] => []
  | s, i :: inputs => react s i :: history react (react s i).1 inputs

/-- A program that stands at one line. -/
def oneLine : Program :=
  { frames := #[{ id := 1, function := "main", file := "/app/main.x", line := 3 }] }

def mainThread : ThreadRef := ⟨"1", "main"⟩

/-- The first thread that can serve does, and only it is replaced. That the threads before it could
not is not recorded. -/
theorem serveFirst_eq_some {s s' : Session} {threads threads' : List Thread}
    (h : s.serveFirst threads = some (s', threads')) :
    ∃ i t t', threads[i]? = some t ∧ s.serve t = some (s', t') ∧ threads' = threads.set i t' := by
  induction threads generalizing threads' with
  | nil => cases h
  | cons t rest ih =>
      rw [serveFirst] at h
      split at h
      · rename_i next t' served
        obtain ⟨rfl, rfl⟩ : next = s' ∧ t' :: rest = threads' := by simpa using h
        exact ⟨0, t, t', rfl, served, rfl⟩
      · obtain ⟨⟨next, rest'⟩, found, same⟩ := Option.map_eq_some_iff.mp h
        obtain ⟨rfl, rfl⟩ : next = s' ∧ t :: rest' = threads' := by simpa using same
        obtain ⟨i, u, u', member, served, rfl⟩ := ih found
        exact ⟨i + 1, u, u', member, served, rfl⟩

/-- The step of some stopped thread is the step of the thread at some position. -/
theorem serveAny_eq_some {s s' : Session} (h : s.serveAny = some s') :
    ∃ i, s.serveAt i = some s' := by
  rw [serveAny] at h
  split at h
  · rename_i next threads found
    obtain ⟨i, t, t', member, served, rfl⟩ := serveFirst_eq_some found
    exact ⟨i, by simpa [serveAt, member, served] using h⟩
  · obtain ⟨⟨next, departed⟩, found, rfl⟩ := Option.map_eq_some_iff.mp h
    obtain ⟨i, t, t', member, served, rfl⟩ := serveFirst_eq_some found
    exact ⟨s.threads.length + i, by simp [serveAt, member, served]⟩

/-- Serving until nothing waits, or for a number of rounds, is a run of single steps, so it needs no
properties of its own. -/
theorem settleUpTo_run (n : Nat) (s : Session) :
    ∃ positions : List Nat, settleUpTo n s = s.run (positions.map Input.serve) := by
  induction n generalizing s with
  | zero => exact ⟨[], rfl⟩
  | succ n ih =>
      rw [settleUpTo]
      split
      · exact ⟨[], rfl⟩
      · rename_i next found
        obtain ⟨i, served⟩ := serveAny_eq_some found
        obtain ⟨positions, rest⟩ := ih next
        refine ⟨i :: positions, ?_⟩
        rw [rest, List.map_cons, run_cons]
        simp [react, served]

/-- Letting all stopped threads serve is a run of their single steps. -/
theorem settle_run (s : Session) :
    ∃ positions : List Nat, s.settle = s.run (positions.map Input.serve) :=
  settleUpTo_run _ s

end Session

end RemoteDebugger
