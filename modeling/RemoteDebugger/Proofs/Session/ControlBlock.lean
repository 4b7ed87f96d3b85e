import Mathlib.Data.List.Induction
import RemoteDebugger.Proofs.Session.Termination
import RemoteDebugger.Proofs.Session.Transition

/-!
# Control blocks

What the session keeps of a thread is spread over its state, the reason it stopped for, the depth
its step started from, the mark that it is inside the engine and the exception it has stopped for.
They are changed on different paths: by the stop of an event, by a jump, by a command to go on and
by the end of an event. As long as the session lasts they fit together, and they tell what has
become of the thread: it is suspended exactly while it has not left the last event that has stopped
it.
-/

namespace RemoteDebugger

open Thread (Moves)

/-- The parts of a thread fit together. They follow from its state and the event it is stopped
in. -/
structure Thread.Coherent (t : Thread) : Prop where
  suspended : t.control.state = .suspended ↔ t.suspension.isSome = true
  inEngine : t.inEngine = t.suspension.isSome
  stopReason : t.control.stopReason.isSome = t.suspension.isSome
  anchor : t.control.anchor.isSome = t.control.state.isStepping
  exception : t.exception = t.suspension.bind Suspension.exception

theorem ControlState.isStepping_iff (state : ControlState) :
    state.isStepping = true ↔ state = .stepInto ∨ state = .stepOver ∨ state = .stepReturn ∨
      ∃ line function, state = .runToLine line function := by
  cases state <;> simp [isStepping]

theorem Control.anchor_resumed (state : ControlState) (depth : Nat) :
    (resumed state depth).anchor.isSome = state.isStepping := by
  cases state <;> rfl

namespace Thread.Coherent

variable {s : Session} {i : Input} {t t' : Thread}

theorem new (who : ThreadRef) : Coherent { ref := who } := by
  refine ⟨?_, rfl, rfl, rfl, rfl⟩
  constructor <;> intro stopped <;> cases stopped

theorem outside (h : t.Coherent) (apart : t.inEngine = false) : t.suspension = none := by
  rwa [h.inEngine, Option.isSome_eq_false_iff, Option.isNone_iff_eq_none] at apart

theorem suspension_of_awake (h : t.Coherent) (awake : t.control.state ≠ .suspended) :
    t.suspension = none := by
  rw [← Option.not_isSome_iff_eq_none, ← h.suspended]
  exact awake

/-- A suspended thread is inside the engine, so an event that comes while it evaluates an expression
is passed over. -/
theorem event_of_suspended (h : t.Coherent) (lasting : s.finished = false)
    (known : s.thread? t.id = some t) (suspended : t.control.state = .suspended) (kind : EventKind)
    (frame : FrameRef) : s.event t.ref kind frame = (s, .done false) := by
  have inside : t.inEngine = true := h.inEngine.trans (h.suspended.mp suspended)
  have introduced : s.introduce t.ref = (s, t) := Session.introduce_of_known known
  rw [Session.event_of_inside lasting (by rw [introduced]; exact inside), introduced]

/-- A move keeps the parts of a thread together, unless it ends the session. No command that waits
tells a thread to go on suspended. -/
theorem moves (h : t.Coherent) (moves : Moves s i t t')
    (awakes : ∀ c ∈ s.queue.commands, c.action ≠ .resume .suspended)
    (lasting : (s.react i).1.finished = false) : t'.Coherent := by
  cases moves with
  | stays => exact h
  | asked => exact ⟨h.suspended, h.inEngine, h.stopReason, h.anchor, h.exception⟩
  | stops reason top exception apart =>
      have unraised : t.exception = none := by rw [h.exception, h.outside apart]; rfl
      refine ⟨iff_of_true rfl rfl, rfl, rfl, rfl, ?_⟩
      show exception.or t.exception = exception
      rw [unraised, Option.or_none]
  | jumps stopped =>
      have inside : t.suspension.isSome = true := by rw [stopped]; rfl
      exact ⟨iff_of_true rfl inside, h.inEngine, inside.symm, rfl, h.exception⟩
  | @leaves x stopped state depth told =>
      have awake : state ≠ .suspended := by
        rintro rfl
        obtain running | ⟨c, waits, goes⟩ := told
        · cases running
        · exact awakes c waits goes
      refine ⟨iff_of_false awake Bool.false_ne_true, rfl, rfl,
        Control.anchor_resumed state depth, ?_⟩
      show (if x.exception.isSome then none else t.exception) = none
      cases raised : x.exception with
      | some e => rfl
      | none => rw [h.exception, stopped]; exact raised
  | released ended =>
      rw [lasting] at ended
      cases ended

end Thread.Coherent

namespace Session

variable {s : Session} {id : String} {t : Thread}

/-- No command that waits tells a thread to go on suspended, as no request can ask for this. -/
theorem Reachable.awakes (h : Reachable s) :
    ∀ c ∈ s.queue.commands, c.action ≠ .resume .suspended := by
  refine h.waiting (P := fun a => a ≠ .resume .suspended) ?_ ?_
  · intro state awake same
    exact awake (Action.resume.inj same)
  · rintro code seq a numbered - rfl
    cases numbered

theorem lasting_of_react {i : Input} (lasting : (s.react i).1.finished = false) :
    s.finished = false := by
  rw [Bool.eq_false_iff] at lasting ⊢
  exact fun ended => lasting ((s.finished_react i).mpr (.inl ended))

/-- While a session lasts, the parts of every registered thread fit together. -/
theorem Reachable.coherent (h : Reachable s) (lasting : s.finished = false)
    (known : s.thread? id = some t) : t.Coherent := by
  obtain ⟨setup, program, inputs, rfl⟩ := h
  refine (run_invariant (P := fun s => Reachable s ∧ (s.finished = false →
    ∀ id t, s.thread? id = some t → t.Coherent)) ?_ ?_ inputs).2 lasting id t known
  · rintro s i ⟨reachable, coherent⟩
    refine ⟨reachable.run [i], fun lasting id t' after => ?_⟩
    obtain ⟨t, known | ⟨-, who, -, rfl⟩, moves⟩ := moves_react reachable.orderly.distinct i after
    · exact (coherent (lasting_of_react lasting) id t known).moves moves reachable.awakes lasting
    · exact (Thread.Coherent.new who).moves moves reachable.awakes lasting
  · refine ⟨⟨setup, program, [], rfl⟩, fun _ id t known => ?_⟩
    rw [thread?_start] at known
    cases known

/-- A thread that is not suspended stays as it is when it carries out a command. -/
theorem execute_of_awake (s : Session) (awake : t.control.state ≠ .suspended) (top : FrameRef)
    (a : Action) :
    (s.execute t top t.isSuspended a).2 = .stay ∧
      (s.execute t top t.isSuspended a).1.threads = s.threads ∧
      (s.execute t top t.isSuspended a).1.departed = s.departed := by
  have flag : t.isSuspended = false := beq_eq_false_iff_ne.mpr awake
  have serves := s.execute_serves t top false a
  rw [flag]
  exact ⟨s.execute_running t top a, serves.threads, serves.departed⟩

/-- An event stops its thread for a reason, and the thread does not leave this event while the
session reacts to further inputs. -/
structure StaysStopped (s : Session) (who : ThreadRef) (kind : EventKind) (frame : FrameRef)
    (later : List Input) (reason : StopReason) (x : Suspension) : Prop where
  blocked : (s.event who kind frame).2 = .blocked
  stopped : ∃ t, (s.event who kind frame).1.thread? who.id = some t ∧ t.control = .stopped reason
  stays : ∀ part, part <+: later → ∃ t,
    ((s.event who kind frame).1.run part).thread? who.id = some t ∧ t.suspension = some x

/-- At the end of a run, a thread has not left the event in which it has stopped for a reason. -/
def StillStopped (s₀ : Session) (inputs : List Input) (id : String) (reason : StopReason)
    (x : Suspension) : Prop :=
  ∃ past who kind frame later, inputs = past ++ .event who kind frame :: later ∧ who.id = id ∧
    (s₀.run past).StaysStopped who kind frame later reason x

variable {s₀ : Session} {inputs : List Input} {reason : StopReason} {x : Suspension}

/-- A thread that is still in its stop is known to be suspended there, with the exception it has
stopped for. -/
theorem StillStopped.suspension (h : s₀.StillStopped inputs id reason x)
    (known : (s₀.run inputs).thread? id = some t) : t.suspension = some x := by
  obtain ⟨past, who, kind, frame, later, rfl, rfl, stays⟩ := h
  obtain ⟨u, known', inside⟩ := stays.stays later List.prefix_rfl
  rw [run_append, run_cons, react, known'] at known
  obtain rfl := Option.some.inj known
  exact inside

/-- A thread that stays in its stop through one more input is still in the same stop. -/
theorem StillStopped.concat {i : Input} (h : s₀.StillStopped inputs id reason x)
    (known : (s₀.run (inputs ++ [i])).thread? id = some t) (inside : t.suspension = some x) :
    s₀.StillStopped (inputs ++ [i]) id reason x := by
  obtain ⟨past, who, kind, frame, later, rfl, rfl, stays⟩ := h
  refine ⟨past, who, kind, frame, later ++ [i], by simp, rfl, stays.blocked, stays.stopped, ?_⟩
  intro part first
  obtain rfl | before := List.prefix_concat_iff.mp first
  · rw [List.append_assoc, List.cons_append, run_append, run_cons] at known
    exact ⟨t, known, inside⟩
  · exact stays.stays part before

/-- An input that stops a thread begins a stop, for the reason that the thread then shows. -/
theorem stillStopped_of_within {i : Input} (within : (s₀.run inputs).StopsIn id i)
    (known : (s₀.run (inputs ++ [i])).thread? id = some t) (stopped : t.control = .stopped reason)
    (inside : t.suspension = some x) : s₀.StillStopped (inputs ++ [i]) id reason x := by
  cases i with
  | event who kind frame =>
      obtain ⟨rfl, blocked⟩ := within
      rw [run_append, run_cons] at known
      refine ⟨inputs, who, kind, frame, [], rfl, rfl, blocked, ⟨t, known, stopped⟩, ?_⟩
      rintro part first
      obtain rfl := List.prefix_nil.mp first
      exact ⟨t, known, inside⟩
  | request | threadStarted | threadExited | serve | console | finish | program => exact within.elim

/-- A thread that is stopped inside an event has been stopped by this event, and has not left it
since. If it has an exception there, this is the reason for which it was stopped. -/
theorem stillStopped_of_suspension (setup : Setup) (program : Program) (inputs : List Input)
    (known : ((start setup program).run inputs).thread? id = some t)
    (inside : t.suspension = some x) :
    ∃ reason, (start setup program).StillStopped inputs id reason x ∧
      (x.exception.isSome = true → reason.isException = true) := by
  induction inputs using List.reverseRecOn generalizing t with
  | nil => cases known
  | append_singleton past i ih =>
      have orderly := Reachable.orderly ⟨setup, program, past, rfl⟩
      have after := known
      rw [run_concat] at after
      obtain ⟨u, before, moves⟩ := moves_react orderly.distinct i after
      have earlier (same : u.suspension = some x) :
          ∃ reason, (start setup program).StillStopped (past ++ [i]) id reason x ∧
            (x.exception.isSome = true → reason.isException = true) := by
        obtain registered | ⟨-, who, -, rfl⟩ := before
        · obtain ⟨reason, still, raised⟩ := ih registered same
          exact ⟨reason, still.concat known inside, raised⟩
        · cases same
      cases moves with
      | stays | asked | jumps | released => exact earlier inside
      | stops reason top exception apart within raised =>
          rw [before.id_eq] at within
          refine ⟨reason, stillStopped_of_within within known rfl inside, ?_⟩
          obtain rfl := Option.some.inj inside
          exact raised
      | leaves => cases inside

/-- What is kept of a registered thread after a run tells what has become of it. -/
structure WellFormed (s₀ : Session) (inputs : List Input) (t : Thread) : Prop where
  /-- The thread is suspended while it has not left the event of a stop. -/
  suspended : t.control.state = .suspended ↔ ∃ reason x, s₀.StillStopped inputs t.id reason x
  inEngine : t.control.state = .suspended → t.inEngine = true
  stopReason : t.control.stopReason.isSome = true ↔ t.control.state = .suspended
  anchor : t.control.anchor.isSome = true ↔
    t.control.state = .stepInto ∨ t.control.state = .stepOver ∨ t.control.state = .stepReturn ∨
      ∃ line function, t.control.state = .runToLine line function
  /-- An exception is kept during a stop only, and the stop began with an exception as its
  reason. -/
  exception : ∀ e, t.exception = some e → t.control.state = .suspended ∧
    ∃ reason x, s₀.StillStopped inputs t.id reason x ∧ reason.isException = true ∧
      x.exception = some e
  /-- A thread that is not suspended stays as it is when it carries out a command. -/
  running : t.control.state ≠ .suspended → ∀ (s : Session) (top : FrameRef) (a : Action),
    (s.execute t top t.isSuspended a).2 = .stay ∧
      (s.execute t top t.isSuspended a).1.threads = s.threads ∧
      (s.execute t top t.isSuspended a).1.departed = s.departed
  /-- It carries out commands in its events only, and a suspended thread only where it waits. -/
  serves : t.control.state ≠ .suspended → (s₀.run inputs).serve t = none
  events : t.control.state = .suspended → ∀ kind frame,
    (s₀.run inputs).event t.ref kind frame = (s₀.run inputs, .done false)

/-- While a session lasts, the control blocks of all registered threads are well formed. -/
theorem control_blocks_are_wellFormed (setup : Setup) (program : Program) (inputs : List Input)
    (lasting : ((start setup program).run inputs).finished = false) (t : Thread)
    (registered : t ∈ ((start setup program).run inputs).threads) :
    (start setup program).WellFormed inputs t := by
  have reachable : Reachable ((start setup program).run inputs) := ⟨setup, program, inputs, rfl⟩
  obtain ⟨position, here⟩ := List.mem_iff_getElem?.mp registered
  have known := thread?_of_here reachable.orderly.distinct here
  have coherent := reachable.coherent lasting known
  constructor
  case suspended =>
    rw [coherent.suspended, Option.isSome_iff_exists]
    constructor
    · rintro ⟨x, inside⟩
      obtain ⟨reason, still, -⟩ := stillStopped_of_suspension setup program inputs known inside
      exact ⟨reason, x, still⟩
    · rintro ⟨reason, x, still⟩
      exact ⟨x, still.suspension known⟩
  case inEngine =>
    intro suspended
    rw [coherent.inEngine]
    exact coherent.suspended.mp suspended
  case stopReason => rw [coherent.stopReason, coherent.suspended]
  case anchor => rw [coherent.anchor, ControlState.isStepping_iff]
  case exception =>
    intro e raised
    have kept := coherent.exception
    rw [raised] at kept
    obtain ⟨x, inside, because⟩ := Option.bind_eq_some_iff.mp kept.symm
    obtain ⟨reason, still, reasoned⟩ := stillStopped_of_suspension setup program inputs known inside
    have suspended := coherent.suspended.mpr (Option.isSome_iff_exists.mpr ⟨x, inside⟩)
    have exceptional := reasoned (Option.isSome_iff_exists.mpr ⟨e, because⟩)
    exact ⟨suspended, reason, x, still, exceptional, because⟩
  case running =>
    intro awake s top a
    exact s.execute_of_awake awake top a
  case serves =>
    intro awake
    rw [serve, coherent.suspension_of_awake awake]
  case events =>
    intro suspended kind frame
    exact coherent.event_of_suspended lasting known suspended kind frame

/-- A thread has stopped for an exception, and has been told to go to another line. -/
def jumpsInException : List Input :=
  [.request 111 1 "0\texception\tBoom",
    .event mainThread (.exception ⟨"Boom", [], "no", false⟩) 0, .request 121 3 "1\t3", .serve 0]

/-- Its thread. The reason it is stopped for has become the jump, and the exception is still
kept. -/
def jumped : Thread :=
  { ref := mainThread
    control := .stopped .setNextStatement
    inEngine := true
    exception := some ⟨"Boom", [], "no", false⟩
    suspension := some ⟨0, some ⟨"Boom", [], "no", false⟩⟩ }

/-- After a jump in a stop at an exception, the reason is the jump, and the exception is still there
to be asked for. -/
theorem jumped_is_wellFormed :
    ((start {} oneLine).run jumpsInException).finished = false ∧
      jumped ∈ ((start {} oneLine).run jumpsInException).threads ∧
      (start {} oneLine).WellFormed jumpsInException jumped := by
  have lasting : ((start {} oneLine).run jumpsInException).finished = false := by decide +kernel
  have registered : jumped ∈ ((start {} oneLine).run jumpsInException).threads := by decide +kernel
  exact ⟨lasting, registered, control_blocks_are_wellFormed {} oneLine _ lasting jumped registered⟩

end Session

end RemoteDebugger
