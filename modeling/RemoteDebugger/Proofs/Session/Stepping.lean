import RemoteDebugger.Proofs.Session.Registered

/-!
# Stepping

A thread may be told to go on step by step, and stops again when the step is done. `StepDone` says
with which events a step is done, apart from how the engine decides about events. Between two stops
the thread meets lines, calls and returns in files that are heeded and in files that are not, and
commands are carried out on it; none of this moves its goal, so it stops with the first event that
its step is done with.

Only the file of an event is tested by the filters. A step that is done with a return stops in the
caller, whose file is tested by nobody.
-/

namespace RemoteDebugger

def StopReason.isStep : StopReason → Bool
  | stepInto | stepOver | stepReturn | runToLine => true
  | breakpoint _ | suspend | setNextStatement | caughtException | uncaughtException => false

def StopReason.isBreak : StopReason → Bool
  | breakpoint _ | caughtException | uncaughtException => true
  | stepInto | stepOver | stepReturn | suspend | runToLine | setNextStatement => false

theorem StopReason.isException_of_isStep {r : StopReason} (h : r.isStep = true) :
    r.isException = false := by
  cases r <;> first | rfl | cases h

theorem StopReason.isBreak_of_isException {r : StopReason} (h : r.isException = true) :
    r.isBreak = true := by
  cases r <;> first | rfl | cases h

/-- A step that was begun at a stack depth is done with an event of its thread: the thread stops, at
a line in its own frame and at a return in the caller. -/
inductive StepDone (p : Program) (depth : Nat) :
    ControlState → EventKind → FrameRef → StopReason → FrameRef → Prop
  | into (frame : FrameRef) : StepDone p depth .stepInto .line frame .stepInto frame
  | overLine {frame : FrameRef} (inside : p.depth frame ≤ depth) :
      StepDone p depth .stepOver .line frame .stepOver frame
  | overEnd {frame caller : FrameRef} (inside : p.depth frame ≤ depth)
      (parent : p.caller? frame = some caller) :
        StepDone p depth .stepOver .ret frame .stepOver caller
  | out {frame caller : FrameRef} (inside : p.depth frame ≤ depth)
      (parent : p.caller? frame = some caller) :
      StepDone p depth .stepReturn .ret frame .stepReturn caller
  | toLine {line : Nat} {function : Option String} {frame : FrameRef}
      (here : line = (p.frame frame).line)
      (within : ∀ f, function = some f → f = (p.frame frame).function) :
      StepDone p depth (.runToLine line function) .line frame .runToLine frame

namespace StepDone

variable {p q : Program} {depth : Nat} {state : ControlState} {kind : EventKind} {frame : FrameRef}
variable {reason reason' : StopReason} {top top' : FrameRef}

/-- A step is done in one way only. -/
theorem unique (h : StepDone p depth state kind frame reason top)
    (h' : StepDone p depth state kind frame reason' top') : reason' = reason ∧ top' = top := by
  cases h with
  | into | overLine | toLine =>
      cases h'
      exact ⟨rfl, rfl⟩
  | overEnd _ parent =>
      cases h' with
      | overEnd _ parent' => exact ⟨rfl, Option.some.inj (parent'.symm.trans parent)⟩
  | out _ parent =>
      cases h' with
      | out _ parent' => exact ⟨rfl, Option.some.inj (parent'.symm.trans parent)⟩

theorem plain (h : StepDone p depth state kind frame reason top) (e : RaisedException) :
    kind ≠ .exception e := by
  cases h <;> exact nofun

theorem top_of_line (h : StepDone p depth state .line frame reason top) : top = frame := by
  cases h <;> rfl

/-- Where the frames are the same, the same events end a step. -/
theorem of_sameFrames (same : p.SameFrames q) (h : StepDone p depth state kind frame reason top) :
    StepDone q depth state kind frame reason top := by
  cases h with
  | into => exact .into frame
  | overLine inside => exact .overLine (same.depth frame ▸ inside)
  | overEnd inside parent =>
      exact .overEnd (same.depth frame ▸ inside) (same.caller? frame ▸ parent)
  | out inside parent => exact .out (same.depth frame ▸ inside) (same.caller? frame ▸ parent)
  | toLine here within => exact .toLine (same.line frame ▸ here) (same.function frame ▸ within)

end StepDone

namespace Session

section

variable {s : Session} {t : Thread} {state : ControlState} {depth : Nat} {kind : EventKind}
variable {frame top : FrameRef} {file : String} {snapshot : Snapshot} {reason : StopReason}

theorem withinAnchor_resumed (stepping : state.isStepping = true) (depth d : Nat) :
    (Control.resumed state depth).withinAnchor d = true ↔ d ≤ depth := by
  simp [Control.resumed, Control.withinAnchor, stepping]

/-- At a line, the engine finds the step at its end exactly when it is done. -/
theorem stepEnd?_eq_some_iff (steps : t.control = .resumed state depth)
    (stepping : state.isStepping = true) :
    s.stepEnd? t frame = some reason ↔ StepDone s.program depth state .line frame reason frame := by
  have within := withinAnchor_resumed stepping depth (s.program.depth frame)
  have going : (Control.resumed state depth).state = state := rfl
  rw [stepEnd?, steps, going]
  constructor
  · intro ended
    cases state with
    | stepInto =>
        obtain rfl := Option.some.inj ended
        exact .into frame
    | stepOver =>
        obtain ⟨inside, same⟩ := Option.ite_none_right_eq_some.mp ended
        obtain rfl := Option.some.inj same
        exact .overLine (within.mp inside)
    | runToLine line function =>
        obtain ⟨⟨here, fits⟩, same⟩ := Option.ite_none_right_eq_some.mp ended
        obtain rfl := Option.some.inj same
        refine .toLine here ?_
        intro f named
        simpa [named] using fits
    | stepReturn | running | suspended => cases ended
  · intro done
    cases done with
    | into => rfl
    | overLine inside => exact if_pos (within.mpr inside)
    | toLine here fits =>
        refine if_pos ⟨here, ?_⟩
        simpa [Option.all_eq_true] using fits

/-- Of the events that a thread meets on a step, those stop it with which the step is done, and
those that hit a breakpoint or raise an exception to stop on. -/
theorem stepDone_of_decide (unasked : t.suspendRequested = false)
    (steps : t.control = .resumed state depth) (stepping : state.isStepping = true)
    (h : (s.decide t kind frame file snapshot).2 = .suspend reason top) :
    reason.isBreak = true ∨ StepDone s.program depth state kind frame reason top := by
  cases decide_cause h with
  | asked asked =>
      rw [unasked] at asked
      cases asked
  | hit b => exact .inl rfl
  | ended done => exact .inr ((stepEnd?_eq_some_iff steps stepping).mp done)
  | left step inside parent =>
      rw [steps] at step inside
      have within := (withinAnchor_resumed stepping _ _).mp inside
      rcases step with ⟨isOver, rfl⟩ | ⟨out, rfl⟩
      · obtain rfl : state = .stepOver := isOver
        exact .inr (.overEnd within parent)
      · obtain rfl : state = .stepReturn := out
        exact .inr (.out within parent)
  | raised e exceptional => exact .inl (StopReason.isBreak_of_isException exceptional)

/-- An event that the step is done with stops the thread. -/
theorem decide_of_stepDone (steps : t.control = .resumed state depth)
    (stepping : state.isStepping = true)
    (done : StepDone s.program depth state kind frame reason top) :
    ∃ reason' top', (s.decide t kind frame file snapshot).2 = .suspend reason' top' := by
  cases kind with
  | line =>
      obtain rfl : top = frame := done.top_of_line
      have looks := s.checkBreakpoints_looks t top (snapshot.at_ file (s.program.frame top).line)
      rw [decide, decideLine]
      dsimp only
      split
      · exact ⟨_, _, rfl⟩
      · split
        · exact ⟨_, _, rfl⟩
        · rename_i checked
          rw [checked] at looks
          rw [looks.stepEnd?, (stepEnd?_eq_some_iff steps stepping).mpr done]
          exact ⟨_, _, rfl⟩
  | ret =>
      have within := withinAnchor_resumed stepping depth (s.program.depth frame)
      have going : (Control.resumed state depth).state = state := rfl
      refine ⟨reason, top, ?_⟩
      rw [decide, decideReturn, steps, going]
      cases done with
      | overEnd inside parent | out inside parent => simp only [within.mpr inside, parent, if_true]
  | call | exception => cases done

/-- A thread that an event stops because a step is done was on a step. It stops at a line in the
frame of the event, and at a return in the caller. -/
theorem isStepping_of_decide (step : reason.isStep = true)
    (h : (s.decide t kind frame file snapshot).2 = .suspend reason top) :
    t.control.state.isStepping = true ∧
      (kind = .line ∧ top = frame ∨ kind = .ret ∧ s.program.caller? frame = some top) := by
  cases decide_cause h with
  | asked | hit => cases step
  | ended done =>
      refine ⟨?_, .inl ⟨rfl, rfl⟩⟩
      cases steps : t.control.state.isStepping with
      | true => rfl
      | false =>
          rw [stepEnd?_of_not_stepping steps] at done
          cases done
  | left left inside parent =>
      refine ⟨?_, .inr ⟨rfl, parent⟩⟩
      rcases left with ⟨isOver, -⟩ | ⟨out, -⟩
      · rw [isOver]
        rfl
      · rw [out]
        rfl
  | raised e exceptional =>
      rw [StopReason.isException_of_isStep step] at exceptional
      cases exceptional

end

/-- The filters let a thread on a step look at the events of a frame. -/
structure Heeds (s : Session) (frame : FrameRef) : Prop where
  traced : s.filter.isExcluded (s.fileOf frame) = false
  unfiltered : s.filter.isStepFiltered (s.fileOf frame) = false

/-- A thread has stopped in a frame for a reason, and its stop is the last thing that has been
announced. -/
def StoppedIn (s s' : Session) (id : String) (reason : StopReason) (top : FrameRef) : Prop :=
  ∃ t before, s'.thread? id = some t ∧
    t.control = .stopped reason ∧ t.suspension = some ⟨top, none⟩ ∧ t.inEngine = true ∧
    s'.outbox = Wire.Outbox.notify before .threadSuspend (s'.suspendedPayload t reason top) ∧
    s.outbox.messages <+: before.messages

/-- What comes of an event of a thread on a step: the thread goes on as before, a breakpoint or an
exception stops it, or the step is done. -/
inductive Met (s : Session) (t : Thread) (state : ControlState) (depth : Nat) (kind : EventKind)
    (frame : FrameRef) : Session × Outcome → Prop
  | on {s' : Session} {traced : Bool} (same : s'.thread? t.id = some t)
      (undone : ∀ reason top, s.Heeds frame → ¬ StepDone s.program depth state kind frame
        reason top) :
      Met s t state depth kind frame (s', .done traced)
  | broken {s' : Session} {reason : StopReason} {top : FrameRef}
      {exception : Option RaisedException}
      (hit : reason.isBreak = true) (stopped : s'.thread? t.id =
        some (t.halted reason top exception)) :
      Met s t state depth kind frame (s', .blocked)
  | done {s' : Session} {reason : StopReason} {top : FrameRef} (heeded : s.Heeds frame)
      (done : StepDone s.program depth state kind frame reason top)
      (stopped : StoppedIn s s' t.id reason top) : Met s t state depth kind frame (s', .blocked)

section

variable {s : Session} {t : Thread} {state : ControlState} {depth : Nat} {kind : EventKind}
variable {frame top : FrameRef} {reason : StopReason}

theorem stoppedIn_suspend {s' : Session} (known : s'.thread? t.id = some t)
    (grown : s.outbox.messages <+: s'.outbox.messages) :
    StoppedIn s (s'.suspend t reason top none) t.id reason top :=
  ⟨_, s'.outbox, thread?_suspend known, rfl, rfl, rfl, rfl, grown⟩

theorem StoppedIn.of_earlier {s₁ s' : Session} {id : String} (h : StoppedIn s₁ s' id reason top)
    (grown : s.outbox.messages <+: s₁.outbox.messages) : StoppedIn s s' id reason top := by
  obtain ⟨t, before, known, control, suspended, inside, announced, later⟩ := h
  exact ⟨t, before, known, control, suspended, inside, announced, grown.trans later⟩

/-- A thread on a step passes over events in files that are excluded or filtered. -/
theorem lookAt_of_not_heeds (unheeded : ¬ s.Heeds frame)
    (stepping : t.control.state.isStepping = true) :
    s.lookAt t kind frame = (s, .done false) := by
  rw [lookAt]
  dsimp only
  split
  · rfl
  · rename_i traced
    split
    · rfl
    · rename_i unfiltered
      rw [stepping, Bool.true_and] at unfiltered
      exact absurd ⟨by simpa using traced, by simpa using unfiltered⟩ unheeded

/-- An event that is no exception stops the thread without one. -/
theorem apply_of_plain (plain : ∀ e, kind ≠ .exception e) (key : Option SkipKey)
    (generation : Nat) :
    s.apply t kind key generation (.suspend reason top) =
      (s.suspend t reason top none, .blocked) := by
  cases kind with
  | call | line | ret => rfl
  | exception e => exact absurd rfl (plain e)

/-- What comes of the look at an event. -/
theorem met_lookAt (known : s.thread? t.id = some t) (unasked : t.suspendRequested = false)
    (steps : t.control = .resumed state depth) (stepping : state.isStepping = true) :
    Met s t state depth kind frame (s.lookAt t kind frame) := by
  have going : t.control.state.isStepping = true := by
    rw [steps]
    exact stepping
  by_cases heeded : s.Heeds frame
  · have place := s.prepared_sameFrames t kind frame
    have threads := s.decided_threads t kind frame
    have grown := s.decided_messages t kind frame
    rw [lookAt_of_traced heeded.traced fun _ => heeded.unfiltered]
    have reads (reason : StopReason) (top : FrameRef)
        (stops : (s.decided t kind frame).2 = .suspend reason top) :=
      stepDone_of_decide unasked steps stepping stops
    have undone (quiet : ∀ reason top, (s.decided t kind frame).2 ≠ .suspend reason top)
        (reason : StopReason) (top : FrameRef) (_ : s.Heeds frame) :
        ¬ StepDone s.program depth state kind frame reason top := by
      intro done
      obtain ⟨reason', top', stops⟩ :=
        decide_of_stepDone (s := s.prepared t kind frame) steps stepping
        (done.of_sameFrames place)
      exact quiet reason' top' stops
    cases decided : s.decided t kind frame with
    | mk s' decision =>
        rw [decided] at threads grown reads undone
        have known' : s'.thread? t.id = some t := by rwa [thread?, threads]
        cases decision with
        | noInterest =>
            rw [apply, if_pos going]
            refine .on known' (undone ?_)
            rintro reason top ⟨⟩
        | continue_ =>
            refine .on known' (undone ?_)
            rintro reason top ⟨⟩
        | suspend reason top =>
            rcases reads reason top rfl with hit | done
            · exact .broken hit (thread?_suspend known')
            · rw [apply_of_plain done.plain]
              exact .done heeded (done.of_sameFrames place.symm) (stoppedIn_suspend known' grown)
  · rw [lookAt_of_not_heeds heeded going]
    exact .on known fun _ _ heeds => absurd heeds heeded

/-- What comes of an event of a thread on a step. Other threads do not come into it. -/
theorem met_event {who : ThreadRef} (lasting : s.finished = false)
    (known : s.thread? who.id = some t)
    (outside : t.inEngine = false) (unasked : t.suspendRequested = false)
    (steps : t.control = .resumed state depth) (stepping : state.isStepping = true) :
    Met s t state depth kind frame (s.event who kind frame) := by
  have introduced := introduce_of_known known
  have unskipped : s.isSkipped s.breakpoints.skips.contains t kind frame = false := by
    rw [isSkipped, steps]
    show (!state.isStepping && _ && _) = false
    rw [stepping]
    rfl
  have looked : s.event who kind frame = s.lookAt t kind frame := by
    rw [event_eq_lookAt lasting (by rwa [introduced]) (by rwa [introduced]), introduced]
  rw [← thread?_id known] at known
  rw [looked]
  exact met_lookAt known unasked steps stepping

end

section

variable {s : Session} {who : ThreadRef} {kind : EventKind} {frame : FrameRef}

/-- An event that stops its thread has been looked at. -/
theorem event_of_blocked (blocked : (s.event who kind frame).2 = .blocked) :
    s.event who kind frame = (s.introduce who).1.lookAt (s.introduce who).2 kind frame := by
  rw [event] at blocked ⊢
  rcases s.eventSkipping_cases s.breakpoints.skips.contains who kind frame with
    ⟨-, ignored⟩ | passed | looked
  · rw [ignored] at blocked
    cases blocked
  · rw [passed] at blocked
    cases blocked
  · exact looked

/-- The look at an event stops the thread only by a decision, about an event that the filters let
pass. -/
theorem lookAt_of_blocked {t : Thread} (blocked : (s.lookAt t kind frame).2 = .blocked) :
    s.filter.isExcluded (s.fileOf frame) = false ∧
      (t.control.state.isStepping = true → s.filter.isStepFiltered (s.fileOf frame) = false) ∧
      ∃ reason top, (s.decided t kind frame).2 = .suspend reason top := by
  obtain ⟨s', -, passed⟩ | ⟨traced, unfiltered⟩ := s.lookAt_cases t kind frame
  · rw [passed] at blocked
    cases blocked
  · refine ⟨traced, unfiltered, ?_⟩
    rw [lookAt_of_traced traced unfiltered] at blocked
    cases decision : (s.decided t kind frame).2 with
    | noInterest | continue_ =>
        rw [decision] at blocked
        cases blocked
    | suspend reason top => exact ⟨reason, top, rfl⟩

/-- Only an event that stops its thread changes a thread. -/
theorem threads_of_done {t : Thread} {traced : Bool}
    (done : (s.lookAt t kind frame).2 = .done traced) :
    (s.lookAt t kind frame).1.threads = s.threads := by
  obtain ⟨s', threads, passed⟩ | ⟨traced, unfiltered⟩ := s.lookAt_cases t kind frame
  · rw [passed]
    exact threads
  · have same := s.decided_threads t kind frame
    rw [lookAt_of_traced traced unfiltered] at done ⊢
    cases decision : (s.decided t kind frame).2 with
    | noInterest =>
        rw [apply]
        split
        · exact same
        · obtain ⟨skips, memoized⟩ := (s.decided t kind frame).1.memoize_eq (s.skipKey? kind frame)
            s.breakpoints.snapshot.generation
          rw [memoized]
          exact same
    | continue_ => exact same
    | suspend reason top =>
        rw [decision] at done
        cases done

/-- Only a session that goes on, and a thread outside the engine, can be stopped by an event. -/
theorem outside_of_blocked (blocked : (s.event who kind frame).2 = .blocked) :
    s.finished = false ∧ (s.introduce who).2.inEngine = false := by
  rw [event, eventSkipping] at blocked
  split at blocked
  · cases blocked
  · rename_i lasting
    dsimp only at blocked
    split at blocked
    · cases blocked
    · rename_i looked
      rw [Bool.or_eq_true, not_or] at looked
      exact ⟨by simpa using lasting, by simpa using looked.1⟩

/-- A thread that a look at an event stops for a step has met it in a file that is heeded, at a line
in the frame of the event or at a return in its caller. -/
theorem step_of_lookAt {t u : Thread} {reason : StopReason} (known : s.thread? t.id = some t)
    (blocked : (s.lookAt t kind frame).2 = .blocked)
    (stopped : (s.lookAt t kind frame).1.thread? t.id = some u)
    (because : u.control.stopReason = some reason) (step : reason.isStep = true) :
    s.Heeds frame ∧ ∃ top, StoppedIn s (s.lookAt t kind frame).1 t.id reason top ∧
      (kind = .line ∧ top = frame ∨ kind = .ret ∧ s.program.caller? frame = some top) := by
  obtain ⟨traced, unfiltered, reason', top, suspends⟩ := lookAt_of_blocked blocked
  have known' : (s.decided t kind frame).1.thread? t.id = some t := by
    rwa [thread?, s.decided_threads]
  obtain ⟨exception, applied, -⟩ := (s.decided t kind frame).1.apply_suspend t kind
    (s.skipKey? kind frame) s.breakpoints.snapshot.generation reason' top
  rw [lookAt_of_traced traced unfiltered, suspends] at stopped ⊢
  rw [applied, thread?_suspend known'] at stopped
  obtain rfl := Option.some.inj stopped
  obtain rfl : reason' = reason := Option.some.inj because
  obtain ⟨stepping, place⟩ := isStepping_of_decide step suspends
  have plain (e : RaisedException) : kind ≠ .exception e := by
    rintro rfl
    simp at place
  rw [apply_of_plain plain]
  rw [(s.prepared_sameFrames t kind frame).caller?] at place
  exact ⟨⟨traced, unfiltered stepping⟩, top,
    stoppedIn_suspend known' (s.decided_messages t kind frame), place⟩

/-- A thread stops for a step only at an event in a file that is neither excluded nor step-filtered:
at a line in its own frame, and at a return in the caller, wherever that is. -/
theorem step_stops_at_heeded_events {t : Thread} {reason : StopReason}
    (blocked : (s.event who kind frame).2 = .blocked)
    (stopped : (s.event who kind frame).1.thread? who.id = some t)
    (because : t.control.stopReason = some reason) (step : reason.isStep = true) :
    s.Heeds frame ∧ ∃ top, StoppedIn s (s.event who kind frame).1 who.id reason top ∧
      (kind = .line ∧ top = frame ∨ kind = .ret ∧ s.program.caller? frame = some top) := by
  have looked := event_of_blocked blocked
  have known := s.thread?_introduce who
  have same := thread?_id known
  rw [looked] at blocked stopped ⊢
  rw [← same] at known stopped
  obtain ⟨⟨traced, unfiltered⟩, top, stops, place⟩ :=
    step_of_lookAt known blocked stopped because step
  rw [same] at stops
  refine ⟨?_, top, stops.of_earlier (s.introduce_messages who), ?_⟩
  -- Introducing the thread changes neither the filters nor the program.
  · obtain ⟨threads, outbox, introduced⟩ := s.introduce_eq who
    rw [introduced] at traced unfiltered
    exact ⟨traced, unfiltered⟩
  · obtain ⟨threads, outbox, introduced⟩ := s.introduce_eq who
    rwa [introduced] at place

end

/-- A library calls back into a program, and stepping is to pass through the library. -/
def callback : Program :=
  { frames := #[{ id := 1, function := "each", file := "/lib/run.x", line := 7 },
      { id := 2, function := "item", file := "/app/main.x", line := 3, caller := some 0 }] }

/-- A breakpoint has stopped the callback, and the controller has told the thread to step over its
line. -/
def leavingCallback : Session :=
  (start { config := { stepFilters := ["/lib/*"] } } callback).run
    [.request 111 1 "7\tline\t/app/main.x\t3", .event mainThread .line 1, .request 108 3 "1",
      .serve 0]

def leftCallback : Thread where
  ref := mainThread
  control := .stopped .stepOver
  inEngine := true
  suspension := some ⟨0, none⟩

/-- The file of the return is heeded and that of the caller is not. What the theorem says holds
here, and no more: the stop is in the caller. -/
theorem step_stops_after_heeded_return :
    (leavingCallback.event mainThread .ret 1).2 = .blocked ∧
      (leavingCallback.event mainThread .ret 1).1.thread? mainThread.id = some leftCallback ∧
      leavingCallback.Heeds 1 ∧ ∃ top,
        StoppedIn leavingCallback (leavingCallback.event mainThread .ret 1).1 mainThread.id
          .stepOver
          top ∧
        (EventKind.ret = .line ∧ top = 1 ∨
          EventKind.ret = .ret ∧ leavingCallback.program.caller? 1 = some top) := by
  have blocked : (leavingCallback.event mainThread .ret 1).2 = .blocked := by decide +kernel
  have stopped : (leavingCallback.event mainThread .ret 1).1.thread? mainThread.id =
      some leftCallback := by
    decide +kernel
  exact ⟨blocked, stopped, step_stops_at_heeded_events blocked stopped rfl rfl⟩

/-- A step out of the callback does not pass through the library: the thread stops there. -/
theorem step_stops_in_filtered_caller :
    ∃ t top, (leavingCallback.event mainThread .ret 1).2 = .blocked ∧
      (leavingCallback.event mainThread .ret 1).1.thread? mainThread.id = some t ∧
      t.control.stopReason = some .stepOver ∧ t.suspension = some ⟨top, none⟩ ∧
      ¬ leavingCallback.Heeds top := by
  refine ⟨leftCallback, 0, by decide +kernel, by decide +kernel, rfl, rfl, ?_⟩
  intro heeded
  have filtered : leavingCallback.filter.isStepFiltered (leavingCallback.fileOf 0) = true := by
    decide +kernel
  rw [heeded.unfiltered] at filtered
  cases filtered

end Session
end RemoteDebugger
