import RemoteDebugger.Proofs.Breakpoint.Memo
import RemoteDebugger.Proofs.Session.Effect

/-!
# Decisions about events

When an event is of no interest, when it can be of none, and when a line stops its thread. The first
two meet in the places that may be memoized: a decision against a snapshot is memoized only for a
place that the snapshot leaves idle, and at an idle place a thread that is neither stepping nor
asked to stop finds nothing to do.
-/

namespace RemoteDebugger

namespace Session

variable {s : Session} {t : Thread} {frame : FrameRef} {file : String} {snapshot : Snapshot}

/-- What is of no interest is idle: no later event at the place can stop a thread for a
breakpoint. -/
theorem idle_of_noInterest {kind : EventKind} {scope : SkipScope}
    (memoized : kind.skipScope = some scope)
    (h : (s.decide t kind frame file snapshot).2 = .noInterest) :
    SkipKey.Idle ⟨file, (s.program.frame frame).line, scope⟩ snapshot := by
  cases kind with
  | call =>
      obtain rfl := Option.some.inj memoized
      simp only [decide, decideCall, ite_eq_right_iff, reduceCtorEq, imp_false,
        Bool.or_eq_true, not_or, Bool.not_eq_true] at h
      exact ⟨h.1.2, h.2⟩
  | line =>
      obtain rfl := Option.some.inj memoized
      simp only [decide, decideLine] at h
      split at h
      · cases h
      · split at h
        · cases h
        · split at h
          · cases h
          · split at h
            · cases h
            · rename_i quiet
              simp only [Bool.or_eq_true, not_or, Bool.not_eq_true, Bool.not_eq_false'] at quiet
              exact List.isEmpty_iff.mp quiet.2
  | ret =>
      obtain rfl := Option.some.inj memoized
      trivial
  | exception e => cases memoized

theorem stepEnd?_of_not_stepping (h : t.control.state.isStepping = false) :
    s.stepEnd? t frame = none := by
  rw [stepEnd?.eq_def]
  cases state : t.control.state <;> simp_all [ControlState.isStepping]

/-- At an idle place a thread that has nothing else to do finds nothing, and nothing changes. -/
theorem decide_of_idle {kind : EventKind} {scope : SkipScope}
    (memoized : kind.skipScope = some scope) (steady : t.control.state.isStepping = false)
    (unasked : t.suspendRequested = false)
    (idle : SkipKey.Idle ⟨file, (s.program.frame frame).line, scope⟩ snapshot) :
    s.decide t kind frame file snapshot = (s, .noInterest) := by
  cases kind with
  | call =>
      obtain rfl := Option.some.inj memoized
      obtain ⟨no_lines, no_exceptions⟩ := idle
      cases state : t.control.state <;>
        simp_all [decide, decideCall, ControlState.isStepping]
  | line =>
      obtain rfl := Option.some.inj memoized
      have none_here : snapshot.at_ file (s.program.frame frame).line = [] := idle
      simp [decide, decideLine, unasked, none_here, checkBreakpoints, steady,
        stepEnd?_of_not_stepping steady]
  | ret =>
      obtain rfl := Option.some.inj memoized
      cases state : t.control.state <;>
        simp_all [decide, decideReturn, ControlState.isStepping]
  | exception e => cases memoized

theorem Looks.conditionHolds {s' : Session} (h : Looks s s') (frame : FrameRef) (b : Breakpoint) :
    s'.conditionHolds frame b = s.conditionHolds frame b := by
  rw [Session.conditionHolds, Session.conditionHolds, h.serves.runtime, h.program]

/-- Whatever stands before it at its line, a breakpoint that hits stops the thread; an earlier one
may only stop it first. -/
theorem checkBreakpoints_isSome {breakpoints : List Breakpoint} {b : Breakpoint}
    (member : b ∈ breakpoints) (stops : b.expression = none)
    (applies : b.appliesTo (s.program.frame frame).function = true)
    (holds : s.conditionHolds frame b = .ok true) :
    ∃ reason, (s.checkBreakpoints t frame breakpoints).2 = some reason := by
  induction breakpoints generalizing s with
  | nil => cases member
  | cons first rest ih =>
      have looks := s.checkBreakpoint_looks t frame first
      cases checked : s.checkBreakpoint t frame first with
      | mk s' reason =>
          rw [checked] at looks
          cases reason with
          | some reason => exact ⟨reason, by simp [checkBreakpoints, checked]⟩
          | none =>
              simp only [checkBreakpoints, checked]
              rcases List.mem_cons.mp member with rfl | later
              · simp [checkBreakpoint, applies, holds, stops] at checked
              · refine ih later ?_ ?_
                · rwa [looks.program]
                · rwa [looks.conditionHolds]

/-- A line with a breakpoint that hits stops its thread in the very frame, whatever the state of the
thread. -/
theorem decideLine_suspends {b : Breakpoint}
    (member : b ∈ snapshot.at_ file (s.program.frame frame).line) (stops : b.expression = none)
    (applies : b.appliesTo (s.program.frame frame).function = true)
    (holds : s.conditionHolds frame b = .ok true) :
    ∃ reason, (s.decideLine t frame file snapshot).2 = .suspend reason frame := by
  obtain ⟨reason, hit⟩ := checkBreakpoints_isSome (t := t) member stops applies holds
  rw [decideLine]
  split
  · exact ⟨_, rfl⟩
  · cases checked : s.checkBreakpoints t frame (snapshot.at_ file (s.program.frame frame).line) with
    | mk s' found =>
        rw [checked] at hit
        obtain rfl : found = some reason := hit
        exact ⟨reason, by simp [checked]⟩

variable {reason : StopReason} {top : FrameRef}

/-- A breakpoint that stops a thread does so under its own identifier, whether its condition holds
or cannot be evaluated. -/
theorem checkBreakpoint_reason {b : Breakpoint}
    (h : (s.checkBreakpoint t frame b).2 = some reason) :
    reason = .breakpoint b.id := by
  rw [checkBreakpoint] at h
  split at h
  · split at h
    · cases h
    · split at h
      · cases h
      · exact (Option.some.inj h).symm
    · dsimp only at h
      split at h
      · exact (Option.some.inj h).symm
      · cases h
  · cases h

/-- The reason names one of the breakpoints that were checked. Which one is not said: it is the
first that stops. -/
theorem checkBreakpoints_reason {breakpoints : List Breakpoint}
    (h : (s.checkBreakpoints t frame breakpoints).2 = some reason) :
    ∃ b ∈ breakpoints, reason = .breakpoint b.id := by
  induction breakpoints generalizing s with
  | nil => cases h
  | cons b rest ih =>
      rw [checkBreakpoints] at h
      split at h
      · rename_i hit checked
        obtain rfl := Option.some.inj h
        exact ⟨b, List.mem_cons_self, checkBreakpoint_reason (congrArg Prod.snd checked)⟩
      · obtain ⟨b', later, reasons⟩ := ih h
        exact ⟨b', List.mem_cons_of_mem _ later, reasons⟩

/-- A step ends under one of three reasons. The reason tells the kind of the step, and not the place
where it ended. -/
theorem stepEnd?_reason (h : s.stepEnd? t frame = some reason) :
    reason = .stepInto ∨ reason = .stepOver ∨ reason = .runToLine := by
  rw [stepEnd?.eq_def] at h
  split at h
  · exact .inl (Option.some.inj h).symm
  · split at h
    · exact .inr (.inl (Option.some.inj h).symm)
    · cases h
  · dsimp only at h
    split at h
    · exact .inr (.inr (Option.some.inj h).symm)
    · cases h
  · cases h

/-- The exception filters stop for an exception and for nothing else. -/
theorem filterStop_reason {e : RaisedException} {ignored : Bool} {filters : List ExceptionFilter}
    (h : Snapshot.filterStop e ignored filters = some reason) : reason.isException = true := by
  induction filters with
  | nil => cases h
  | cons f rest ih =>
      rw [Snapshot.filterStop] at h
      split at h
      · split at h
        · obtain rfl := Option.some.inj h
          rfl
        · split at h
          · obtain rfl := Option.some.inj h
            rfl
          · exact ih h
      · exact ih h

/-- What makes an event stop its thread: at a line a request, a breakpoint or the end of a step, at
a return the end of a step, and an exception to stop on. -/
inductive StopCause (s : Session) (t : Thread) (frame : FrameRef) (file : String)
    (snapshot : Snapshot) :
    EventKind → StopReason → FrameRef → Prop
  | asked (asked : t.suspendRequested = true) :
      StopCause s t frame file snapshot .line .suspend frame
  | hit (b : Breakpoint) (placed : b ∈ snapshot.at_ file (s.program.frame frame).line) :
      StopCause s t frame file snapshot .line (.breakpoint b.id) frame
  | ended {reason : StopReason} (done : s.stepEnd? t frame = some reason) :
      StopCause s t frame file snapshot .line reason frame
  | left {reason : StopReason} {caller : FrameRef}
      (step : t.control.state = .stepOver ∧ reason = .stepOver ∨
        t.control.state = .stepReturn ∧ reason = .stepReturn)
      (inside : t.control.withinAnchor (s.program.depth frame) = true)
      (parent : s.program.caller? frame = some caller) :
      StopCause s t frame file snapshot .ret reason caller
  | raised (e : RaisedException) {reason : StopReason} (exceptional : reason.isException = true) :
      StopCause s t frame file snapshot (.exception e) reason frame

theorem Looks.stepEnd? {s' : Session} (h : Looks s s') (t : Thread) (frame : FrameRef) :
    s'.stepEnd? t frame = s.stepEnd? t frame := by
  rw [Session.stepEnd?, Session.stepEnd?, h.program]

/-- A stop at a line has a cause: a request to stop, a breakpoint there or the end of a step, looked
for in this order. -/
theorem decideLine_cause (h : (s.decideLine t frame file snapshot).2 = .suspend reason top) :
    StopCause s t frame file snapshot .line reason top := by
  have looks := s.checkBreakpoints_looks t frame (snapshot.at_ file (s.program.frame frame).line)
  rw [decideLine] at h
  dsimp only at h
  split at h
  · rename_i asked
    cases h
    exact .asked asked
  · split at h
    · rename_i checked
      cases h
      obtain ⟨b, placed, rfl⟩ := checkBreakpoints_reason (congrArg Prod.snd checked)
      exact .hit b placed
    · rename_i checked
      rw [checked] at looks
      split at h
      · rename_i done
        cases h
        rw [looks.stepEnd?] at done
        exact .ended done
      · split at h <;> cases h

/-- A stop at a return has a cause: a step that ends in the caller. Breakpoints are not looked at
there. -/
theorem decideReturn_cause (h : s.decideReturn t frame = .suspend reason top) :
    StopCause s t frame file snapshot .ret reason top := by
  rw [decideReturn] at h
  dsimp only at h
  split at h
  case h_1 state =>
    split at h
    · split at h
      · cases h
        exact .left (.inl ⟨state, rfl⟩) ‹_› ‹_›
      · cases h
    · cases h
  case h_2 state =>
    split at h
    · split at h
      · cases h
        exact .left (.inr ⟨state, rfl⟩) ‹_› ‹_›
      · cases h
    · cases h
  all_goals cases h

/-- An event stops its thread for one of the causes only. -/
theorem decide_cause {kind : EventKind}
    (h : (s.decide t kind frame file snapshot).2 = .suspend reason top) :
    StopCause s t frame file snapshot kind reason top := by
  cases kind with
  | call =>
      simp only [decide, decideCall] at h
      split at h <;> split at h <;> cases h
  | line => exact decideLine_cause h
  | ret => exact decideReturn_cause h
  | exception e =>
      simp only [decide, decideException] at h
      split at h
      · rename_i stop
        cases h
        exact .raised e (filterStop_reason stop)
      · cases h

/-- A thread stops for an exception at exceptions only, and at none for another reason. No event
makes it jump. -/
theorem decide_reason {kind : EventKind}
    (h : (s.decide t kind frame file snapshot).2 = .suspend reason top) :
    (reason.isException = true ↔ ∃ e, kind = .exception e) ∧ reason ≠ .setNextStatement := by
  cases decide_cause h with
  | asked => simp [StopReason.isException]
  | hit b => simp [StopReason.isException]
  | ended done =>
      rcases stepEnd?_reason done with rfl | rfl | rfl <;> simp [StopReason.isException]
  | left step =>
      rcases step with ⟨-, rfl⟩ | ⟨-, rfl⟩ <;> simp [StopReason.isException]
  | raised e exceptional =>
      refine ⟨iff_of_true exceptional ⟨e, rfl⟩, ?_⟩
      rintro rfl
      cases exceptional

end Session

namespace SkipKey

/-- A thread that is not stepping finds, against a snapshot, that an event at the place is of no
interest. -/
def Dismissed (k : SkipKey) (p : Snapshot) : Prop :=
  ∃ (s : Session) (t : Thread) (kind : EventKind) (frame : FrameRef),
    t.control.state.isStepping = false ∧ kind.skipScope = some k.scope ∧
      (s.program.frame frame).line = k.line ∧ (s.decide t kind frame k.file p).2 = .noInterest

theorem Dismissed.idle {k : SkipKey} {p : Snapshot} (h : k.Dismissed p) : k.Idle p := by
  obtain ⟨s, t, kind, frame, -, scope, line, dismissed⟩ := h
  have idle := Session.idle_of_noInterest scope dismissed
  rwa [line] at idle

end SkipKey

end RemoteDebugger
