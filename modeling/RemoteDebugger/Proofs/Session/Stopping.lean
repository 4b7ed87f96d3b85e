import RemoteDebugger.Proofs.Session.Remarks
import RemoteDebugger.Proofs.Session.Skipping

/-!
# Stops at lines

No breakpoint is missed. A line event passes the memo, the two file filters and the commands that
wait for its thread before its breakpoints are looked at. Since the memo is sound and commands move
no frame, none of these can hide a breakpoint that hits.
-/

namespace RemoteDebugger.Session

def Reachable (s : Session) : Prop :=
  ∃ setup program inputs, s = (start setup program).run inputs

theorem Reachable.run {s : Session} (reachable : Reachable s) (inputs : List Input) :
    Reachable (s.run inputs) := by
  obtain ⟨setup, program, past, rfl⟩ := reachable
  exact ⟨setup, program, past ++ inputs, (run_append _ past inputs).symm⟩

theorem Reachable.memoSound {s : Session} (h : Reachable s) : MemoSound s := by
  obtain ⟨setup, program, inputs, rfl⟩ := h
  exact memoSound_run setup program inputs

/-- The program in which the breakpoints of a line are looked at: the commands that waited for the
thread have been carried out. -/
def programAtLine (s : Session) (who : ThreadRef) (frame : FrameRef) : Program :=
  ((s.introduce who).1.runPending (s.introduce who).2 frame).program

section

variable {s : Session} {t : Thread} {frame : FrameRef}

/-- A place with a breakpoint, in a file that is not excluded, is never skipped. This is what the
soundness of the memo is for: a memoized line has no breakpoint. -/
theorem isSkipped_line_eq_false (sound : MemoSound s)
    (traced : s.filter.isExcluded (s.fileOf frame) = false) {b : Breakpoint}
    (placed : b ∈ s.breakpoints.snapshot.at_ (s.fileOf frame) (s.program.frame frame).line) :
    s.isSkipped s.breakpoints.skips.contains t .line frame = false := by
  rw [Bool.eq_false_iff]
  intro skipped
  simp only [isSkipped, Bool.and_eq_true, Option.any_eq_true] at skipped
  obtain ⟨-, key, place, memoized⟩ := skipped
  obtain rfl := Option.some.inj place
  rcases sound _ memoized with idle | excluded
  · have none_here : s.breakpoints.snapshot.at_ (s.fileOf frame) (s.program.frame frame).line =
        [] :=
      idle
    rw [none_here] at placed
    cases placed
  · rw [traced] at excluded
    cases excluded

/-- The session in which an event is decided: its call has been recorded, and the commands that
waited for the thread have been carried out. -/
def prepared (s : Session) (t : Thread) (kind : EventKind) (frame : FrameRef) : Session :=
  (s.recordCall kind frame (s.fileOf frame)).runPending t frame

theorem prepared_sameFrames (s : Session) (t : Thread) (kind : EventKind) (frame : FrameRef) :
    s.program.SameFrames (s.prepared t kind frame).program := by
  have same := (s.recordCall kind frame (s.fileOf frame)).runPending_sameFrames t frame
  rwa [(s.recordCall_looks kind frame (s.fileOf frame)).program] at same

def decided (s : Session) (t : Thread) (kind : EventKind) (frame : FrameRef) : Session × Decision :=
  (s.prepared t kind frame).decide t kind frame (s.fileOf frame) s.breakpoints.snapshot

/-- Deciding about an event changes no thread. What is decided is carried out afterwards. -/
@[simp] theorem decided_threads (s : Session) (t : Thread) (kind : EventKind) (frame : FrameRef) :
    (s.decided t kind frame).1.threads = s.threads := by
  have looks := (s.prepared t kind frame).decide_looks t kind frame (s.fileOf frame)
    s.breakpoints.snapshot
  have serves := (s.recordCall kind frame (s.fileOf frame)).runPending_serves t frame
  have recorded := s.recordCall_looks kind frame (s.fileOf frame)
  exact looks.serves.threads.trans (serves.threads.trans recorded.serves.threads)

/-- Nothing that has been sent is taken back before an event is decided. What may have been added
are remarks. -/
theorem decided_messages (s : Session) (t : Thread) (kind : EventKind) (frame : FrameRef) :
    s.outbox.messages <+: (s.decided t kind frame).1.outbox.messages := by
  have recorded : Wire.Outbox.Remarks (fun _ => True) _ _ :=
    s.recordCall_remarks kind frame (s.fileOf frame)
  have answered : Wire.Outbox.Remarks (fun _ => True) _ _ :=
    runPending_remarks (s := s.recordCall kind frame (s.fileOf frame))
      (fun _ _ _ _ => trivial) t frame
  have remarked : Wire.Outbox.Remarks (fun _ => True) _ _ :=
    (s.prepared t kind frame).decide_remarks t kind frame (s.fileOf frame) s.breakpoints.snapshot
  exact ((recorded.trans answered).trans remarked).messages

/-- An event that the filters let pass is decided, and the decision is carried out. -/
theorem lookAt_of_traced (traced : s.filter.isExcluded (s.fileOf frame) = false)
    (unfiltered : t.control.state.isStepping = true →
      s.filter.isStepFiltered (s.fileOf frame) = false) (kind : EventKind) :
    s.lookAt t kind frame = (s.decided t kind frame).1.apply t kind (s.skipKey? kind frame)
      s.breakpoints.snapshot.generation (s.decided t kind frame).2 := by
  have passes : (t.control.state.isStepping && s.filter.isStepFiltered (s.fileOf frame)) =
      false := by
    cases steps : t.control.state.isStepping with
    | false => rfl
    | true => rw [unfiltered steps, Bool.and_false]
  rw [lookAt]
  simp only [traced, passes, Bool.false_eq_true, if_false]
  rfl

/-- The filters end the look at an event, and no thread is touched, or they let the event pass. -/
theorem lookAt_cases (s : Session) (t : Thread) (kind : EventKind) (frame : FrameRef) :
    (∃ s' : Session, s'.threads = s.threads ∧ s.lookAt t kind frame = (s', .done false)) ∨
      s.filter.isExcluded (s.fileOf frame) = false ∧
        (t.control.state.isStepping = true → s.filter.isStepFiltered (s.fileOf frame) = false) := by
  cases excluded : s.filter.isExcluded (s.fileOf frame) with
  | true =>
      left
      rw [lookAt, if_pos excluded]
      refine ⟨_, ?_, rfl⟩
      split
      · rfl
      · obtain ⟨skips, memoized⟩ :=
          s.memoize_eq (s.skipKey? kind frame) s.breakpoints.snapshot.generation
        rw [memoized]
  | false =>
      have traced : ¬ s.filter.isExcluded (s.fileOf frame) = true := by simp [excluded]
      by_cases filtered : (t.control.state.isStepping && s.filter.isStepFiltered (s.fileOf frame)) =
        true
      · left
        rw [lookAt, if_neg traced, if_pos filtered]
        exact ⟨s, rfl, rfl⟩
      · right
        refine ⟨rfl, fun stepping => ?_⟩
        simpa [stepping] using filtered

/-- To look at a line with a breakpoint that hits is to suspend its thread there, with nothing but
remarks before. -/
theorem lookAt_suspends
    (traced : s.filter.isExcluded (s.fileOf frame) = false)
    (unfiltered : t.control.state.isStepping = true →
      s.filter.isStepFiltered (s.fileOf frame) = false) {b : Breakpoint}
    (placed : b ∈ s.breakpoints.snapshot.at_ (s.fileOf frame) (s.program.frame frame).line)
    (stops : b.expression = none)
    (applies : b.appliesTo (s.program.frame frame).function = true)
    (holds : (s.runPending t frame).conditionHolds frame b = .ok true) :
    ∃ (s' : Session) (reason : StopReason), s'.threads = s.threads ∧
      s.outbox.messages <+: s'.outbox.messages ∧
      s.lookAt t .line frame = (s'.suspend t reason frame none, .blocked) := by
  have same := s.prepared_sameFrames t .line frame
  rw [← same.line frame] at placed
  rw [← same.function frame] at applies
  -- A line is no call to be recorded.
  have prepared_line : s.prepared t .line frame = s.runPending t frame := rfl
  obtain ⟨reason, suspends⟩ :=
    decideLine_suspends (t := t) placed stops applies (prepared_line ▸ holds)
  have decided : (s.decided t .line frame).2 = .suspend reason frame := suspends
  refine ⟨(s.decided t .line frame).1, reason, s.decided_threads t .line frame,
    s.decided_messages t .line frame, ?_⟩
  rw [lookAt_of_traced traced unfiltered, decided]
  rfl

end

/-- Nothing that has been sent is taken back when a thread is introduced. At most its announcement
is new. -/
theorem introduce_messages (s : Session) (who : ThreadRef) :
    s.outbox.messages <+: (s.introduce who).1.outbox.messages := by
  cases known : s.thread? who.id with
  | some t => simp [known]
  | none =>
      rw [introduce_of_new known]
      show s.outbox.messages <+: (s.outbox.notify .threadCreate _).messages
      rw [Wire.Outbox.messages_notify]
      exact List.prefix_append _ _

/-- A new thread is outside the engine. -/
theorem inEngine_introduce {s : Session} {who : ThreadRef}
    (outside : ∀ t, s.thread? who.id = some t → t.inEngine = false) :
    (s.introduce who).2.inEngine = false := by
  cases known : s.thread? who.id with
  | some t => simpa [known] using outside t known
  | none => simp [known]

/-- A new thread is not stepping. -/
theorem isStepping_introduce {s : Session} {who : ThreadRef}
    (stepping : (s.introduce who).2.control.state.isStepping = true) :
    ∃ t, s.thread? who.id = some t ∧ t.control.state.isStepping = true := by
  cases known : s.thread? who.id with
  | some t =>
      rw [introduce_of_known known] at stepping
      exact ⟨t, rfl, stepping⟩
  | none =>
      rw [introduce_of_new known] at stepping
      cases stepping

/-- An event is looked at if the session lasts, the thread is outside the engine and the place is
not skipped. The thread is the one registered afterwards, which may be new. -/
theorem event_eq_lookAt {s : Session} {who : ThreadRef} {kind : EventKind} {frame : FrameRef}
    (lasting : s.finished = false) (outside : (s.introduce who).2.inEngine = false)
    (unskipped : (s.introduce who).1.isSkipped s.breakpoints.skips.contains (s.introduce who).2
      kind frame = false) :
    s.event who kind frame = (s.introduce who).1.lookAt (s.introduce who).2 kind frame := by
  rw [event, eventSkipping]
  simp only [lasting, outside, unskipped, Bool.or_self, Bool.false_eq_true, if_false]

/-- The events of a thread inside the engine are passed over. -/
theorem event_of_inside {s : Session} {who : ThreadRef} {kind : EventKind} {frame : FrameRef}
    (lasting : s.finished = false)
    (inside : (s.introduce who).2.inEngine = true) :
    s.event who kind frame = ((s.introduce who).1, .done false) := by
  rw [event, eventSkipping]
  simp only [lasting, inside, Bool.true_or, Bool.false_eq_true, if_false, if_true]

/-- Whatever the session has been through, a line with a breakpoint that hits stops its thread in
the very frame, and the stop is announced: whatever is memoized, however the thread goes on, and
whatever other breakpoints share the line. The condition is evaluated where the commands that waited
for the thread have been carried out; for an evaluator that depends on the frame and the text only,
this is no restriction. -/
theorem no_breakpoint_is_missed {s : Session} (reachable : Reachable s) {who : ThreadRef}
    {frame : FrameRef} {b : Breakpoint} (lasting : s.finished = false)
    (outside : ∀ t, s.thread? who.id = some t → t.inEngine = false)
    (traced : s.filter.isExcluded (s.fileOf frame) = false)
    (unfiltered : ∀ t, s.thread? who.id = some t → t.control.state.isStepping = true →
      s.filter.isStepFiltered (s.fileOf frame) = false)
    (placed : b ∈ s.breakpoints.snapshot.at_ (s.fileOf frame) (s.program.frame frame).line)
    (stops : b.expression = none)
    (applies : b.appliesTo (s.program.frame frame).function = true)
    (holds : ∀ c, b.condition = some c → ∃ v h,
      s.runtime.evaluate (s.programAtLine who frame) frame c = .ok (v, h) ∧ v.isTruthy h = true) :
    ∃ reason t before,
      (s.event who .line frame).2 = .blocked ∧
      (s.event who .line frame).1.thread? who.id = some t ∧
      t.control = .stopped reason ∧ t.suspension = some ⟨frame, none⟩ ∧ t.inEngine = true ∧
      (s.event who .line frame).1.outbox = Wire.Outbox.notify before .threadSuspend
        ((s.event who .line frame).1.suspendedPayload t reason frame) ∧
      s.outbox.messages <+: before.messages := by
  -- Introducing the thread changes nothing that the hypotheses speak of.
  obtain ⟨threads, outbox, introduced⟩ := s.introduce_eq who
  have breakpoints : (s.introduce who).1.breakpoints = s.breakpoints := by rw [introduced]
  have filter : (s.introduce who).1.filter = s.filter := by rw [introduced]
  have program : (s.introduce who).1.program = s.program := by rw [introduced]
  have file : (s.introduce who).1.fileOf frame = s.fileOf frame := by rw [introduced]; rfl
  have traced' : (s.introduce who).1.filter.isExcluded ((s.introduce who).1.fileOf frame) =
      false := by
    rwa [filter, file]
  have here : b ∈ (s.introduce who).1.breakpoints.snapshot.at_ ((s.introduce who).1.fileOf frame)
      ((s.introduce who).1.program.frame frame).line := by
    rwa [breakpoints, file, program]
  have holds' : ((s.introduce who).1.runPending (s.introduce who).2 frame).conditionHolds frame b =
      .ok true := by
    have runtime : ((s.introduce who).1.runPending (s.introduce who).2 frame).runtime =
        s.runtime := by
      rw [(runPending_serves _ _ _).runtime, introduced]
    rw [conditionHolds]
    cases conditional : b.condition with
    | none => rfl
    | some c =>
        obtain ⟨v, h, evaluated, truthy⟩ := holds c conditional
        rw [programAtLine] at evaluated
        simp only [runtime, evaluated, Except.map, truthy]
  have unskipped := isSkipped_line_eq_false (t := (s.introduce who).2)
    (memoSound_introduce reachable.memoSound who) traced' here
  rw [breakpoints] at unskipped
  obtain ⟨s', reason, same, grown, looked⟩ := lookAt_suspends (t := (s.introduce who).2) traced'
    (by
      intro stepping
      obtain ⟨t, known, steps⟩ := isStepping_introduce stepping
      rw [filter, file]
      exact unfiltered t known steps)
    here stops (by rwa [program]) holds'
  have known : s'.thread? (s.introduce who).2.id = some (s.introduce who).2 := by
    have registered := s.thread?_introduce who
    rw [thread?_id registered, thread?, same]
    exact registered
  rw [event_eq_lookAt lasting (inEngine_introduce outside) unskipped, looked]
  refine ⟨reason, _, s'.outbox, rfl, ?_, rfl, rfl, rfl, rfl, (s.introduce_messages who).trans grown⟩
  rw [← s.introduce_id who]
  exact thread?_suspend known

/-- A line is memoized before a breakpoint with a condition is set there, in a session whose runtime
finds every expression true. -/
def setOnMemoizedLine : Session :=
  (start { runtime := .ofEvaluator fun p _ _ => .ok (.bool true, p.heap) } oneLine).run
    [.event mainThread .line 0, .request 111 1 "7\tline\t/app/main.x\t3\tready"]

/-- The breakpoint was set after its line had been memoized, and the next event there stops all the
same. -/
theorem breakpoint_on_memoized_line_hits :
    ∃ reason t before,
      (setOnMemoizedLine.event mainThread .line 0).2 = .blocked ∧
      (setOnMemoizedLine.event mainThread .line 0).1.thread? mainThread.id = some t ∧
      t.control = .stopped reason ∧ t.suspension = some ⟨0, none⟩ ∧ t.inEngine = true ∧
      (setOnMemoizedLine.event mainThread .line 0).1.outbox =
        Wire.Outbox.notify before .threadSuspend
          ((setOnMemoizedLine.event mainThread .line 0).1.suspendedPayload t reason 0) ∧
      setOnMemoizedLine.outbox.messages <+: before.messages := by
  have known : setOnMemoizedLine.thread? mainThread.id = some { ref := mainThread } := by
    decide +kernel
  refine no_breakpoint_is_missed (b := ⟨7, ⟨"/app/main.x", 3⟩, some "ready", none, none⟩)
    ⟨_, _, _, rfl⟩ rfl ?_ (by decide +kernel) ?_ (by decide +kernel) rfl rfl
    fun c _ => ⟨.bool true, _, rfl, rfl⟩
  · intro t registered
    obtain rfl := Option.some.inj (known.symm.trans registered)
    rfl
  · intro t registered stepping
    obtain rfl := Option.some.inj (known.symm.trans registered)
    cases stepping

end RemoteDebugger.Session
