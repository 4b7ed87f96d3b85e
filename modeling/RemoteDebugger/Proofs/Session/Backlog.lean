import RemoteDebugger.Proofs.Session.Stepping
import RemoteDebugger.Proofs.Session.Waiting

/-!
# Commands wait for one suspension only

A thread may be told to go on more often than it stops. What is left over waits in the queue, and
would end the next suspension at once if it were still there when that begins. It is not: an event
that stops its thread has carried out everything that waits for it, and to tell a running thread to
go on does nothing. The events that leave the queue alone stop no thread.
-/

namespace RemoteDebugger

def Action.isResume : Action → Bool
  | .resume _ => true
  | _ => false

/-- The queue without the commands that tell a thread to go on. -/
def CommandQueue.withoutResumes (q : CommandQueue) (id : String) : CommandQueue :=
  let kept := q.commands.filter fun c => !(c.isFor id && c.action.isResume)
  { q with commands := kept, pending := kept.length }

/-- A queue counts its commands correctly also when those to go on are taken away. -/
theorem CommandQueue.Sound.withoutResumes {q : CommandQueue} (h : q.Sound) (id : String) :
    (q.withoutResumes id).Sound := by
  refine ⟨rfl, fun closed => ?_⟩
  show q.commands.filter _ = []
  rw [h.emptied closed, List.filter_nil]

namespace Session

open CommandQueue

/-- The session without the commands that tell a thread to go on. -/
def withoutResumes (s : Session) (id : String) : Session :=
  { s with queue := s.queue.withoutResumes id }

/-- Of the commands that a running thread carries out, those to go on make no difference. -/
@[simp]
theorem executeAll_filter (s : Session) (t : Thread) (top : FrameRef) (cs : List QueuedCommand) :
    s.executeAll t top (cs.filter fun c => !c.action.isResume) = s.executeAll t top cs := by
  induction cs generalizing s with
  | nil => rfl
  | cons c cs ih =>
      have rest : s.executeAll t top (c :: cs) =
          (s.execute t top false c.action).1.executeAll t top cs := rfl
      obtain ⟨target, action⟩ := c
      cases action with
      | resume state =>
          rw [List.filter_cons_of_neg (by simp [Action.isResume]), ih, rest]
          rfl
      | setNextStatement | getVariable | getFrame | evaluate | changeVariable | completions
        | customOperation | exceptionTrace | reloadCode =>
          rw [List.filter_cons_of_pos rfl, rest, ← ih]
          rfl

variable {s : Session} {t : Thread} {kind : EventKind} {frame : FrameRef}

/-- A running thread takes all its commands and does nothing for those to go on. Without them it
ends in the very same session. -/
@[simp] theorem runPending_withoutResumes (sound : s.queue.Sound) (t : Thread) (top : FrameRef) :
    (s.withoutResumes t.id).runPending t top = s.runPending t top := by
  have others : (s.queue.withoutResumes t.id).commands.filter (fun c => !c.isFor t.id) =
      s.queue.commands.filter fun c => !c.isFor t.id := by
    show (s.queue.commands.filter _).filter _ = _
    rw [List.filter_filter]
    refine List.filter_congr fun c _ => ?_
    cases c.isFor t.id <;> simp
  have mine : (s.queue.withoutResumes t.id).commands.filter (fun c => c.isFor t.id) =
      (s.queue.commands.filter fun c => c.isFor t.id).filter fun c => !c.action.isResume := by
    show (s.queue.commands.filter _).filter _ = _
    rw [List.filter_filter, List.filter_filter]
    refine List.filter_congr fun c _ => ?_
    cases c.isFor t.id <;> simp
  have reduced : (s.withoutResumes t.id).queue.Sound := sound.withoutResumes t.id
  rw [runPending_eq, runPending_eq, reduced.takeFor_eq, sound.takeFor_eq]
  dsimp only [withoutResumes]
  rw [others, mine, executeAll_filter]
  rfl

/-- A call is recorded before the queue is looked at, and independently of it. -/
@[simp]
theorem recordCall_withoutResumes (s : Session) (id : String) (kind : EventKind) (frame : FrameRef)
    (file : String) : (s.withoutResumes id).recordCall kind frame file =
      (s.recordCall kind frame file).withoutResumes id := by
  cases kind with
  | line | ret | exception => rfl
  | call =>
      have same : (s.withoutResumes id).recordedRoots = s.recordedRoots := rfl
      have program : (s.withoutResumes id).program = s.program := rfl
      rw [recordCall.eq_def, recordCall.eq_def, same, program]
      cases s.recordedRoots with
      | none => rfl
      | some roots =>
          dsimp only
          cases CallSignature.record? roots (s.program.frame frame) file <;> rfl

/-- An event is decided in the same session, whether commands to go on had been waiting or not. -/
@[simp] theorem prepared_withoutResumes (sound : s.queue.Sound) (t : Thread) (kind : EventKind)
    (frame : FrameRef) : (s.withoutResumes t.id).prepared t kind frame =
      s.prepared t kind frame := by
  have sound' : (s.recordCall kind frame (s.fileOf frame)).queue.Sound := by
    rwa [(s.recordCall_looks kind frame (s.fileOf frame)).serves.queue]
  rw [prepared, prepared]
  show ((s.withoutResumes t.id).recordCall kind frame (s.fileOf frame)).runPending t frame = _
  rw [recordCall_withoutResumes, runPending_withoutResumes sound']

section

variable (traced : s.filter.isExcluded (s.fileOf frame) = false)
  (unfiltered : t.control.state.isStepping = true →
    s.filter.isStepFiltered (s.fileOf frame) = false)

include traced unfiltered

/-- A look at an event takes the commands of its thread out of the queue, so those to go on leave no
trace. -/
@[simp] theorem lookAt_withoutResumes (sound : s.queue.Sound) (kind : EventKind) :
    (s.withoutResumes t.id).lookAt t kind frame = s.lookAt t kind frame := by
  have same := prepared_withoutResumes sound t kind frame
  have decided : (s.withoutResumes t.id).decided t kind frame = s.decided t kind frame := by
    rw [Session.decided, same]
    rfl
  have traced' : (s.withoutResumes t.id).filter.isExcluded ((s.withoutResumes t.id).fileOf frame) =
      false := traced
  have unfiltered' : t.control.state.isStepping = true →
      (s.withoutResumes t.id).filter.isStepFiltered ((s.withoutResumes t.id).fileOf frame) =
        false :=
    unfiltered
  rw [lookAt_of_traced traced' unfiltered', decided, lookAt_of_traced traced unfiltered]
  rfl

/-- An event that the filters let pass takes all commands for its thread out of the queue. -/
@[simp] theorem queue_lookAt (kind : EventKind) :
    (s.lookAt t kind frame).1.queue = (s.queue.takeFor t.id).2 := by
  have recorded := s.recordCall_looks kind frame (s.fileOf frame)
  have served := (s.recordCall kind frame (s.fileOf frame)).runPending_serves t frame
  have looked := (s.prepared t kind frame).decide_looks t kind frame (s.fileOf frame)
    s.breakpoints.snapshot
  obtain ⟨threads, outbox, skips, applied⟩ := (s.decided t kind frame).1.apply_eq t kind
    (s.skipKey? kind frame) s.breakpoints.snapshot.generation (s.decided t kind frame).2
  rw [lookAt_of_traced traced unfiltered, applied]
  calc (s.decided t kind frame).1.queue
      = (s.prepared t kind frame).queue := looked.serves.queue
    _ = ((s.recordCall kind frame (s.fileOf frame)).queue.takeFor t.id).2 := served.queue
    _ = (s.queue.takeFor t.id).2 := by rw [recorded.serves.queue]

end

/-- An event that is skipped does not stop its thread when it is looked at. -/
theorem outcome_of_isSkipped (sound : MemoSound s)
    (skipped : s.isSkipped s.breakpoints.skips.contains t kind frame = true) :
    (s.lookAt t kind frame).2 = .done false := by
  simp only [isSkipped, Bool.and_eq_true, Bool.not_eq_true', Bool.or_eq_false_iff,
    Option.any_eq_true] at skipped
  obtain ⟨⟨steady, unpending, unasked⟩, key, place, memoized⟩ := skipped
  obtain ⟨s', -, passed⟩ | ⟨traced, unfiltered⟩ := s.lookAt_cases t kind frame
  · rw [passed]
  · obtain ⟨scope, kinds, rfl⟩ := Option.map_eq_some_iff.mp place
    have idle : SkipKey.Idle ⟨s.fileOf frame, (s.program.frame frame).line, scope⟩
        s.breakpoints.snapshot := (sound _ memoized).resolve_right (by simp [traced])
    rw [← (s.prepared_sameFrames t kind frame).line frame] at idle
    have decided : (s.decided t kind frame).2 = .noInterest := by
      rw [Session.decided, decide_of_idle kinds steady unasked idle]
    rw [lookAt_of_traced traced unfiltered, decided]
    rfl

/-- Two looks at an event agree for the host and for the threads. -/
def SameEffect (r r' : Session × Outcome) : Prop := r'.2 = r.2 ∧ r'.1.threads = r.1.threads

/-- Where the filters end the look, commands to go on keep waiting and the queues differ. For the
host and for the threads there is still no difference. -/
theorem lookAt_sameEffect (sound : s.queue.Sound) (t : Thread) (kind : EventKind)
    (frame : FrameRef) :
    SameEffect (s.lookAt t kind frame) ((s.withoutResumes t.id).lookAt t kind frame) := by
  have passes (traced : s.filter.isExcluded (s.fileOf frame) = false)
      (unfiltered : t.control.state.isStepping = true →
        s.filter.isStepFiltered (s.fileOf frame) = false) :
      SameEffect (s.lookAt t kind frame) ((s.withoutResumes t.id).lookAt t kind frame) := by
    rw [lookAt_withoutResumes traced unfiltered sound]
    exact ⟨rfl, rfl⟩
  -- The filters do not see the queue, so both looks end at them or neither does.
  obtain ⟨s', threads, passed⟩ | ⟨traced, unfiltered⟩ := s.lookAt_cases t kind frame
  · obtain ⟨s'', threads', passed'⟩ | ⟨traced, unfiltered⟩ :=
      (s.withoutResumes t.id).lookAt_cases t kind frame
    · rw [passed, passed']
      exact ⟨rfl, threads'.trans threads.symm⟩
    · exact passes traced unfiltered
  · exact passes traced unfiltered

variable {who : ThreadRef}

/-- For the host and for the threads, an event is what the look at it is, whether or not it is
skipped. -/
theorem event_sameEffect (memo : MemoSound s) (lasting : s.finished = false)
    (outside : (s.introduce who).2.inEngine = false) (kind : EventKind) (frame : FrameRef) :
    SameEffect ((s.introduce who).1.lookAt (s.introduce who).2 kind frame)
      (s.event who kind frame) := by
  obtain ⟨threads, outbox, introduced⟩ := s.introduce_eq who
  have breakpoints : (s.introduce who).1.breakpoints = s.breakpoints := by rw [introduced]
  cases skipped : (s.introduce who).1.isSkipped s.breakpoints.skips.contains (s.introduce who).2
      kind frame with
  | false =>
      rw [event_eq_lookAt lasting outside skipped]
      exact ⟨rfl, rfl⟩
  | true =>
      have passed : s.event who kind frame = ((s.introduce who).1, .done false) := by
        rw [event, eventSkipping]
        simp only [lasting, skipped, Bool.or_true, Bool.false_eq_true, if_false, if_true]
      rw [← breakpoints] at skipped
      have done := outcome_of_isSkipped (memoSound_introduce memo who) skipped
      rw [passed]
      exact ⟨done.symm, (threads_of_done done).symm⟩

/-- Whether commands wait for a thread has no part in its introduction. -/
@[simp] theorem introduce_withoutResumes (s : Session) (who : ThreadRef) (id : String) :
    (s.withoutResumes id).introduce who =
      ((s.introduce who).1.withoutResumes id, (s.introduce who).2) := by
  cases known : s.thread? who.id with
  | some t =>
      have known' : (s.withoutResumes id).thread? who.id = some t := known
      simp [known, known']
  | none =>
      have known' : (s.withoutResumes id).thread? who.id = none := known
      rw [introduce_of_new known, introduce_of_new known']
      rfl

/-- If an event stops its thread, the commands to go on that were waiting made no difference. -/
@[simp] theorem event_withoutResumes (sound : s.queue.Sound) (memo : MemoSound s)
    (blocked : (s.event who kind frame).2 = .blocked) :
    (s.withoutResumes who.id).event who kind frame = s.event who kind frame := by
  have looked := event_of_blocked blocked
  obtain ⟨lasting, outside⟩ := outside_of_blocked blocked
  have sound' : (s.introduce who).1.queue.Sound := by rwa [queue_introduce]
  have same := s.introduce_id who
  rw [looked] at blocked
  obtain ⟨traced, unfiltered, -⟩ := lookAt_of_blocked blocked
  have again := lookAt_withoutResumes traced unfiltered sound' kind
  rw [same] at again
  have introduced := s.introduce_withoutResumes who who.id
  have memo' : MemoSound ((s.introduce who).1.withoutResumes who.id) := memoSound_introduce memo who
  have unskipped : ((s.introduce who).1.withoutResumes who.id).isSkipped
      ((s.introduce who).1.withoutResumes who.id).breakpoints.skips.contains (s.introduce who).2
      kind frame = false := by
    rw [Bool.eq_false_iff]
    intro skipped
    have passed := outcome_of_isSkipped memo' skipped
    rw [again, blocked] at passed
    cases passed
  have breakpoints : ((s.introduce who).1.withoutResumes who.id).breakpoints = s.breakpoints := by
    obtain ⟨threads, outbox, opened⟩ := s.introduce_eq who
    rw [opened]
    rfl
  rw [breakpoints] at unskipped
  have full : (s.withoutResumes who.id).event who kind frame =
      ((s.withoutResumes who.id).introduce who).1.lookAt ((s.withoutResumes who.id).introduce who).2
        kind frame := by
    refine event_eq_lookAt lasting ?_ ?_
    · rw [introduced]
      exact outside
    · rw [introduced]
      exact unskipped
  rw [full, introduced, again, looked]

/-- Commands to go on that wait for a thread make no difference to what an event of it comes to, and
to any thread. If the event stops the thread, they make no difference at all. -/
structure IgnoresResumes (s : Session) (who : ThreadRef) (kind : EventKind) (frame : FrameRef) :
    Prop where
  effect : SameEffect (s.event who kind frame) ((s.withoutResumes who.id).event who kind frame)
  stop : (s.event who kind frame).2 = .blocked →
    (s.withoutResumes who.id).event who kind frame = s.event who kind frame

/-- Commands to go on that wait for a thread make no difference to its event, whether it is skipped,
passed over or looked at. -/
theorem ignoresResumes (sound : s.queue.Sound) (memo : MemoSound s) (who : ThreadRef)
    (kind : EventKind) (frame : FrameRef) : IgnoresResumes s who kind frame := by
  refine ⟨?_, event_withoutResumes sound memo⟩
  have introduced := s.introduce_withoutResumes who who.id
  have same := s.introduce_id who
  cases ended : s.finished with
  | true =>
      have ended' : (s.withoutResumes who.id).finished = true := ended
      rw [event, eventSkipping, if_pos ended, event, eventSkipping, if_pos ended']
      exact ⟨rfl, rfl⟩
  | false =>
      have ended' : (s.withoutResumes who.id).finished = false := ended
      cases inside : (s.introduce who).2.inEngine with
      | true =>
          have inside' : ((s.withoutResumes who.id).introduce who).2.inEngine = true := by
            rw [introduced]
            exact inside
          rw [event_of_inside ended inside, event_of_inside ended' inside', introduced]
          exact ⟨rfl, rfl⟩
      | false =>
          have sound' : (s.introduce who).1.queue.Sound := by rwa [queue_introduce]
          have inside' : ((s.withoutResumes who.id).introduce who).2.inEngine = false := by
            rw [introduced]
            exact inside
          have memo' : MemoSound (s.withoutResumes who.id) := memo
          have full := event_sameEffect memo ended inside kind frame
          have reduced := event_sameEffect memo' ended' inside' kind frame
          have looks := lookAt_sameEffect sound' (s.introduce who).2 kind frame
          rw [introduced] at reduced
          rw [same] at looks
          exact ⟨(reduced.1.trans looks.1).trans full.1.symm,
            (reduced.2.trans looks.2).trans full.2.symm⟩

/-- When an event has stopped its thread, no command waits for this thread. -/
theorem drained_of_blocked (sound : s.queue.Sound)
    (blocked : (s.event who kind frame).2 = .blocked) :
    ∀ c ∈ (s.event who kind frame).1.queue.commands, c.isFor who.id = false := by
  have looked := event_of_blocked blocked
  have same := s.introduce_id who
  rw [looked] at blocked
  obtain ⟨traced, unfiltered, -⟩ := lookAt_of_blocked blocked
  have taken := queue_lookAt traced unfiltered kind
  rw [same, queue_introduce, sound.takeFor_eq] at taken
  rw [looked, taken]
  intro c member
  simpa using (List.mem_filter.mp member).2

/-- While the session lasts, a stopped thread leaves its event only by a command to go on. -/
theorem leaves_by_resume {s' : Session} {t' : Thread} (accepting : s.queue.terminated = false)
    (served : s.serve t = some (s', t')) (left : t'.suspension = none) :
    ∃ target state q, s.queue.takeOne t.id = some (⟨target, .resume state⟩, q) := by
  obtain ⟨x, stopped, ⟨closed, -⟩ | ⟨-, ⟨target, action⟩, q, s₁, flow, taken, executed, obeyed⟩⟩ :=
    serve_eq_some served
  · rw [accepting] at closed
    cases closed
  · cases flow with
    | stay | resuspend =>
        have still : t.suspension = t'.suspension :=
          congrArg (fun r : Session × Thread => r.2.suspension) obeyed
        rw [stopped, left] at still
        cases still
    | resume state =>
        have told : action = .resume state := execute_flow_resume (congrArg Prod.snd executed)
        rw [told] at taken
        exact ⟨target, state, q, taken⟩

/-- An event has stopped its thread, and no command for it from before is left. -/
structure StopsAfresh (s : Session) (who : ThreadRef) (kind : EventKind) (frame : FrameRef) :
    Prop where
  /-- No command waits for the thread when it stops. -/
  drained : ∀ c ∈ (s.event who kind frame).1.queue.commands, c.isFor who.id = false
  /-- The commands to go on that waited before had no effect. -/
  surplus : (s.withoutResumes who.id).event who kind frame = s.event who kind frame
  /-- What waits for the thread later has been posted since it stopped. -/
  later : ∀ inputs : List Input,
    (((s.event who kind frame).1.run inputs).queue.commands.filter fun c => c.isFor who.id).Sublist
      (((s.event who kind frame).1.posted inputs).filter fun c => c.isFor who.id)
  /-- So has the command that ends the suspension, as long as the session lasts. -/
  ended : ∀ (inputs : List Input) (t : Thread) (s' : Session) (t' : Thread), t.id = who.id →
    ((s.event who kind frame).1.run inputs).finished = false →
    ((s.event who kind frame).1.run inputs).serve t = some (s', t') → t'.suspension = none →
    ∃ target state q,
      ((s.event who kind frame).1.run inputs).queue.takeOne t.id =
        some (⟨target, .resume state⟩, q) ∧
      ⟨target, .resume state⟩ ∈ (s.event who kind frame).1.posted inputs
  /-- Those that are left over when it goes on have no effect on its events, up to the next stop and
  in it. -/
  leftover : ∀ (inputs : List Input) (kind' : EventKind) (frame' : FrameRef),
    IgnoresResumes ((s.event who kind frame).1.run inputs) who kind' frame'

/-- The commands to go on that are posted while a thread is stopped end this suspension of it at
most. What is left of them does nothing, and is gone when the thread stops again. -/
theorem resumes_do_not_leak (reachable : Reachable s)
    (blocked : (s.event who kind frame).2 = .blocked) : StopsAfresh s who kind frame := by
  have drained := drained_of_blocked reachable.sound blocked
  have stopped (inputs : List Input) : Reachable ((s.event who kind frame).1.run inputs) :=
    reachable.run (.event who kind frame :: inputs)
  have later (inputs : List Input) :
      (((s.event who kind frame).1.run inputs).queue.commands.filter fun c =>
        c.isFor who.id).Sublist
        (((s.event who kind frame).1.posted inputs).filter fun c => c.isFor who.id) := by
    have grown := (operated_run (s.event who kind frame).1 inputs).sublist.filter
      fun c => c.isFor who.id
    have nothing : (s.event who kind frame).1.queue.commands.filter (fun c => c.isFor who.id) =
        [] := by
      rw [List.filter_eq_nil_iff]
      intro c member
      rw [drained c member]
      exact Bool.false_ne_true
    rwa [List.filter_append, nothing, List.nil_append] at grown
  constructor
  · exact drained
  · exact event_withoutResumes reachable.sound reachable.memoSound blocked
  · exact later
  · intro inputs t s' t' same lasting served left
    obtain ⟨target, state, q, taken⟩ :=
      leaves_by_resume ((stopped inputs).orderly.closed.trans lasting) served left
    refine ⟨target, state, q, taken, ?_⟩
    have waiting := mem_of_takeOne taken
    rw [same] at waiting
    exact (List.mem_filter.mp ((later inputs).subset waiting)).1
  · intro inputs kind' frame'
    exact ignoresResumes (stopped inputs).sound (stopped inputs).memoSound who kind' frame'

/-- A thread has stopped at a breakpoint and was told twice to go on. It went on, and the second
command still waits for it. -/
def toldTwice : Session :=
  (start {} oneLine).run
    [.request 111 1 "7\tline\t/app/main.x\t3", .event mainThread .line 0, .request 106 3 "1",
      .request 106 5 "1", .serve 0]

/-- The second command to go on is gone when the thread stops again, and does not end the new
suspension. -/
theorem toldTwice_stops_afresh :
    Reachable toldTwice ∧ (toldTwice.event mainThread .line 0).2 = .blocked ∧
      StopsAfresh toldTwice mainThread .line 0 := by
  have reachable : Reachable toldTwice := ⟨{}, oneLine, _, rfl⟩
  have blocked : (toldTwice.event mainThread .line 0).2 = .blocked := by decide +kernel
  exact ⟨reachable, blocked, resumes_do_not_leak reachable blocked⟩

end Session

end RemoteDebugger
