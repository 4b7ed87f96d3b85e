import RemoteDebugger.Proofs.Session.Shown
import RemoteDebugger.Proofs.Session.Transition

/-!
# Sessions as calls that nothing interrupts

For each input, a session does in one step what a call about a thread, a request or the end of the
session does in many. Here these steps are put together again: whatever a session reacts to, the
calls that share a session can do the same, if nothing comes between their steps. So what holds of
the shared session in whatever order its steps are taken holds of every session.

The converse fails. What a session does in one step is never interrupted, but the end of a session
does not wait for a thread that has just taken a command: `exists_obeying` leads to such a point.
-/

namespace RemoteDebugger

namespace Input

/-- What the host reports by an input. -/
def report? : Input → Option Report
  | threadStarted who => some (.started who.id)
  | threadExited id => some (.exited id)
  | event who _ _ => some (.event who.id)
  | console _ _ => some .printed
  | request .. | serve _ | finish | program _ => none

/-- The thread that the host reports about. -/
def about? : Input → Option String
  | threadStarted who | event who _ _ => some who.id
  | threadExited id => some id
  | request .. | console .. | serve _ | finish | program _ => none

/-- The thread that a call is about can be told from the input that has begun it. -/
theorem about?_of_begun {i : Input} {r : Report} {id : String} {st : Stage}
    (reports : i.report? = some r) (begun : r.begun = .calling id st) : i.about? = some id := by
  cases i with
  | threadStarted | threadExited | event =>
      cases reports
      cases begun
      rfl
  | console =>
      cases reports
      cases begun
  | request | serve | finish | program => cases reports

end Input

/-- The host reports about each thread sequentially: an event in which a thread has stopped is not
over before the thread goes on. -/
def Session.Sequential : Session → List Input → Prop
  | _, [] => True
  | s, i :: inputs => i.about?.any s.isBlocked = false ∧ Sequential (s.react i).1 inputs

open SharedSession Session

namespace Shows

variable {c : SharedSession Nat} {s s' : Session} {known gone : List (Nat × Thread)}
variable {host : SharedSession Nat → Report → Prop} {id : String} {st st' : Stage}

/-- A call whose stop is over leaves its event. -/
theorem leaveEvent {d : SharedSession Nat} {key : Nat} {t : Thread} {x : Suspension}
    (released : Steps host c
      (d.doing key (.calling t.id (.released key x.exception.isSome))))
    (outbox : d.outbox = s.outbox) (finished : d.finished = s.finished)
    (control : (d.contexts key).control = t.control) :
    (s.leaveEvent t x).2.suspension = none ∧
      Steps host c ((SharedSession.set { d with outbox := (s.leaveEvent t x).1.outbox } key
        ⟨(s.leaveEvent t x).2.control, (s.leaveEvent t x).2.inEngine⟩).doing key (.idle true)) := by
  cases exception : x.exception with
  | none =>
      rw [exception] at released
      rw [leaveEvent_of_plain exception, ← outbox, ← control]
      exact ⟨rfl, (released.go .plain).leave⟩
  | some e =>
      rw [exception] at released
      rw [leaveEvent_of_exception exception, ← control]
      refine ⟨rfl, ?_⟩
      cases ended : s.finished with
      | true =>
          rw [if_pos rfl, ← outbox]
          exact (released.go (.forgo (finished.trans ended))).leave
      | false =>
          have proceeded : Notice.read? .sendExceptionTraceProceeded t.id =
              some (t.id, .proceeded) := rfl
          have left := ((released.go (.proceed (finished.trans ended))).say rfl proceeded).leave
          rw [if_neg Bool.false_ne_true, Session.notify, ← outbox]
          exact left

/-- A call obeys the command that it has carried out. -/
theorem obey {d : SharedSession Nat} {key : Nat} {t : Thread} {x : Suspension} {a : Action}
    {flow : Flow}
    (obeying : Steps host c (d.doing key (.calling t.id (.obeying key x.exception.isSome a))))
    (outbox : d.outbox = s.outbox) (finished : d.finished = s.finished)
    (context : d.contexts key = ⟨t.control, t.inEngine⟩) (stopped : t.suspension = some x)
    (stays : flow = .stay → ∀ state, a ≠ .resume state)
    (goes : ∀ state, flow = .resume state → a = .resume state)
    (jumps : ∀ reason, flow = .resuspend reason →
      reason = .setNextStatement ∧ ∃ seq line, a = .setNextStatement seq line) :
    ∃ a, (s.obey t x flow).2.Does key a ∧
      Steps host c ((SharedSession.set { d with outbox := (s.obey t x flow).1.outbox } key
        ⟨(s.obey t x flow).2.control, (s.obey t x flow).2.inEngine⟩).doing key a) := by
  cases flow with
  | stay =>
      refine ⟨.calling t.id (.waiting key x.exception.isSome), ?_, ?_⟩
      · simp only [Session.obey, Thread.Does, stopped]
      · have same : ({ d with outbox := s.outbox } : SharedSession Nat) = d := by rw [← outbox]
        rw [Session.obey, same, set_self context]
        exact obeying.go (.stay (stays rfl))
  | resume state =>
      obtain rfl := goes state rfl
      let after := t.resume state (s.program.depth x.top)
      have ran := Notice.read?_run t.id (toString state.resumeCommand.code)
      have released := ((obeying.go .resume).set (.resume (s.program.depth x.top))).say rfl ran
      obtain ⟨awake, done⟩ := leaveEvent (s := s.notifyRun after state.resumeCommand) (t := after)
        released (congrArg (fun o : Wire.Outbox => o.notify _ _) outbox) finished
        (by rw [contexts_notify, contexts_set, Function.update_self]; rfl)
      refine ⟨.idle true, ?_, ?_⟩
      · rw [Thread.Does, Session.obey, awake]
        exact ⟨true, rfl⟩
      · have done : Steps host c ((SharedSession.set (SharedSession.set
            { d with outbox := (s.obey t x (.resume state)).1.outbox } key _) key _).doing key
            (.idle true)) := done
        rwa [set_set] at done
  | resuspend reason =>
      obtain ⟨rfl, seq, line, rfl⟩ := jumps reason rfl
      have ran := Notice.read?_run t.id (toString StopReason.setNextStatement.command.code)
      have suspended := Notice.read?_suspendedThread s.sources s.program t.ref
        .setNextStatement x.top
      have again := (((obeying.go .jump).say rfl ran).set .halt).say rfl suspended
      refine ⟨.calling t.id (.waiting key x.exception.isSome), ?_, ?_⟩
      · simp only [Session.obey, Thread.Does, stopped]
        rfl
      · have sent : (s.obey t x (.resuspend .setNextStatement)).1.outbox =
            (d.outbox.notify .threadRun (Wire.joinFields
              [t.id, toString StopReason.setNextStatement.command.code])).notify .threadSuspend
              (Payload.suspendedThread s.sources s.program t.ref .setNextStatement x.top) := by
          rw [outbox]
          rfl
        have context' : (⟨.stopped .setNextStatement, t.inEngine⟩ : Context) =
            { d.contexts key with control := .stopped .setNextStatement } := by rw [context]
        rw [sent]
        show Steps host c ((SharedSession.set _ key ⟨.stopped .setNextStatement, t.inEngine⟩).doing
          key _)
        rw [context']
        exact again

/-- What a stopped thread does in one step, its call does step by step. -/
theorem serve (h : Shows c s known gone) {key : Nat} {t t' : Thread}
    (presents : Presents c (key, t)) (served : s.serve t = some (s', t')) :
    ∃ a, t'.Does key a ∧ s'.queue.Answers (· % 2 = 1) ∧
      Steps host c ((SharedSession.set { c with queue := s'.queue, outbox := s'.outbox } key
        ⟨t'.control, t'.inEngine⟩).doing key a) := by
  obtain ⟨x, stopped, ⟨ended, left⟩ | ⟨lasting, k, q, s₁, flow, taken, executed, obeyed⟩⟩ :=
    serve_eq_some served
  all_goals
    have does := presents.does
    rw [Thread.Does, stopped] at does
    have waits : Steps host c (c.doing key (.calling t.id (.waiting key x.exception.isSome))) := by
      rw [doing_self does]
      exact .refl
  · have released := (waits.go (.terminated (h.queue ▸ ended))).set .wake
    obtain ⟨awake, done⟩ := leaveEvent (s := s) (t := t.resume .running 0) released h.outbox
      h.finished (by simp [Thread.resume])
    rw [left] at awake done
    have same : s'.queue = s.queue := by
      have looks := s.leaveEvent_looks (t.resume .running 0) x
      rw [left] at looks
      exact looks.serves.queue
    refine ⟨.idle true, ?_, same ▸ h.numbered, ?_⟩
    · rw [Thread.Does, awake]
      exact ⟨true, rfl⟩
    · have done : Steps host c ((SharedSession.set (SharedSession.set
          { c with outbox := s'.outbox } key _) key _).doing key (.idle true)) := done
      rw [set_set] at done
      rw [same, ← h.queue]
      exact done
  · have found : c.queue.waitFor t.id = (.command k, q) := by
      rw [h.queue, CommandQueue.waitFor, if_neg (by simp [lasting]), taken]
    have sent : s₁.outbox = c.outbox ∨ ∃ seq command payload, seq % 2 = 1 ∧
        s₁.outbox = c.outbox.respond command seq payload := by
      have odd := h.numbered k (CommandQueue.mem_takeOne taken)
      rw [h.outbox]
      rcases execute_outbox { s with queue := q } t x.top true k.action with
        ⟨-, same⟩ | ⟨seq, command, payload, numbered, -, -, same⟩ <;> rw [executed] at same
      · exact .inl same
      · exact .inr ⟨seq, command, payload, odd seq numbered, same⟩
    have serves := execute_serves { s with queue := q } t x.top true k.action
    rw [executed] at serves
    have left : q.Answers (· % 2 = 1) := fun k' member =>
      h.numbered k' ((CommandQueue.sublist_takeOne taken).mem member)
    have same : s'.queue = q := by
      have looks := s₁.obey_looks t x flow
      rw [obeyed] at looks
      exact looks.serves.queue.trans serves.queue
    obtain ⟨a, does', steps⟩ := obey (s := s₁) ((waits.obey found).answer sent) rfl
      (h.finished.trans serves.finished.symm) presents.context stopped
      (fun stays state resumes => by
        have stays : flow = .stay := stays
        rw [stays, resumes] at executed
        cases executed)
      (fun state goes => execute_flow_resume ((congrArg Prod.snd executed).trans goes))
      (fun reason jumps =>
        ⟨execute_resuspend ((congrArg Prod.snd executed).trans jumps),
          execute_flow_resuspend ((congrArg Prod.snd executed).trans jumps)⟩)
    rw [obeyed] at does' steps
    rw [same]
    exact ⟨a, does', left, steps⟩

/-- A step of a stopped thread is made of the steps of its call, which leaves its stop, stops anew
or waits again. -/
theorem serveAt (h : Shows c s known gone) {i : Nat} (served : s.serveAt i = some s') :
    ∃ c' known' gone', Steps host c c' ∧ Shows c' s' known' gone' := by
  rw [Session.serveAt, ← h.threads, ← h.departed, List.getElem?_map] at served
  cases here : known[i]? with
  | some p =>
      obtain ⟨key, t⟩ := p
      rw [here] at served
      obtain ⟨⟨s₁, t'⟩, step, rfl⟩ := Option.map_eq_some_iff.mp served
      have presents := h.presents _ (List.mem_append_left _ (List.mem_of_getElem? here))
      obtain ⟨a, does, numbered, steps⟩ := h.serve presents step
      obtain ⟨q, serves⟩ := serve_serves step
      have queue : s₁.queue = q := serves.queue
      subst queue
      have shown := ((h.queued numbered).serves serves).at_known here (serve_id step) does
      have threads : s₁.threads = known.map Prod.snd := serves.threads.trans h.threads.symm
      rw [threads] at shown
      exact ⟨_, _, _, steps, shown⟩
  | none =>
      rw [here, Option.map_none, List.length_map, List.getElem?_map] at served
      obtain ⟨⟨s₁, t'⟩, found, rfl⟩ := Option.map_eq_some_iff.mp served
      obtain ⟨t, there, step⟩ := Option.bind_eq_some_iff.mp found
      obtain ⟨⟨key, t⟩, here, rfl⟩ := Option.map_eq_some_iff.mp there
      have presents := h.presents _ (List.mem_append_right _ (List.mem_of_getElem? here))
      obtain ⟨a, does, numbered, steps⟩ := h.serve presents step
      obtain ⟨q, serves⟩ := serve_serves step
      have queue : s₁.queue = q := serves.queue
      subst queue
      have shown := ((h.queued numbered).serves serves).at_gone here does
      have departed : s₁.departed = gone.map Prod.snd := serves.departed.trans h.departed.symm
      rw [departed] at shown
      exact ⟨_, _, _, steps, shown⟩

/-- The end of a session. -/
theorem finish (h : Shows c s known gone) :
    ∃ c' known' gone', Steps host c c' ∧ Shows c' s.finish known' gone' := by
  cases ended : s.finished with
  | true =>
      rw [Session.finish, if_pos ended]
      exact ⟨c, known, gone, .refl, h⟩
  | false =>
      have lasting : c.ending = .lasting := by
        rw [h.ending, ended]
        rfl
      exact ⟨c.ended, _, gone, finish_steps lasting, h.ended ended⟩

/-- The call that a report about a thread begins, until it has found the context of the thread. -/
theorem arrive (h : Shows c s known gone) (lasting : s.finished = false) (who : ThreadRef)
    {r : Report} (reports : host c r) {isEvent : Bool}
    (begun : r.begun = .calling who.id (.arriving isEvent)) :
    ∃ c' known' key, Shows c' (s.introduce who).1 known' gone ∧
      (key, (s.introduce who).2) ∈ known' ∧
      Steps host c (c'.doing (caller c' key (s.introduce who).2)
        (.calling who.id (.found isEvent key))) := by
  have goes : c.finished = false := h.finished.trans lasting
  cases registered : s.thread? who.id with
  | some t =>
      obtain ⟨key, member, found⟩ := h.key?_of_known registered
      rw [introduce_of_known registered]
      have free : ∃ answer, c.activity (caller c key t) = .idle answer := by
        rw [caller]
        split
        · exact h.others _ h.made_notMem
        · rename_i awake
          have does := (h.presents _ (List.mem_append_left _ member)).does
          rw [Bool.not_eq_true, Option.isSome_eq_false_iff, Option.isNone_iff_eq_none] at awake
          rwa [Thread.Does, awake] at does
      obtain ⟨answer, held⟩ := free
      exact ⟨c, known, key, h, member, (Steps.begin c held goes reports begun).go (.find found)⟩
  | none =>
      obtain ⟨answer, held⟩ := h.others _ h.made_notMem
      have shown := h.introduce registered
      have created := Notice.read?_threadCreated who
      refine ⟨_, _, c.made, shown, ?_, ?_⟩
      · rw [introduce_of_new registered]
        exact List.mem_append_right _ List.mem_cons_self
      · rw [introduce_of_new registered]
        exact ((Steps.begin c held goes reports begun).introduce
          (h.key?_of_unknown registered)).say rfl created

/-- A thread that is reported is introduced by a call of its own, unless it is known. -/
theorem threadStarted (h : Shows c s known gone) (who : ThreadRef)
    (reports : host c (.started who.id)) :
    ∃ c' known' gone', Steps host c c' ∧ Shows c' (s.threadStarted who) known' gone' := by
  rw [Session.threadStarted]
  split
  · exact ⟨c, known, gone, .refl, h⟩
  · rename_i lasting
    obtain ⟨c', known', key, shown, member, steps⟩ :=
      h.arrive (by simpa using lasting) who reports rfl
    exact ⟨_, known', gone, steps.back, shown.returned member false⟩

/-- The exit of a thread is made of three steps: its commands are dropped, it is removed, and its
end is announced. -/
theorem threadExited (h : Shows c s known gone) (distinct : (s.threads.map Thread.id).Nodup)
    (id : String) (reports : host c (.exited id)) :
    ∃ c' known' gone', Steps host c c' ∧ Shows c' (s.threadExited id) known' gone' := by
  cases ended : s.finished with
  | true =>
      rw [Session.threadExited, if_pos ended]
      exact ⟨c, known, gone, .refl, h⟩
  | false =>
      obtain ⟨answer, held⟩ := h.others _ h.made_notMem
      have dropped := (Steps.begin c held (h.finished.trans ended) reports rfl).discard
      have shown := h.queued (h.discarded id)
      rw [h.queue] at dropped
      cases registered : s.thread? id with
      | none =>
          rw [threadExited_of_unknown ended registered]
          have left := (dropped.go (.unknown (h.key?_of_unknown registered))).back
          exact ⟨_, known, gone, left, shown.idle shown.made_notMem false⟩
      | some t =>
          obtain ⟨key, member, found⟩ := h.key?_of_known registered
          obtain rfl := thread?_id registered
          have killed : Notice.read? .threadKill t.id = some (t.id, .killed) := rfl
          have parted := ((dropped.remove found).say rfl killed).back
          have shown := (shown.remove distinct member).notify .threadKill t.id
          rw [threadExited_of_known ended registered]
          exact ⟨_, _, _, parted, shown.idle shown.made_notMem false⟩

/-- Text on the console is one notification of a call that is about no thread. -/
theorem writeToConsole (h : Shows c s known gone) (text : String) (stream : Nat)
    (reports : host c .printed) :
    ∃ c' known' gone', Steps host c c' ∧ Shows c' (s.writeToConsole text stream) known' gone' := by
  rw [Session.writeToConsole]
  split
  · exact ⟨c, known, gone, .refl, h⟩
  · rename_i lasting
    obtain ⟨answer, held⟩ := h.others _ h.made_notMem
    have begun : Step host c (c.call c.made .printed) := .call c.made held .printed reports
    rw [SharedSession.call, if_neg (by rwa [h.finished])] at begun
    have printed : Step host (c.doing c.made .printing) _ := .print c.made (activity_doing_self ..)
      (Payload.consoleOutput text stream s.config.maxConsoleText)
    have shown := h.notify .writeToConsole
      (Payload.consoleOutput text stream s.config.maxConsoleText)
    refine ⟨_, known, gone, .tail (.single begun) printed, ?_⟩
    have left := shown.idle shown.made_notMem false
    rwa [← doing_doing _ _ .printing] at left

/-- A call leaves the engine again, and nothing has become of its thread. -/
theorem pass (h : Shows c s known gone) {key : Nat} {t : Thread} (member : (key, t) ∈ known)
    (outside : t.inEngine = false) {d : SharedSession Nat} {answer : Bool}
    (leaving : Steps host d ((c.set key ⟨t.control, true⟩).doing key
      (.calling t.id (.leaving key answer)))) :
    Steps host d (c.doing key (.idle answer)) := by
  have left := leaving.leave
  have context := (h.presents _ (List.mem_append_left _ member)).context
  rw [outside] at context
  rw [set_set, contexts_set, Function.update_self] at left
  rwa [set_self context] at left

/-- What a call remarks on its event shows. -/
theorem remarks (h : Shows c s known gone) (serves : Serves s s')
    (remarks : Wire.Outbox.Remarks (· % 2 = 1) s.outbox s'.outbox) (may : st.mayRemark = true)
    {d : SharedSession Nat} {i key : Nat} {id : String} {x : Context}
    (under : Steps host d ((c.set key x).doing i (.calling id st))) :
    ∃ c', Shows c' s' known gone ∧ Steps host d ((c'.set key x).doing i (.calling id st)) := by
  rw [← h.outbox] at remarks
  exact ⟨_, h.serves serves, under.remarks may remarks⟩

/-- A call records its event, carries out the commands that wait for its thread and decides. -/
theorem decided (h : Shows c s known gone) (lasting : s.finished = false) {key : Nat} {t : Thread}
    (kind : EventKind) (frame : FrameRef) {d : SharedSession Nat}
    (looking : Steps host d ((c.set key ⟨t.control, true⟩).doing key
      (.calling t.id (.looking key)))) :
    ∃ c', Shows c' (s.decided t kind frame).1 known gone ∧
      Steps host d ((c'.set key ⟨t.control, true⟩).doing key (.calling t.id (.deciding key))) := by
  have recorded := (s.recordCall_looks kind frame (s.fileOf frame)).serves
  rw [Session.decided, Session.prepared]
  obtain ⟨c, h, looking⟩ := h.remarks recorded (s.recordCall_remarks ..) rfl looking
  have lasting := recorded.finished.trans lasting
  generalize s.recordCall kind frame (s.fileOf frame) = s at recorded h lasting ⊢
  have taken := looking.take
  have numbered : (s.queue.takeFor t.id).2.Answers (· % 2 = 1) := fun k left =>
    h.numbered k (CommandQueue.mem_takeFor (.inr left))
  have shown := h.queued numbered
  rw [← h.queue] at shown
  obtain ⟨c, h, looking⟩ := shown.remarks (h.queue ▸ s.runPending_serves t frame)
    (runPending_remarks h.numbered t frame) rfl taken
  have lasting := (s.runPending_serves t frame).finished.trans lasting
  generalize s.runPending t frame = s at h lasting ⊢
  exact h.remarks (s.decide_looks ..).serves (s.decide_remarks ..) rfl
    (looking.go (.pass (h.finished.trans lasting)))

/-- A call stops its thread, and waits. -/
theorem suspend (h : Shows c s known gone) (distinct : (s.threads.map Thread.id).Nodup) {key : Nat}
    {t : Thread} (member : (key, t) ∈ known) {reason : StopReason} (top : FrameRef)
    {exception : Option RaisedException} (fresh : reason ≠ .setNextStatement)
    (agrees : reason.isException = exception.isSome) {d : SharedSession Nat}
    (deciding : Steps host d ((c.set key ⟨t.control, true⟩).doing key
      (.calling t.id (.deciding key)))) :
    ∃ c' known', Steps host d c' ∧ Shows c' (s.suspend t reason top exception) known' gone := by
  obtain ⟨i, here⟩ := List.mem_iff_getElem?.mp member
  have registered : s.threads[i]? = some t := by
    rw [← h.threads, List.getElem?_map, here]
    rfl
  have threads : (s.suspend t reason top exception).threads =
      s.threads.set i (t.halted reason top exception) := by
    rw [suspend_threads]
    exact map_replace distinct registered rfl
  have does : (t.halted reason top exception).Does key
      (.calling t.id (.waiting key exception.isSome)) := rfl
  have same : (t.halted reason top exception).id = t.id := rfl
  have stopped := (deciding.go (.choose fresh)).set .stop
  rw [set_set, contexts_set, Function.update_self, Stage.stopped, agrees] at stopped
  have suspended := Notice.read?_suspendedThread s.sources s.program t.ref reason top
  cases exception with
  | none =>
      have shown := (h.notify .threadSuspend (s.suspendedPayload t reason top)).at_known
        here same does
      exact ⟨_, _, stopped.say rfl suspended, shown.congr rfl rfl rfl rfl threads rfl⟩
  | some e =>
      have raised := Notice.read?_exception s.sources s.program t.ref reason top
        (toString (s.program.frame top).id) e.typeName e.message
      have announced := h.notify .sendExceptionTrace (Wire.joinFields
        [toString (s.program.frame top).id, e.typeName, e.message,
          s.suspendedPayload t reason top])
      have shown := (announced.notify .threadSuspend (s.suspendedPayload t reason top)).at_known
        here same does
      exact ⟨_, _, (stopped.say rfl raised).say rfl suspended,
        shown.congr rfl rfl rfl rfl threads rfl⟩

/-- A decision about an event. -/
theorem apply (h : Shows c s known gone) (distinct : (s.threads.map Thread.id).Nodup) {key : Nat}
    {t : Thread} (member : (key, t) ∈ known) (outside : t.inEngine = false)
    (awake : t.suspension = none) {kind : EventKind} {decision : Decision}
    (agrees : ∀ reason top, decision = .suspend reason top →
      (reason.isException = true ↔ ∃ e, kind = .exception e) ∧ reason ≠ .setNextStatement)
    (place : Option SkipKey) (generation : Nat) {d : SharedSession Nat}
    (deciding : Steps host d ((c.set key ⟨t.control, true⟩).doing key
      (.calling t.id (.deciding key)))) :
    ∃ c' known', Steps host d c' ∧
      Shows c' (s.apply t kind place generation decision).1 known' gone := by
  cases decision with
  | noInterest =>
      refine ⟨_, known, h.pass member outside (deciding.go (.decline false)), ?_⟩
      rw [Session.apply]
      split
      · exact h.rest member awake false
      · exact (h.rest member awake false).memoize place generation
  | continue_ =>
      exact ⟨_, known, h.pass member outside (deciding.go (.decline true)),
        h.rest member awake true⟩
  | suspend reason top =>
      obtain ⟨exceptional, fresh⟩ := agrees reason top rfl
      refine h.suspend distinct member top fresh ?_ deciding
      cases kind with
      | exception e =>
          have raised : reason.isException = true := exceptional.mpr ⟨e, rfl⟩
          simp [raised]
      | call | line | ret => simpa using exceptional

/-- What a thread does in one step when it looks at its event, its call does step by step. -/
theorem lookAt (h : Shows c s known gone) (distinct : (s.threads.map Thread.id).Nodup)
    (lasting : s.finished = false) {key : Nat} {t : Thread} (member : (key, t) ∈ known)
    (outside : t.inEngine = false) (awake : t.suspension = none) (kind : EventKind)
    (frame : FrameRef) {d : SharedSession Nat}
    (looking : Steps host d ((c.set key ⟨t.control, true⟩).doing key
      (.calling t.id (.looking key)))) :
    ∃ c' known', Steps host d c' ∧ Shows c' (s.lookAt t kind frame).1 known' gone := by
  have dismissed := h.pass member outside (looking.go .dismiss)
  have shown := h.rest member awake false
  by_cases excluded : s.filter.isExcluded (s.fileOf frame) = true
  · refine ⟨_, known, dismissed, ?_⟩
    rw [Session.lookAt, if_pos excluded]
    dsimp only
    split
    · exact shown
    · exact shown.memoize _ _
  · by_cases filtered : (t.control.state.isStepping && s.filter.isStepFiltered (s.fileOf frame)) =
      true
    · refine ⟨_, known, dismissed, ?_⟩
      rwa [Session.lookAt, if_neg excluded, if_pos filtered]
    · obtain ⟨c', decided, deciding⟩ := h.decided lasting kind frame looking
      have unfiltered : t.control.state.isStepping = true →
          s.filter.isStepFiltered (s.fileOf frame) = false := fun stepping => by
        simpa [stepping] using filtered
      rw [lookAt_of_traced (by simpa using excluded) unfiltered]
      refine decided.apply ?_ member outside awake (fun reason top => decide_reason) _ _ deciding
      rwa [decided_threads]

/-- What a session does with an event in one step, the call about it does step by step. -/
theorem event (h : Shows c s known gone) (distinct : (s.threads.map Thread.id).Nodup)
    (who : ThreadRef) (kind : EventKind) (frame : FrameRef)
    (inside : (s.introduce who).2.inEngine = (s.introduce who).2.suspension.isSome)
    (reports : host c (.event who.id)) :
    ∃ c' known' gone', Steps host c c' ∧ Shows c' (s.event who kind frame).1 known' gone' := by
  rw [Session.event, Session.eventSkipping]
  split
  · exact ⟨c, known, gone, .refl, h⟩
  · rename_i lasting
    rw [Bool.not_eq_true] at lasting
    obtain ⟨c', known', key, shown, member, entering⟩ := h.arrive lasting who reports rfl
    have ids := s.nodup_introduce who distinct
    have lasting : (s.introduce who).1.finished = false := by
      obtain ⟨threads, outbox, introduced⟩ := s.introduce_eq who
      rw [introduced]
      exact lasting
    rw [← s.introduce_id who] at entering
    dsimp only
    generalize s.introduce who = r at shown member ids lasting inside entering ⊢
    obtain ⟨s, t⟩ := r
    dsimp only at *
    have context := (shown.presents _ (List.mem_append_left _ member)).context
    cases outside : t.inEngine with
    | true =>
        have busy : (c'.contexts key).inEngine = true := by rw [context, outside]
        exact ⟨_, known', gone, (entering.go (.busy busy)).back, shown.returned member false⟩
    | false =>
        rw [outside] at inside context
        have awake : t.suspension = none := by simpa using inside.symm
        rw [caller, awake] at entering
        have looking := entering.set (.enter (by rw [context]))
        rw [context] at looking
        split
        · exact ⟨_, known', gone, shown.pass member outside (looking.go .dismiss),
            shown.rest member awake false⟩
        · obtain ⟨c', known', steps, shown⟩ :=
            shown.lookAt ids lasting member outside awake kind frame looking
          exact ⟨c', known', gone, steps, shown⟩

/-- Commands are posted one after the other. -/
theorem post (h : Shows c s known gone) {cs : List QueuedCommand}
    (accepting : cs ≠ [] → s.queue.terminated = false)
    (awake : ∀ k ∈ cs, k.action ≠ .resume .suspended)
    (numbered : ∀ k ∈ cs, ∀ n, k.action.seq? = some n → n % 2 = 1) :
    ∃ c', Steps host c c' ∧ Shows c' { s with queue := s.queue.postAll cs } known gone := by
  induction cs generalizing c s with
  | nil =>
      rw [CommandQueue.postAll_nil]
      exact ⟨c, .refl, h⟩
  | cons k cs ih =>
      have opened : s.queue.terminated = false := accepting (List.cons_ne_nil k cs)
      have accepted : c.queue.post k = .ok (s.queue.postAll [k]) := by
        rw [h.queue, CommandQueue.post_of_open opened]
      have left : (s.queue.postAll [k]).Answers (· % 2 = 1) := by
        intro k' member
        rcases List.mem_append.mp member with before | new
        · exact h.numbered k' before
        · exact List.mem_singleton.mp new ▸ numbered k List.mem_cons_self
      obtain ⟨c', steps, shown⟩ := ih (h.queued left) (fun _ => opened)
        (fun k' later => awake k' (List.mem_cons_of_mem k later))
        (fun k' later => numbered k' (List.mem_cons_of_mem k later))
      rw [CommandQueue.postAll_postAll] at shown
      exact ⟨c', .head (.post k accepted (awake k List.mem_cons_self)) steps, shown⟩

/-- What a session does with a request in one step, the controller's side does step by step. -/
theorem request (h : Shows c s known gone) (distinct : (s.threads.map Thread.id).Nodup)
    (code : Nat) (seq : Int) (payload : String) :
    ∃ c' known' gone', Steps host c c' ∧ Shows c' (s.request code seq payload) known' gone' := by
  rcases s.request_cases code seq payload with ⟨e, refused⟩ | ⟨odd, granted⟩
  · rw [refused, respondError, respond, ← h.outbox]
    exact ⟨_, known, gone, .single (.answer .error e.message (.inr rfl)), h.sent _⟩
  · generalize s.request code seq payload = s' at granted ⊢
    cases granted with
    | answered command text =>
        rw [respond, ← h.outbox]
        exact ⟨_, known, gone, .single (.answer command text (.inl odd)), h.sent _⟩
    | ready => exact ⟨_, known, gone, .single .ready, h.ready⟩
    | askedAll => exact ⟨c, _, gone, .refl, h.askedAll⟩
    | asked t registered =>
        obtain ⟨known', shown⟩ := h.asked distinct registered
        exact ⟨c, known', gone, .refl, shown⟩
    | resumed cs accepting go =>
        obtain ⟨c', steps, shown⟩ := h.post accepting
          (fun k member => by
            obtain ⟨state, same, awake⟩ := go k member
            rw [same]
            simpa using awake)
          (fun k member n numbered => by
            obtain ⟨state, same, -⟩ := go k member
            rw [same] at numbered
            cases numbered)
        exact ⟨c', known, gone, steps, shown⟩
    | posted k accepting numbered =>
        obtain ⟨c', steps, shown⟩ := h.post (fun _ => accepting)
          (fun k' member => by
            obtain rfl := List.mem_singleton.mp member
            intro resumes
            rw [resumes] at numbered
            cases numbered)
          (fun k' member n same => by
            obtain rfl := List.mem_singleton.mp member
            obtain rfl := Option.some.inj (numbered.symm.trans same)
            exact odd)
        exact ⟨c', known, gone, steps, shown⟩
    | finished => exact h.finish
    | changed | switched => exact ⟨c, known, gone, .refl, h.congr rfl rfl rfl rfl rfl rfl⟩

/-- What a host may report to a session, it may report to the shared session that shows it. -/
theorem react (h : Shows c s known gone) (reachable : Reachable s) (i : Input)
    (reports : ∀ r, i.report? = some r → host c r) :
    ∃ c' known' gone', Steps host c c' ∧ Shows c' (s.react i).1 known' gone' := by
  have distinct := reachable.orderly.distinct
  cases i with
  | request code seq payload => exact h.request distinct code seq payload
  | threadStarted who => exact h.threadStarted who (reports _ rfl)
  | threadExited id => exact h.threadExited distinct id (reports _ rfl)
  | event who kind frame =>
      refine h.event distinct who kind frame ?_ (reports _ rfl)
      cases registered : s.thread? who.id with
      | some t =>
          rw [introduce_of_known registered]
          exact reachable.inEngine registered
      | none =>
          rw [introduce_of_new registered]
          rfl
  | serve position =>
      rw [Session.react]
      cases served : s.serveAt position with
      | none => exact ⟨c, known, gone, .refl, h⟩
      | some s' => exact h.serveAt served
  | console text stream => exact h.writeToConsole text stream (reports _ rfl)
  | finish => exact h.finish
  | program program => exact ⟨c, known, gone, .refl, h.congr rfl rfl rfl rfl rfl rfl⟩

/-- No call is about a thread that is not stopped. -/
theorem free (h : Shows c s known gone) {id : String} (awake : s.isBlocked id = false) (i : Nat)
    (st : Stage) : c.activity i ≠ .calling id st := by
  intro held
  by_cases shown : i ∈ (known ++ gone).map Prod.fst
  · obtain ⟨⟨key, t⟩, member, rfl⟩ := List.mem_map.mp shown
    have does := (h.presents _ member).does
    rw [held, Thread.Does] at does
    cases stopped : t.suspension with
    | none =>
        rw [stopped] at does
        obtain ⟨answer, idle⟩ := does
        cases idle
    | some x =>
        rw [stopped] at does
        cases does
        have among : t ∈ s.threads ++ s.departed := by
          rw [← h.threads, ← h.departed, ← List.map_append]
          exact List.mem_map_of_mem member
        rw [isBlocked, List.any_eq_false] at awake
        exact awake t among (by simp [stopped])
  · obtain ⟨answer, idle⟩ := h.others i shown
    rw [held] at idle
    cases idle

end Shows

namespace Session

/-- Every session is shown by a shared session, in which nothing has come between the steps of a
call. -/
theorem Reachable.shown {s : Session} (h : Reachable s) :
    ∃ c known gone, Steps anyHost {} c ∧ Shows c s known gone := by
  obtain ⟨setup, program, inputs, rfl⟩ := h
  refine (run_invariant (P := fun s => Reachable s ∧
    ∃ c known gone, Steps anyHost {} c ∧ Shows c s known gone) ?_ ?_ inputs).2
  · rintro s i ⟨reachable, c, known, gone, steps, shown⟩
    have reports : ∀ r, i.report? = some r → anyHost c r := fun _ _ => trivial
    obtain ⟨c', known', gone', more, shown⟩ := shown.react reachable i reports
    exact ⟨reachable.run [i], c', known', gone', steps.trans more, shown⟩
  · exact ⟨⟨setup, program, [], rfl⟩, {}, [], [], .refl, .start setup program⟩

/-- If the host reports about each thread sequentially, so do the calls that show the session. -/
theorem Sequential.shown {s : Session} {inputs : List Input} (h : s.Sequential inputs)
    (reachable : Reachable s) {c : SharedSession Nat} {known gone : List (Nat × Thread)}
    (steps : Steps sequentialHost {} c) (shown : Shows c s known gone) :
    ∃ c' known' gone', Steps sequentialHost {} c' ∧ Shows c' (s.run inputs) known' gone' := by
  induction inputs generalizing s c known gone with
  | nil => exact ⟨c, known, gone, steps, shown⟩
  | cons i inputs ih =>
      obtain ⟨free, rest⟩ := h
      have reports : ∀ r, i.report? = some r → sequentialHost c r := by
        intro r reports id st begun
        rw [Input.about?_of_begun reports begun, Option.any_some] at free
        exact shown.free free
      obtain ⟨c', known', gone', more, shown⟩ := shown.react reachable i reports
      exact ih rest (reachable.run [i]) (steps.trans more) shown

/-- The controller asks for stops on an exception. The thread raises it and stops, and is told to go
on. -/
def toldToGoOn : List Input :=
  [.request 111 1 "0\texception\tBoom",
    .event mainThread (.exception ⟨"Boom", [], "no", false⟩) 0, .request 106 3 "1"]

end Session

namespace SharedSession

open Session

/-- A stopped thread takes the command to go on. Nothing is open here: the thread has been in its
stop before, as the session shows it. -/
theorem exists_obeying : ∃ c c' known gone key, Steps sequentialHost {} c ∧
    Shows c ((start {} oneLine).run toldToGoOn) known gone ∧ Step sequentialHost c c' ∧
    c'.activity key = .calling "1" (.obeying key true (.resume .running)) ∧
    c'.ending = .lasting ∧ c'.outbox = ((start {} oneLine).run toldToGoOn).outbox := by
  have sequential : Sequential (start {} oneLine) toldToGoOn :=
    ⟨rfl, by decide +kernel, by decide +kernel, trivial⟩
  obtain ⟨c, known, gone, steps, shown⟩ :=
    sequential.shown ⟨{}, oneLine, [], rfl⟩ .refl (.start {} oneLine)
  have waits : ((start {} oneLine).run toldToGoOn).queue.waitFor "1" =
      (.command ⟨.thread "1", .resume .running⟩, {}) := by decide +kernel
  have stopped : (((start {} oneLine).run toldToGoOn).thread? "1").map
      (fun t => t.suspension.map fun x => x.exception.isSome) = some (some true) := by
    decide +kernel
  have lasting : ((start {} oneLine).run toldToGoOn).finished = false := by decide +kernel
  generalize (start {} oneLine).run toldToGoOn = s at shown waits stopped lasting
  obtain ⟨t, registered, suspended⟩ := Option.map_eq_some_iff.mp stopped
  obtain ⟨x, suspension, exceptional⟩ := Option.map_eq_some_iff.mp suspended
  obtain ⟨key, member, -⟩ := shown.key?_of_known registered
  have does := (shown.presents _ (List.mem_append_left _ member)).does
  rw [Thread.Does, suspension] at does
  dsimp only at does
  rw [exceptional, thread?_id registered] at does
  have ending : c.ending = .lasting := by
    rw [shown.ending, lasting]
    rfl
  rw [← shown.queue] at waits
  exact ⟨c, _, known, gone, key, steps, shown, .obey key does waits, activity_doing_self .., ending,
    shown.outbox⟩

variable {ι : Type} [DecidableEq ι] {host : SharedSession ι → Report → Prop}
variable {c : SharedSession ι} {i : ι} {key : Nat}

/-- A thread that has taken the command goes on and announces it, whatever has become of the
session. -/
theorem exists_released
    (held : c.activity i = .calling "1" (.obeying key true (.resume .running))) :
    ∃ c', Steps host c c' ∧ c'.activity i = .calling "1" (.released key true) ∧
      c'.ending = c.ending ∧
      c'.outbox = c.outbox.notify .threadRun (Wire.joinFields ["1", "106"]) := by
  have ran := Notice.read?_run "1" "106"
  have obeying : Steps host c
      (c.doing i (.calling "1" (.obeying key true (.resume .running)))) := by
    rw [doing_self held]
    exact .refl
  exact ⟨_, ((obeying.go .resume).set (.resume 0)).say rfl ran, activity_doing_self .., rfl, rfl⟩

/-- A thread that leaves its stop in a session that has ended is silent about the exception. -/
theorem exists_left (held : c.activity i = .calling "1" (.released key true))
    (ended : c.finished = true) :
    ∃ c', Steps host c c' ∧ c'.activity i = .idle true ∧ c'.ending = c.ending ∧
      c'.outbox = c.outbox := by
  have released : Steps host c (c.doing i (.calling "1" (.released key true))) := by
    rw [doing_self held]
    exact .refl
  exact ⟨_, (released.go (.forgo ended)).leave, activity_doing_self .., rfl, rfl⟩

end SharedSession

end RemoteDebugger
