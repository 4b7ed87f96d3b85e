import RemoteDebugger.Proofs.Session.Turnover
import RemoteDebugger.Proofs.Session.Waiting

/-!
# The end of a session

A session ends once. From then on it has no command for any thread and takes none, events pass
through it, and every thread that is still inside an event leaves it at its next step, whatever else
happens in between. The connection is closed by one mark; behind it there are answers to requests
only.
-/

namespace RemoteDebugger

namespace Wire.Outbox

/-- An outbox has grown by messages that their commands can have. -/
def Speaks (o o' : Outbox) : Prop :=
  ∃ ms : List Message, o'.entries = o.entries ++ ms.map .message ∧
    ∀ m ∈ ms, m.command.Carries m.payload

variable {o o' o'' : Outbox}

theorem Speaks.refl (o : Outbox) : Speaks o o := ⟨[], (List.append_nil o.entries).symm, nofun⟩

/-- What is sent in two parts has the properties of both, and the stream is closed in neither. -/
theorem Speaks.trans (first : Speaks o o') (second : Speaks o' o'') : Speaks o o'' := by
  obtain ⟨ms, grown, carries⟩ := first
  obtain ⟨ms', grown', carries'⟩ := second
  refine ⟨ms ++ ms', ?_, List.forall_mem_append.mpr ⟨carries, carries'⟩⟩
  rw [grown', grown, List.append_assoc, List.map_append]

theorem speaks_notify (o : Outbox) {c : Command} {payload : String} (carries : c.Carries payload) :
    Speaks o (o.notify c payload) := ⟨[_], rfl, List.forall_mem_singleton.mpr carries⟩

theorem speaks_respond (o : Outbox) {c : Command} (seq : Int) {payload : String}
    (carries : c.Carries payload) : Speaks o (o.respond c seq payload) :=
  ⟨[_], rfl, List.forall_mem_singleton.mpr carries⟩

/-- Remarks are messages like any others. They do not close the stream. -/
theorem Remarks.speaks {answers : Int → Prop} (h : Remarks answers o o') : Speaks o o' := by
  induction h with
  | nothing => exact Speaks.refl o
  | answer _ c payload _ carries ih => exact ih.trans (speaks_respond _ _ carries)
  | aside _ payload _ carries ih => exact ih.trans (speaks_notify _ carries)

end Wire.Outbox

/-- The message answers the input: a request, with an error or under an odd number as it is
promised. No notification does, since its number is even and it is no error. -/
def Input.IsAnsweredBy (i : Input) (m : Wire.Message) : Prop :=
  match i with
  | .request code seq _ =>
    m.seq = seq ∧
      (m.command = .error ∨ seq % 2 = 1 ∧ Wire.Command.promised code = some m.command)
  | _ => False

/-- The input ends the session: it says so itself, as the reader does when its stream ends, or it is
a request to kill all threads. -/
def Input.Ends : Input → Prop
  | .finish => True
  | .request code seq payload =>
    seq % 2 = 1 ∧ Wire.Command.ofCode? code = some .threadKill ∧
      (Fields.ofPayload payload).values[0]? = some Session.allThreads
  | _ => False

/-- The thread runs and is out of its event. -/
structure Thread.Left (t : Thread) : Prop where
  awake : t.isSuspended = false
  inEngine : t.inEngine = false
  suspension : t.suspension = none

namespace Session

open Wire.Outbox

section

variable {s s' : Session}

theorem killThreads_all {f : Fields} (all : f.values[0]? = some allThreads) :
    (Handling.killThreads f).run.run s = (.ok (), s.finish) := by
  simp only [Handling.killThreads, Handling.required_of_values all, Handling.run_bind,
    Handling.run_read, Handling.run_modify, if_true]

/-- A single thread cannot be killed. -/
theorem killThreads_single {f : Fields} (single : f.values[0]? ≠ some allThreads) :
    ∃ e, (Handling.killThreads f).run.run s = (.error e, s) := by
  rw [Handling.killThreads]
  cases named : f.values[0]? with
  | none =>
      rw [Fields.required, named]
      exact ⟨_, rfl⟩
  | some id =>
      have one : id ≠ allThreads := by
        rintro rfl
        exact single named
      refine ⟨.unsupported "kill a single thread", ?_⟩
      simp only [Handling.required_of_values named, one, if_false, Handling.run_bind,
        Handling.run_read, Handling.run_throw]

/-- An input that ends a session does what the engine does to finish it, whether it is a request or
comes from the host. -/
theorem finish_of_ends {i : Input} (ends : i.Ends) : (s.react i).1 = s.finish := by
  cases i with
  | finish => rfl
  | request code seq payload =>
      obtain ⟨odd, kills, all⟩ := ends
      have done : (Handling.dispatch .threadKill seq payload).run.run s = _ := killThreads_all all
      exact request_of_ok odd kills done
  | threadStarted | threadExited | event | serve | console | program => cases ends

/-- A command does not close the stream. Its answer is one that its payload fits. -/
theorem execute_speaks (s : Session) (t : Thread) (top : FrameRef) (suspended : Bool) (a : Action) :
    Speaks s.outbox (s.execute t top suspended a).1.outbox := by
  obtain ⟨-, same⟩ | ⟨seq, c, payload, -, -, carries, sent⟩ := s.execute_outbox t top suspended a
  · rw [same]
    exact .refl s.outbox
  · rw [sent]
    exact speaks_respond s.outbox seq carries

/-- A stop is announced by one message, or by two if it is at an exception. Both are single
lines. -/
theorem suspend_speaks (s : Session) (t : Thread) (reason : StopReason) (top : FrameRef)
    (exception : Option RaisedException) :
    Speaks s.outbox (s.suspend t reason top exception).outbox := by
  have stop (s : Session) : Wire.Command.threadSuspend.Carries (s.suspendedPayload t reason top) :=
    .inr (Payload.lineFeed_notMem_suspendedThread _ _ _ _ _)
  cases exception with
  | none => exact speaks_notify s.outbox (stop _)
  | some e =>
      exact (speaks_notify s.outbox (.inr (Wire.lineFeed_notMem_joinFields _))).trans
        (speaks_notify _ (stop _))

/-- A look at an event does not close the stream, whatever it sends. -/
theorem lookAt_speaks (s : Session) (t : Thread) (kind : EventKind) (frame : FrameRef) :
    Speaks s.outbox (s.lookAt t kind frame).1.outbox := by
  have relation : LookRelation (fun s s' => Speaks s.outbox s'.outbox) t :=
    { refl := fun s => .refl s.outbox
      trans := fun first second => first.trans second
      remark := fun _ remarks => remarks.speaks
      pending := fun s top => by
        have remarks : Remarks (fun _ => True) s.outbox (s.runPending t top).outbox :=
          runPending_remarks (fun _ _ _ _ => trivial) t top
        exact remarks.speaks
      memoize := fun s key generation => by
        obtain ⟨skips, memoized⟩ := s.memoize_eq key generation
        rw [memoized]
        exact .refl s.outbox
      suspend := fun s reason top exception => s.suspend_speaks t reason top exception }
  exact relation.lookAt s kind frame

/-- The announcement of a thread is one line, also if the name of the thread is not. -/
theorem introduce_speaks (s : Session) (who : ThreadRef) :
    Speaks s.outbox (s.introduce who).1.outbox := by
  cases known : s.thread? who.id with
  | some t => simpa [known] using Speaks.refl s.outbox
  | none =>
      rw [introduce_of_new known]
      exact speaks_notify s.outbox (.inr (Payload.lineFeed_notMem_threadList _))

/-- An event does not close the stream, not even one that comes too late. -/
theorem event_speaks (s : Session) (who : ThreadRef) (kind : EventKind) (frame : FrameRef) :
    Speaks s.outbox (s.event who kind frame).1.outbox := by
  rw [event]
  obtain ⟨-, ignored⟩ | passed | looked :=
    s.eventSkipping_cases s.breakpoints.skips.contains who kind frame
  · rw [ignored]
    exact .refl s.outbox
  · rw [passed]
    exact s.introduce_speaks who
  · rw [looked]
    exact (s.introduce_speaks who).trans (lookAt_speaks _ _ kind frame)

theorem leaveEvent_speaks (s : Session) (t : Thread) (x : Suspension) :
    Speaks s.outbox (s.leaveEvent t x).1.outbox := by
  rw [leaveEvent]
  split
  · exact .refl s.outbox
  · dsimp only
    split
    · exact .refl s.outbox
    · exact speaks_notify s.outbox (.inl rfl)

/-- A thread that goes on or stops anew says so and no more. -/
theorem obey_speaks (s : Session) (t : Thread) (x : Suspension) (flow : Flow) :
    Speaks s.outbox (s.obey t x flow).1.outbox := by
  have told (c : Wire.Command) : Speaks s.outbox (s.notifyRun t c).outbox :=
    speaks_notify s.outbox (.inr (Wire.lineFeed_notMem_joinFields _))
  cases flow with
  | stay => exact .refl s.outbox
  | resume state => exact (told state.resumeCommand).trans (leaveEvent_speaks _ _ x)
  | resuspend reason =>
      exact (told reason.command).trans
        (speaks_notify _ (.inr (Payload.lineFeed_notMem_suspendedThread _ _ _ _ _)))

theorem serve_speaks {t t' : Thread} (served : s.serve t = some (s', t')) :
    Speaks s.outbox s'.outbox := by
  obtain ⟨x, -, ⟨-, left⟩ | ⟨-, c, q, s₁, flow, -, executed, obeyed⟩⟩ := serve_eq_some served
  · have sent := s.leaveEvent_speaks (t.resume .running 0) x
    rwa [left] at sent
  · have answered := execute_speaks { s with queue := q } t x.top true c.action
    have sent := s₁.obey_speaks t x flow
    rw [executed] at answered
    rw [obeyed] at sent
    exact answered.trans sent

theorem serveAt_speaks {i : Nat} (h : s.serveAt i = some s') : Speaks s.outbox s'.outbox := by
  obtain ⟨t, s₁, t', served, ⟨-, rfl⟩ | ⟨-, departed, rfl⟩⟩ := serveAt_eq_some h
  · have sent : Speaks s.outbox s₁.outbox := serve_speaks served
    exact sent
  · have sent : Speaks s.outbox s₁.outbox := serve_speaks served
    exact sent

theorem writeToConsole_speaks (s : Session) (text : String) (stream : Nat) :
    Speaks s.outbox (s.writeToConsole text stream).outbox := by
  have remarks : Remarks (fun _ => True) _ _ := s.writeToConsole_remarks text stream
  exact remarks.speaks

/-- A request that is granted ends the session, and then it is one to kill threads, or it leaves the
stream open. -/
theorem Granted.finishes_or_speaks {code : Nat} {seq : Int} (granted : Granted s code seq s') :
    s' = s.finish ∧ Wire.Command.ofCode? code = some .threadKill ∨
      s'.finished = s.finished ∧ Speaks s.outbox s'.outbox := by
  cases granted with
  | finished _ kills => exact .inl ⟨rfl, kills⟩
  | answered c payload entitled carries => exact .inr ⟨rfl, speaks_respond s.outbox seq carries⟩
  | ready =>
      obtain ⟨lifecycle, same⟩ := s.markReady_eq
      rw [same]
      exact .inr ⟨rfl, .refl s.outbox⟩
  | askedAll | asked | resumed | posted | changed | switched => exact .inr ⟨rfl, .refl s.outbox⟩

/-- A session is ended by an input that does so and in no other way. All others make it send
messages and nothing else. -/
theorem ends_or_speaks (s : Session) (i : Input) :
    i.Ends ∨ (s.react i).1.finished = s.finished ∧ Speaks s.outbox (s.react i).1.outbox := by
  cases i with
  | request code seq payload =>
      rw [react]
      obtain ⟨e, refused⟩ | ⟨odd, granted⟩ := s.request_cases code seq payload
      · rw [refused]
        exact .inr ⟨rfl, speaks_respond s.outbox _ (.inl rfl)⟩
      · obtain ⟨-, kills⟩ | speaks := granted.finishes_or_speaks
        · by_cases all : (Fields.ofPayload payload).values[0]? = some allThreads
          · exact .inl ⟨odd, kills, all⟩
          · obtain ⟨e, failed⟩ := killThreads_single all
            have refused : (Handling.dispatch .threadKill seq payload).run.run s = _ := failed
            rw [request_of_error odd kills refused]
            exact .inr ⟨rfl, speaks_respond s.outbox _ (.inl rfl)⟩
        · exact .inr speaks
  | threadStarted who =>
      obtain ⟨threads, outbox, introduced⟩ := s.introduce_eq who
      have sent := s.introduce_speaks who
      right
      rw [react, threadStarted]
      split
      · exact ⟨rfl, .refl s.outbox⟩
      · rw [introduced] at sent ⊢
        exact ⟨rfl, sent⟩
  | threadExited id =>
      right
      refine ⟨s.finished_threadExited id, ?_⟩
      rw [react, threadExited]
      split
      · exact .refl s.outbox
      · dsimp only
        split
        · exact .refl s.outbox
        · exact speaks_notify s.outbox (.inl rfl)
  | event who kind frame =>
      obtain ⟨threads, q, skips, serves⟩ :=
        s.eventSkipping_eq s.breakpoints.skips.contains who kind frame
      exact .inr ⟨serves.finished, s.event_speaks who kind frame⟩
  | serve i =>
      right
      rw [react]
      cases served : s.serveAt i with
      | none => exact ⟨rfl, .refl s.outbox⟩
      | some s' => exact ⟨(sameRoll_serveAt served).finished, serveAt_speaks served⟩
  | console text stream =>
      have looks := Looks.writeToConsole s text stream
      exact .inr ⟨looks.serves.finished, s.writeToConsole_speaks text stream⟩
  | finish => exact .inl trivial
  | program program => exact .inr ⟨rfl, .refl s.outbox⟩

/-- A session has ended after an input exactly if it had ended before or the input ends it. No
session comes back. -/
theorem finished_react (s : Session) (i : Input) :
    (s.react i).1.finished = true ↔ s.finished = true ∨ i.Ends := by
  by_cases ends : i.Ends
  · rw [finish_of_ends ends]
    exact ⟨fun _ => .inr ends, fun _ => s.finished_finish⟩
  · rw [((s.ends_or_speaks i).resolve_left ends).1]
    exact ⟨.inl, fun ended => ended.resolve_right ends⟩

/-- A session is over as soon as an input has ended it, and not before. -/
theorem finished_run_iff (s : Session) (inputs : List Input) :
    (s.run inputs).finished = true ↔ s.finished = true ∨ ∃ i ∈ inputs, i.Ends := by
  induction inputs generalizing s with
  | nil => simp
  | cons i inputs ih =>
      rw [run_cons, ih, finished_react, or_assoc]
      simp only [List.mem_cons, exists_eq_or_imp]

end

/-- The session has ended: nothing waits, and no registered thread is suspended. -/
structure Ended (s : Session) : Prop where
  finished : s.finished = true
  lifecycle : s.lifecycle = .finished
  queue : s.queue = ⟨[], 0, true⟩
  awake : ∀ t ∈ s.threads, t.isSuspended = false

section

variable {s s' : Session}

/-- The end of a session settles all at once: the queue is closed and empty, the host is told, and
no thread counts as suspended any more. -/
theorem ended_finish (lasting : s.finished = false) (sound : s.queue.Sound) : Ended s.finish := by
  rw [finish, if_neg (by simp [lasting])]
  constructor
  · rfl
  · rfl
  · show (⟨[], s.queue.pending - s.queue.commands.length, true⟩ : CommandQueue) = _
    rw [sound.counted, Nat.sub_self]
  · intro t member
    obtain ⟨u, -, rfl⟩ := List.mem_map.mp member
    rfl

theorem Ended.over (h : Ended s) : s.queue.terminated = true := by rw [h.queue]

/-- What has neither to do with the end nor with the threads leaves an ended session ended. -/
theorem Ended.of_same (h : Ended s) (finished : s'.finished = s.finished)
    (lifecycle : s'.lifecycle = s.lifecycle) (queue : s'.queue = s.queue)
    (awake : ∀ t ∈ s'.threads, t.isSuspended = false) : Ended s' :=
  ⟨finished.trans h.finished, lifecycle.trans h.lifecycle, queue.trans h.queue, awake⟩

/-- A thread that leaves its event because the session has ended runs, outside the engine and
without a stop. -/
theorem left_leaveEvent (s : Session) (t : Thread) (x : Suspension) :
    (s.leaveEvent (t.resume .running 0) x).2.Left := by
  cases raised : x.exception with
  | none =>
      rw [leaveEvent_of_plain raised]
      exact ⟨rfl, rfl, rfl⟩
  | some e =>
      rw [leaveEvent_of_exception raised]
      exact ⟨rfl, rfl, rfl⟩

/-- After the end, a stopped thread leaves its event without a word. -/
theorem Ended.serve (h : Ended s) {t : Thread} {x : Suspension} (stopped : t.suspension = some x) :
    ∃ t', s.serve t = some (s, t') ∧ t'.Left := by
  have silent : (s.leaveEvent (t.resume .running 0) x).1 = s := by
    cases raised : x.exception with
    | none => rw [leaveEvent_of_plain raised]
    | some e => rw [leaveEvent_of_exception raised, if_pos h.finished]
  refine ⟨(s.leaveEvent (t.resume .running 0) x).2, ?_, s.left_leaveEvent t x⟩
  rw [Session.serve, stopped]
  dsimp only
  rw [if_pos h.over]
  exact congrArg some (Prod.ext silent rfl)

theorem serve_of_awake {t : Thread} (awake : t.suspension = none) : s.serve t = none := by
  rw [Session.serve, awake]

/-- An ended session stays ended, and sends nothing but answers. -/
def StaysEnded (s : Session) (i : Input) (s' : Session) : Prop :=
  Ended s' ∧ ∃ ms : List Wire.Message, s'.outbox.entries = s.outbox.entries ++ ms.map .message ∧
    ∀ m ∈ ms, i.IsAnsweredBy m

/-- An ended session that sends nothing stays ended and adds nothing to what is told. -/
theorem StaysEnded.silent {i : Input} (ended : Ended s') (same : s'.outbox = s.outbox) :
    StaysEnded s i s' := by
  refine ⟨ended, [], ?_, fun m member => absurd member List.not_mem_nil⟩
  rw [same]
  exact (List.append_nil _).symm

/-- A request to an ended session is answered with an error or as it is promised. It posts no
command, and no thread comes to be suspended by it. -/
theorem Ended.request (h : Ended s) (code : Nat) (seq : Int) (payload : String) :
    StaysEnded s (.request code seq payload) (s.request code seq payload) := by
  have same {s' : Session} (finished : s'.finished = s.finished)
      (lifecycle : s'.lifecycle = s.lifecycle) (queue : s'.queue = s.queue)
      (threads : s'.threads = s.threads) : Ended s' :=
    h.of_same finished lifecycle queue (threads ▸ h.awake)
  obtain ⟨e, refused⟩ | ⟨odd, granted⟩ := s.request_cases code seq payload
  · rw [refused]
    refine ⟨same rfl rfl rfl rfl, [⟨.error, seq, e.message⟩], rfl, ?_⟩
    intro m member
    rw [List.mem_singleton.mp member]
    exact ⟨rfl, .inl rfl⟩
  · generalize s.request code seq payload = s' at granted
    cases granted with
    | answered c text entitled =>
        refine ⟨same rfl rfl rfl rfl, [⟨c, seq, text⟩], rfl, ?_⟩
        intro m member
        rw [List.mem_singleton.mp member]
        exact ⟨rfl, .inr ⟨odd, entitled⟩⟩
    | ready =>
        rw [markReady, Lifecycle.ready, if_pos h.lifecycle]
        exact .silent h rfl
    | askedAll =>
        refine .silent (h.of_same rfl rfl rfl ?_) rfl
        intro t member
        obtain ⟨u, registered, rfl⟩ := List.mem_map.mp member
        exact h.awake u registered
    | asked t known =>
        refine .silent (h.of_same rfl rfl rfl ?_) rfl
        intro u member
        obtain ⟨v, registered, rfl⟩ := List.mem_map.mp member
        split
        · exact h.awake t (List.mem_of_find?_eq_some known)
        · exact h.awake v registered
    | resumed cs accepting =>
        cases cs with
        | nil =>
            rw [CommandQueue.postAll_nil]
            exact .silent h rfl
        | cons c cs =>
            have opened := accepting (List.cons_ne_nil c cs)
            rw [h.over] at opened
            cases opened
    | posted c accepting =>
        rw [h.over] at accepting
        cases accepting
    | finished =>
        rw [finish, if_pos h.finished]
        exact .silent h rfl
    | changed | switched => exact .silent (same rfl rfl rfl rfl) rfl

/-- A step of a stopped thread in an ended session takes the thread out of its event, without a
word. -/
theorem Ended.serveAt (h : Ended s) {i : Nat} (served : s.serveAt i = some s') :
    StaysEnded s (.serve i) s' := by
  obtain ⟨t, s₁, t', step, place⟩ := serveAt_eq_some served
  obtain ⟨x, stopped, -⟩ := serve_eq_some step
  obtain ⟨u, free, left⟩ := h.serve stopped
  rw [free] at step
  obtain ⟨rfl, rfl⟩ : s = s₁ ∧ u = t' := by simpa using step
  obtain ⟨-, rfl⟩ | ⟨-, departed, rfl⟩ := place
  · refine .silent (h.of_same rfl rfl rfl ?_) rfl
    intro v member
    obtain registered | rfl := List.mem_or_eq_of_mem_set member
    · exact h.awake v registered
    · exact left.awake
  · exact .silent (h.of_same rfl rfl rfl h.awake) rfl

theorem Ended.event (h : Ended s) (who : ThreadRef) (kind : EventKind) (frame : FrameRef) :
    s.event who kind frame = (s, .done false) := by
  rw [Session.event, eventSkipping, if_pos h.finished]

/-- Whatever an ended session reacts to, it stays ended. -/
theorem Ended.react (h : Ended s) (i : Input) : StaysEnded s i (s.react i).1 := by
  have unchanged {i : Input} : StaysEnded s i s := .silent h rfl
  cases i with
  | request code seq payload => exact h.request code seq payload
  | threadStarted who =>
      rw [Session.react, threadStarted, if_pos h.finished]
      exact unchanged
  | threadExited id =>
      rw [Session.react, Session.threadExited, if_pos h.finished]
      exact unchanged
  | event who kind frame =>
      rw [Session.react, h.event]
      exact unchanged
  | serve i =>
      rw [Session.react]
      cases served : s.serveAt i with
      | none => exact unchanged
      | some s' => exact h.serveAt served
  | console text stream =>
      rw [Session.react, writeToConsole, if_pos h.finished]
      exact unchanged
  | finish =>
      rw [Session.react, finish, if_pos h.finished]
      exact unchanged
  | program program => exact .silent (h.of_same rfl rfl rfl h.awake) rfl

/-- How many threads are still inside an event. It falls with every step of one of them after the
end. -/
def stoppedCount (s : Session) : Nat :=
  (s.threads ++ s.departed).countP fun t => t.suspension.isSome

theorem stoppedCount_eq (s : Session) :
    s.stoppedCount = s.threads.countP (fun t => t.suspension.isSome) +
      s.departed.countP fun t => t.suspension.isSome :=
  List.countP_append

/-- After the end, the first stopped thread of a list leaves its event, if there is one. -/
theorem Ended.serveFirst (h : Ended s) (threads : List Thread) :
    s.serveFirst threads = none ∧ threads.countP (fun t => t.suspension.isSome) = 0 ∨
      ∃ threads', s.serveFirst threads = some (s, threads') ∧
        threads'.countP (fun t => t.suspension.isSome) <
          threads.countP fun t => t.suspension.isSome := by
  induction threads with
  | nil => exact .inl ⟨rfl, rfl⟩
  | cons t rest ih =>
      rw [Session.serveFirst]
      cases stopped : t.suspension with
      | some x =>
          obtain ⟨t', served, left⟩ := h.serve stopped
          refine .inr ⟨t' :: rest, by rw [served], ?_⟩
          rw [List.countP_cons_of_neg (by simp [left.suspension]),
            List.countP_cons_of_pos (by simp [stopped])]
          exact Nat.lt_succ_self _
      | none =>
          have same : (t :: rest).countP (fun t => t.suspension.isSome) =
              rest.countP fun t => t.suspension.isSome :=
            List.countP_cons_of_neg (by simp [stopped])
          rw [serve_of_awake stopped, same]
          obtain ⟨idle, zero⟩ | ⟨rest', stepped, fewer⟩ := ih
          · exact .inl ⟨by rw [idle]; rfl, zero⟩
          · refine .inr ⟨t :: rest', by rw [stepped]; rfl, ?_⟩
            rwa [List.countP_cons_of_neg (by simp [stopped])]

/-- Each step of a stopped thread leaves fewer of them, and there is one as long as a thread is
stopped. -/
theorem Ended.serveAny (h : Ended s) :
    s.serveAny = none ∧ s.stoppedCount = 0 ∨
      ∃ s', s.serveAny = some s' ∧ Ended s' ∧ s'.stoppedCount < s.stoppedCount := by
  have stays {s' : Session} (step : s.serveAny = some s') : Ended s' := by
    obtain ⟨i, served⟩ := serveAny_eq_some step
    exact (h.serveAt served).1
  obtain ⟨idle, zero⟩ | ⟨threads, stepped, fewer⟩ := h.serveFirst s.threads
  · obtain ⟨idle', zero'⟩ | ⟨departed, stepped', fewer⟩ := h.serveFirst s.departed
    · left
      rw [stoppedCount_eq, zero, zero', Session.serveAny, idle, idle']
      exact ⟨rfl, rfl⟩
    · right
      have step : s.serveAny =
          some { s with departed := departed.filter fun t => t.suspension.isSome } := by
        rw [Session.serveAny, idle, stepped']
        rfl
      refine ⟨_, step, stays step, ?_⟩
      have kept : (departed.filter fun t => t.suspension.isSome).countP
          (fun t => t.suspension.isSome) ≤ departed.countP fun t => t.suspension.isSome :=
        List.filter_sublist.countP_le
      rw [stoppedCount_eq, stoppedCount_eq]
      exact Nat.add_lt_add_left (Nat.lt_of_le_of_lt kept fewer) _
  · right
    have step : s.serveAny = some { s with threads := threads } := by
      rw [Session.serveAny, stepped]
    refine ⟨_, step, stays step, ?_⟩
    rw [stoppedCount_eq, stoppedCount_eq]
    exact Nat.add_lt_add_right fewer _

/-- Stopped threads of an ended session leave one by one. None waits for another, so as many rounds
as there are threads suffice. -/
theorem Ended.settleUpTo (h : Ended s) (n : Nat) (enough : s.stoppedCount ≤ n) :
    (settleUpTo n s).stoppedCount = 0 := by
  induction n generalizing s with
  | zero => exact Nat.le_zero.mp enough
  | succ n ih =>
      rw [Session.settleUpTo]
      obtain ⟨idle, zero⟩ | ⟨s', stepped, ended, fewer⟩ := h.serveAny
      · rw [idle]
        exact zero
      · rw [stepped]
        exact ih ended (by omega)

/-- When the stopped threads of an ended session have taken their steps, none is inside an event. -/
theorem Ended.settle (h : Ended s) : s.settle.stoppedCount = 0 := by
  refine h.settleUpTo _ ?_
  have bound : (s.threads ++ s.departed).countP (fun t => t.suspension.isSome) ≤
      (s.threads ++ s.departed).length :=
    List.countP_le_length
  rw [List.length_append] at bound
  show s.stoppedCount ≤ _
  rw [stoppedCount]
  omega

/-- A thread that has exited is remembered as long as it is inside its event. -/
theorem departed_react (s : Session) (i : Input) :
    ∀ t ∈ (s.react i).1.departed, t ∈ s.departed ∨ t.suspension.isSome = true := by
  have unchanged {s' : Session} (same : s'.departed = s.departed) :
      ∀ t ∈ s'.departed, t ∈ s.departed ∨ t.suspension.isSome = true := by
    rw [same]
    exact fun t member => .inl member
  have finished : s.finish.departed = s.departed := by
    rw [finish]
    split <;> rfl
  cases i with
  | request code seq payload =>
      rw [react]
      refine unchanged ?_
      obtain ⟨e, refused⟩ | ⟨-, granted⟩ := s.request_cases code seq payload
      · rw [refused]
        rfl
      · generalize s.request code seq payload = s' at granted ⊢
        cases granted with
        | answered | askedAll | asked | resumed | posted | changed | switched => rfl
        | ready =>
            obtain ⟨lifecycle, same⟩ := s.markReady_eq
            rw [same]
        | finished => exact finished
  | threadStarted who =>
      obtain ⟨threads, outbox, introduced⟩ := s.introduce_eq who
      rw [react, threadStarted, introduced]
      refine unchanged ?_
      split <;> rfl
  | threadExited id =>
      rw [react, threadExited]
      split
      · exact unchanged rfl
      · dsimp only
        split
        · exact unchanged rfl
        · rename_i t known
          show ∀ u ∈ (if t.suspension.isSome then s.departed ++ [t] else s.departed), _
          split
          · rename_i stopped
            intro u member
            obtain old | new := List.mem_append.mp member
            · exact .inl old
            · rw [List.mem_singleton.mp new]
              exact .inr stopped
          · exact unchanged rfl
  | event who kind frame =>
      obtain ⟨threads, q, skips, serves⟩ :=
        s.eventSkipping_eq s.breakpoints.skips.contains who kind frame
      exact unchanged serves.departed
  | serve i =>
      rw [react]
      cases served : s.serveAt i with
      | none => exact unchanged rfl
      | some s' =>
          rw [serveAt] at served
          split at served
          · obtain ⟨⟨s₁, t'⟩, step, rfl⟩ := Option.map_eq_some_iff.mp served
            obtain ⟨q, serves⟩ := serve_serves step
            exact unchanged serves.departed
          · obtain ⟨⟨s₁, t'⟩, -, rfl⟩ := Option.map_eq_some_iff.mp served
            exact fun t member => .inr (List.mem_filter.mp member).2
  | console text stream => exact unchanged (Looks.writeToConsole s text stream).serves.departed
  | finish => exact unchanged finished
  | program program => exact unchanged rfl

/-- Only threads that are still stopped are kept among the departed. -/
theorem Reachable.departed (h : Reachable s) : ∀ t ∈ s.departed, t.suspension.isSome = true := by
  obtain ⟨setup, program, inputs, rfl⟩ := h
  refine run_invariant (P := fun s => ∀ t ∈ s.departed, t.suspension.isSome = true) ?_
    (fun t member => absurd member List.not_mem_nil) inputs
  intro s i stopped t member
  obtain old | new := departed_react s i t member
  · exact stopped t old
  · exact new

/-- The messages around the mark that closes the connection: behind it there are answers to
inputs. -/
def ClosedOnce (o : Wire.Outbox) (inputs : List Input) : Prop :=
  ∃ before after : List Wire.Message,
    o.entries = before.map .message ++ .close :: after.map .message ∧
      ∀ m ∈ after, ∃ i ∈ inputs, i.IsAnsweredBy m

/-- A session either goes on with its connection open, or it has ended and closed it. -/
inductive Course (s : Session) (inputs : List Input) : Prop
  | ongoing (lasting : s.finished = false) (sent : Speaks {} s.outbox)
  | ended (ended : Ended s) (closed : ClosedOnce s.outbox inputs)

/-- One more input takes a session that lasts to one that lasts or has just ended, and keeps one
that has ended. -/
theorem Course.react {inputs : List Input} (h : Course s inputs) (sound : s.queue.Sound)
    (i : Input) : Course (s.react i).1 (inputs ++ [i]) := by
  cases h with
  | ongoing lasting sent =>
      obtain ends | ⟨same, speaks⟩ := s.ends_or_speaks i
      · obtain ⟨ms, entries, -⟩ := sent
        rw [finish_of_ends ends]
        refine .ended (ended_finish lasting sound) ⟨ms, [], ?_, fun m member => ?_⟩
        · rw [finish, if_neg (by simp [lasting])]
          show s.outbox.entries ++ [.close] = _
          rw [entries]
          rfl
        · exact absurd member List.not_mem_nil
      · exact .ongoing (same.trans lasting) (sent.trans speaks)
  | ended ended closed =>
      obtain ⟨before, after, entries, answers⟩ := closed
      obtain ⟨stays, ms, sent, answered⟩ := ended.react i
      refine .ended stays ⟨before, after ++ ms, ?_, ?_⟩
      · rw [sent, entries, List.append_assoc, List.map_append]
        rfl
      · intro m member
        obtain earlier | now := List.mem_append.mp member
        · obtain ⟨j, past, answer⟩ := answers m earlier
          exact ⟨j, List.mem_append_left [i] past, answer⟩
        · exact ⟨i, List.mem_append_right inputs List.mem_cons_self, answered m now⟩

/-- What is known of the course of a session is known after any further inputs. -/
theorem Course.run {past : List Input} (h : Course s past) (sound : s.queue.Sound)
    (future : List Input) : Course (s.run future) (past ++ future) := by
  induction future generalizing s past with
  | nil => rwa [List.append_nil]
  | cons i future ih =>
      have next := ih (h.react sound i) (sound.operated (operated_react s i))
      rwa [List.append_assoc, List.singleton_append] at next

theorem course_start (setup : Setup) (program : Program) (inputs : List Input) :
    Course ((start setup program).run inputs) inputs := by
  have opened : Course (start setup program) [] := .ongoing rfl (.refl {})
  exact opened.run CommandQueue.sound_new inputs

theorem Ended.run (h : Ended s) (inputs : List Input) : Ended (s.run inputs) :=
  run_invariant (fun _ i ended => (ended.react i).1) h inputs

/-- The session has ended for good, after all these inputs. -/
structure Terminated (s : Session) (inputs : List Input) : Prop where
  finished : s.finished = true
  /-- The host is told not to run the program. -/
  answer : s.mayRun? = some false
  /-- No registered thread is suspended. -/
  awake : ∀ t ∈ s.threads, t.isSuspended = false
  /-- A thread that is still inside its event can leave it at once, changing nothing else. -/
  leaves : ∀ t ∈ s.threads ++ s.departed, t.suspension.isSome = true →
    ∃ t', s.serve t = some (s, t') ∧ t'.Left
  /-- When these threads have left, no thread is suspended or inside an event. -/
  settled : ∀ t ∈ s.settle.threads ++ s.settle.departed,
    t.isSuspended = false ∧ t.suspension = none
  empty : s.queue.commands = [] ∧ s.queue.pending = 0
  refuses : ∀ c, s.queue.post c = .error .sessionTerminated
  /-- Events have no effect, and nothing is traced. -/
  events : ∀ who kind frame, s.event who kind frame = (s, .done false)
  /-- The connection is closed once, and then requests are answered at most. -/
  closed : ClosedOnce s.outbox inputs

/-- What holds of a session that has ended, whatever it reacts to afterwards, is what is promised of
its end. -/
theorem Ended.terminated {inputs : List Input} (h : Ended s) (reachable : Reachable s)
    (closed : ClosedOnce s.outbox inputs) : Terminated s inputs where
  finished := h.finished
  answer := by
    rw [mayRun?, h.lifecycle]
    rfl
  awake := h.awake
  leaves := by
    intro t _ stopped
    obtain ⟨x, suspension⟩ := Option.isSome_iff_exists.mp stopped
    exact h.serve suspension
  settled := by
    obtain ⟨positions, steps⟩ := s.settle_run
    intro t member
    have awake : t.suspension = none := by simpa using List.countP_eq_zero.mp h.settle t member
    refine ⟨?_, awake⟩
    obtain registered | gone := List.mem_append.mp member
    · have ended := h.run (positions.map Input.serve)
      rw [← steps] at ended
      exact ended.awake t registered
    · have later := reachable.run (positions.map Input.serve)
      rw [← steps] at later
      have stopped := later.departed t gone
      rw [awake] at stopped
      cases stopped
  empty := by
    rw [h.queue]
    exact ⟨rfl, rfl⟩
  refuses := CommandQueue.post_of_closed h.over
  events := h.event
  closed := closed

/-- A session that an input has ended has ended for good, whatever it reacts to afterwards. -/
theorem termination_is_final (setup : Setup) (program : Program) (past future : List Input)
    (ended : ∃ i ∈ past, i.Ends) :
    Terminated ((start setup program).run (past ++ future)) (past ++ future) := by
  have append : (start setup program).run (past ++ future) =
      ((start setup program).run past).run future :=
    List.foldl_append ..
  have later : Ended (((start setup program).run past).run future) := by
    have finished := ((start setup program).finished_run_iff past).mpr (.inr ended)
    cases course_start setup program past with
    | ongoing lasting =>
        rw [lasting] at finished
        cases finished
    | ended gone => exact gone.run future
  rw [← append] at later
  cases course_start setup program (past ++ future) with
  | ongoing lasting =>
      rw [later.finished] at lasting
      cases lasting
  | ended _ closed => exact later.terminated ⟨setup, program, past ++ future, rfl⟩ closed

end

end Session

end RemoteDebugger
