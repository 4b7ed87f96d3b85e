import RemoteDebugger.Proofs.Session.Stepping

/-!
# What becomes of a thread

Whatever a session reacts to, a registered thread stays as it is or makes one of a few moves: it is
asked to stop, it stops inside an event, it jumps or leaves the event it has stopped in, or it is
told to run when the session ends. A property of the threads holds along every run if new threads
have it and every move keeps it.
-/

namespace RemoteDebugger

/-- The controller asks threads to stop. -/
def Input.AsksToStop : Input → Prop
  | .request code _ _ => Wire.Command.ofCode? code = some .threadSuspend
  | _ => False

/-- The input is an event in which a session stops the thread of an identifier. -/
def Session.StopsIn (s : Session) (id : String) : Input → Prop
  | .event who kind frame => who.id = id ∧ (s.event who kind frame).2 = .blocked
  | _ => False

namespace Thread

/-- A stopped thread has left its event and goes on. An exception it has stopped for is done
with. -/
def leaving (t : Thread) (x : Suspension) (state : ControlState) (depth : Nat) : Thread :=
  { t.resume state depth with
    inEngine := false
    suspension := none
    exception := if x.exception.isSome then none else t.exception }

/-- What a thread can become when a session reacts to an input. -/
inductive Moves (s : Session) (i : Input) (t : Thread) : Thread → Prop
  | stays : Moves s i t t
  | asked (asks : i.AsksToStop) : Moves s i t t.asked
  | stops (reason : StopReason) (top : FrameRef) (exception : Option RaisedException)
      (outside : t.inEngine = false) (within : s.StopsIn t.id i)
      (raised : exception.isSome = true → reason.isException = true) :
      Moves s i t (t.halted reason top exception)
  | jumps {x : Suspension} (stopped : t.suspension = some x) :
      Moves s i t { t with control := .stopped .setNextStatement }
  /-- A command tells how the thread goes on, or the end of the session lets it run. -/
  | leaves {x : Suspension} (stopped : t.suspension = some x) (state : ControlState) (depth : Nat)
      (told : state = .running ∨ ∃ c ∈ s.queue.commands, c.action = .resume state) :
      Moves s i t (t.leaving x state depth)
  /-- The session ends. -/
  | released (ended : (s.react i).1.finished = true) : Moves s i t (t.resume .running 0)

end Thread

namespace Session

open Thread (Moves)

/-- The thread of an identifier before a reaction. One that is not registered yet is as a new
thread. -/
def Before (s : Session) (id : String) (t : Thread) : Prop :=
  s.thread? id = some t ∨ s.thread? id = none ∧ ∃ who : ThreadRef, who.id = id ∧ t = { ref := who }

variable {s s' : Session} {id : String} {t t' : Thread}

theorem Before.id_eq (h : s.Before id t) : t.id = id := by
  obtain known | ⟨-, who, rfl, rfl⟩ := h
  · exact thread?_id known
  · rfl

/-- What a thread was before its introduction: the thread itself if it was known, and otherwise a
new one. -/
theorem before_introduce (s : Session) (who : ThreadRef) : s.Before who.id (s.introduce who).2 := by
  cases known : s.thread? who.id with
  | some t =>
      rw [introduce_of_known known]
      exact .inl known
  | none =>
      rw [introduce_of_new known]
      exact .inr ⟨known, who, rfl, rfl⟩

/-- A thread leaves its event in the same way whether its stop was at an exception or not. The two
differ only in what is announced. -/
theorem leaveEvent_thread (s : Session) (t : Thread) (x : Suspension) (state : ControlState)
    (depth : Nat) : (s.leaveEvent (t.resume state depth) x).2 = t.leaving x state depth := by
  cases raised : x.exception with
  | none =>
      rw [leaveEvent_of_plain raised, Thread.leaving, raised]
      rfl
  | some e =>
      rw [leaveEvent_of_exception raised, Thread.leaving, raised]
      rfl

/-- A stopped thread that serves a command stays, goes on or stops anew, and each of these is a
move. The input is any that makes it serve. -/
theorem moves_serve (served : s.serve t = some (s', t')) (i : Input) : Moves s i t t' := by
  obtain ⟨x, stopped, ⟨-, left⟩ | ⟨-, c, q, s₁, flow, taken, executed, obeyed⟩⟩ :=
    serve_eq_some served
  · have same := s.leaveEvent_thread t x .running 0
    rw [left] at same
    obtain rfl : t' = t.leaving x .running 0 := same
    exact .leaves stopped .running 0 (.inl rfl)
  · cases flow with
    | stay =>
        obtain rfl : t = t' := congrArg Prod.snd obeyed
        exact .stays
    | resume state =>
        have same := (s₁.notifyRun (t.resume state (s₁.program.depth x.top))
          state.resumeCommand).leaveEvent_thread t x state (s₁.program.depth x.top)
        have left : t.leaving x state (s₁.program.depth x.top) = t' :=
          same.symm.trans (congrArg Prod.snd obeyed)
        have told : c.action = .resume state := execute_flow_resume (congrArg Prod.snd executed)
        exact left ▸ .leaves stopped state _ (.inr ⟨c, CommandQueue.mem_takeOne taken, told⟩)
    | resuspend reason =>
        obtain rfl := execute_resuspend (congrArg Prod.snd executed)
        have again : { t with control := .stopped .setNextStatement } = t' :=
          congrArg Prod.snd obeyed
        exact again ▸ .jumps stopped

/-- An event that does not stop its thread leaves all threads as they were, but for the introduction
of its own. -/
theorem threads_event_of_done {who : ThreadRef} {kind : EventKind} {frame : FrameRef}
    {traced : Bool} (done : (s.event who kind frame).2 = .done traced) :
    (s.event who kind frame).1.threads = s.threads ∨
      (s.event who kind frame).1.threads = (s.introduce who).1.threads := by
  rw [event] at done ⊢
  obtain ⟨-, ignored⟩ | passed | looked :=
    s.eventSkipping_cases s.breakpoints.skips.contains who kind frame
  · rw [ignored]
    exact .inl rfl
  · rw [passed]
    exact .inr rfl
  · rw [looked] at done ⊢
    exact .inr (threads_of_done done)

/-- An event that stops its thread halts it. It is an exception only if this is the reason, so that
a later event cannot show an exception from before. -/
theorem halted_of_blocked {who : ThreadRef} {kind : EventKind} {frame : FrameRef}
    (blocked : (s.event who kind frame).2 = .blocked) :
    ∃ reason top exception, (s.event who kind frame).1.thread? who.id =
        some ((s.introduce who).2.halted reason top exception) ∧
      (exception.isSome = true → reason.isException = true) := by
  have looked := event_of_blocked blocked
  have registered := s.thread?_introduce who
  have same := s.introduce_id who
  rw [looked] at blocked ⊢
  obtain ⟨traced, unfiltered, reason, top, suspends⟩ := lookAt_of_blocked blocked
  have known : ((s.introduce who).1.decided (s.introduce who).2 kind frame).1.thread?
      (s.introduce who).2.id = some (s.introduce who).2 := by
    rwa [same, thread?, decided_threads]
  obtain ⟨exception, applied, raised⟩ :=
    ((s.introduce who).1.decided (s.introduce who).2 kind frame).1.apply_suspend (s.introduce who).2
      kind ((s.introduce who).1.skipKey? kind frame)
      (s.introduce who).1.breakpoints.snapshot.generation reason top
  refine ⟨reason, top, exception, ?_, raised⟩
  rw [lookAt_of_traced traced unfiltered, suspends, applied, ← same]
  exact thread?_suspend known

theorem thread?_of_threads (same : s'.threads = s.threads) : s'.thread? id = s.thread? id := by
  rw [thread?, same, thread?]

/-- An input that does nothing but introduce a thread is a move of no thread: whoever is known
afterwards was so before, or is new. -/
theorem moves_introduced {who : ThreadRef} (i : Input)
    (after : (s.introduce who).1.thread? id = some t') : ∃ t, s.Before id t ∧ Moves s i t t' := by
  by_cases mine : id = who.id
  · subst mine
    rw [thread?_introduce] at after
    obtain rfl := Option.some.inj after
    exact ⟨_, s.before_introduce who, .stays⟩
  · rw [s.thread?_introduce_of_ne mine] at after
    exact ⟨t', .inl after, .stays⟩

/-- After an event, its own thread has stayed or stopped, and every other has stayed. -/
theorem moves_event {who : ThreadRef} {kind : EventKind} {frame : FrameRef}
    (after : (s.event who kind frame).1.thread? id = some t') :
    ∃ t, s.Before id t ∧ Moves s (.event who kind frame) t t' := by
  cases outcome : (s.event who kind frame).2 with
  | done traced =>
      obtain same | same := threads_event_of_done outcome
      · rw [thread?_of_threads same] at after
        exact ⟨t', .inl after, .stays⟩
      · rw [thread?_of_threads same] at after
        exact moves_introduced _ after
  | blocked =>
      by_cases mine : id = who.id
      · subst mine
        obtain ⟨reason, top, exception, halted, raised⟩ := halted_of_blocked outcome
        rw [halted] at after
        obtain rfl := Option.some.inj after
        have within : s.StopsIn (s.introduce who).2.id (.event who kind frame) :=
          ⟨(s.introduce_id who).symm, outcome⟩
        exact ⟨_, s.before_introduce who,
          .stops reason top exception (outside_of_blocked outcome).2 within raised⟩
      · rw [s.thread?_event_of_ne mine] at after
        exact ⟨t', .inl after, .stays⟩

/-- The end of a session lets every thread go on. It forgets none, so each that is found afterwards
was there before. -/
theorem moves_finish {i : Input} (finishes : (s.react i).1 = s.finish)
    (after : s.finish.thread? id = some t') : ∃ t, s.thread? id = some t ∧ Moves s i t t' := by
  rw [finish] at after
  split at after
  · exact ⟨t', after, .stays⟩
  · have mapped : s.finish.thread? id = (s.thread? id).map fun t => t.resume .running 0 := by
      rw [finish, if_neg (by assumption)]
      exact List.find?_map ..
    rw [finish, if_neg (by assumption)] at mapped
    rw [mapped] at after
    obtain ⟨t, known, rfl⟩ := Option.map_eq_some_iff.mp after
    exact ⟨t, known, .released (finishes ▸ s.finished_finish)⟩

/-- A request moves threads only by asking them to stop or by ending the session. What lets a single
thread go on is a command in the queue, and not the request that has posted it. -/
theorem Granted.moves {code : Nat} {seq : Int} {payload : String} (granted : Granted s code seq s')
    (reacted : s.request code seq payload = s') (after : s'.thread? id = some t') :
    ∃ t, s.thread? id = some t ∧ Moves s (.request code seq payload) t t' := by
  cases granted with
  | answered | resumed | posted | changed | switched => exact ⟨t', after, .stays⟩
  | ready =>
      obtain ⟨lifecycle, same⟩ := s.markReady_eq
      rw [same] at after
      exact ⟨t', after, .stays⟩
  | askedAll plain asks =>
      rw [thread?_askedAll] at after
      obtain ⟨t, known, rfl⟩ := Option.map_eq_some_iff.mp after
      exact ⟨t, known, .asked asks⟩
  | asked u known plain asks =>
      obtain mine | other := thread?_asked known id
      · rw [mine] at after
        obtain ⟨t, known, rfl⟩ := Option.map_eq_some_iff.mp after
        exact ⟨t, known, .asked asks⟩
      · rw [other] at after
        exact ⟨t', after, .stays⟩
  | finished => exact moves_finish reacted after

/-- A step at a position moves the thread that stands there. The identifiers have to be distinct,
for otherwise another thread might be found in its place. -/
theorem moves_serveAt (distinct : (s.threads.map Thread.id).Nodup) {position : Nat} (i : Input)
    (served : s.serveAt position = some s') (after : s'.thread? id = some t') :
    ∃ t, s.thread? id = some t ∧ Moves s i t t' := by
  obtain ⟨u, s₁, u', step, ⟨here, rfl⟩ | ⟨-, departed, rfl⟩⟩ := serveAt_eq_some served
  · have found := find?_set distinct here (serve_id step) id
    rw [thread?, found] at after
    split at after
    · rename_i mine
      obtain rfl := Option.some.inj after
      exact ⟨u, mine ▸ thread?_of_here distinct here, moves_serve step i⟩
    · exact ⟨t', after, .stays⟩
  · obtain ⟨q, serves⟩ := serve_serves step
    have same : s₁.thread? id = s.thread? id := serves.thread? id
    exact ⟨t', same ▸ after, .stays⟩

/-- What a session reacts to makes a thread stay or move. A thread that is found afterwards and was
not there before is as a new one. -/
theorem moves_react (distinct : (s.threads.map Thread.id).Nodup) (i : Input)
    (after : (s.react i).1.thread? id = some t') : ∃ t, s.Before id t ∧ Moves s i t t' := by
  have known {i : Input} (moved : ∃ t, s.thread? id = some t ∧ Moves s i t t') :
      ∃ t, s.Before id t ∧ Moves s i t t' := by
    obtain ⟨t, known, moves⟩ := moved
    exact ⟨t, .inl known, moves⟩
  cases i with
  | request code seq payload =>
      apply known
      rw [react] at after
      obtain ⟨e, refused⟩ | ⟨-, granted⟩ := s.request_cases code seq payload
      · rw [refused] at after
        exact ⟨t', after, .stays⟩
      · exact granted.moves rfl after
  | threadStarted who =>
      rw [react, threadStarted] at after
      split at after
      · exact ⟨t', .inl after, .stays⟩
      · exact moves_introduced _ after
  | threadExited gone =>
      apply known
      refine ⟨t', ?_, .stays⟩
      cases ended : s.finished with
      | true => rwa [react, threadExited, if_pos ended] at after
      | false =>
          have other : id ≠ gone := by
            rintro rfl
            rw [react, thread?_threadExited_self ended] at after
            cases after
          rwa [react, s.thread?_threadExited_of_ne other] at after
  | event who kind frame => exact moves_event after
  | serve position =>
      apply known
      rw [react] at after
      cases served : s.serveAt position with
      | none =>
          rw [served] at after
          exact ⟨t', after, .stays⟩
      | some s' =>
          rw [served] at after
          exact moves_serveAt distinct _ served after
  | console text stream =>
      have looks := Looks.writeToConsole s text stream
      exact ⟨t', .inl (looks.serves.thread? id ▸ after), .stays⟩
  | finish => exact known (moves_finish rfl after)
  | program program => exact ⟨t', .inl after, .stays⟩

@[simp] theorem thread?_start (setup : Setup) (program : Program) (id : String) :
    (start setup program).thread? id = none := rfl

/-- What new threads have and every move keeps, all threads have along a run. -/
theorem threads_invariant {P : Thread → Prop} (new : ∀ who : ThreadRef, P { ref := who })
    {inputs : List Input} (keeps : ∀ i ∈ inputs, ∀ s t t', Moves s i t t' → P t → P t')
    (orderly : Orderly s) (start : ∀ id t, s.thread? id = some t → P t) :
    ∀ id t, (s.run inputs).thread? id = some t → P t := by
  induction inputs generalizing s with
  | nil => exact start
  | cons i inputs ih =>
      apply ih
      · exact fun j later => keeps j (List.mem_cons_of_mem i later)
      · exact orderly_react s i orderly
      · intro id t' after
        obtain ⟨t, known | ⟨-, who, -, rfl⟩, moves⟩ := moves_react orderly.distinct i after
        · exact keeps i List.mem_cons_self s t t' moves (start id t known)
        · exact keeps i List.mem_cons_self s _ t' moves (new who)

/-- A registered thread is inside the engine exactly while it is stopped. -/
theorem Reachable.inEngine (h : Reachable s) (known : s.thread? id = some t) :
    t.inEngine = t.suspension.isSome := by
  obtain ⟨setup, program, inputs, rfl⟩ := h
  refine threads_invariant (P := fun t => t.inEngine = t.suspension.isSome) (fun _ => rfl) ?_
    (orderly_start setup program) ?_ id t known
  · intro i _ s t t' moves same
    cases moves with
    | stays | asked | jumps | released => exact same
    | stops | leaves => rfl
  · intro id t registered
    rw [thread?_start] at registered
    cases registered

end Session

end RemoteDebugger
