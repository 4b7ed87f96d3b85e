import RemoteDebugger.Proofs.Session.Run
import RemoteDebugger.Proofs.Session.Wording

/-!
# What the operations of a session change

One lemma for each operation says which parts of a session it can change, and in which way.
Everything about runs is derived from these lemmas, so the operations themselves are opened only
here.

Commands and log points answer and report; beside the outbox they change the decisions of the
resolvers, and a command also the program. `Serves` and `Looks` are these two relations. A request
that succeeds does one of the few things that `Granted` lists; one that fails is answered, and
nothing else.
-/

namespace RemoteDebugger

/-- The number of the request that waits for an answer. A command to go on has none, and is answered
by nobody. -/
def Action.seq? : Action → Option Int
  | .resume _ => none
  | .setNextStatement seq _ | .getVariable seq _ _ _ | .getFrame seq _ | .evaluate seq _ _ _ _
  | .changeVariable seq _ _ _ | .completions seq _ _ | .customOperation seq _ _ _ _ _ _
  | .exceptionTrace seq | .reloadCode seq _ => some seq

/-- The command under which a command of the queue is answered if it succeeds. The others are
answered only if they fail. -/
def Action.answer? : Action → Option Wire.Command
  | .resume _ | .setNextStatement _ _ | .reloadCode _ _ => none
  | .getVariable _ _ _ _ => some .getVariable
  | .getFrame _ _ => some .getFrame
  | .evaluate _ _ _ _ response => some response
  | .changeVariable _ _ _ _ => some .result
  | .completions _ _ _ => some .getCompletions
  | .customOperation _ _ _ _ _ _ _ => some .runCustomOperation
  | .exceptionTrace _ => some .sendExceptionTrace

/-- A thread that has stopped inside an event. -/
def Thread.halted (t : Thread) (reason : StopReason) (top : FrameRef)
    (exception : Option RaisedException) : Thread :=
  { t.stop reason with
    inEngine := true
    exception := exception.or t.exception
    suspension := some ⟨top, exception⟩ }

namespace Session

/-- Commands have been served: only messages, decisions of the resolvers and the program differ. -/
def Serves (s s' : Session) : Prop :=
  s' = { s with outbox := s'.outbox, resolvers := s'.resolvers, program := s'.program }

/-- The program has been looked at: only messages and decisions of the resolvers differ. -/
def Looks (s s' : Session) : Prop :=
  s' = { s with outbox := s'.outbox, resolvers := s'.resolvers }

namespace Serves

variable {s s' s'' : Session}

theorem refl (s : Session) : Serves s s := rfl

theorem trans (first : Serves s s') (second : Serves s' s'') : Serves s s'' := by
  rw [Serves] at first second ⊢
  rw [first] at second
  exact second

theorem respondError (s : Session) (seq : Int) (e : Error) : Serves s (s.respondError seq e) := rfl

theorem config (h : Serves s s') : s'.config = s.config := by rw [h]

theorem runtime (h : Serves s s') : s'.runtime = s.runtime := by rw [h]

theorem filter (h : Serves s s') : s'.filter = s.filter := by rw [h]

theorem breakpoints (h : Serves s s') : s'.breakpoints = s.breakpoints := by
  rw [h]

theorem threads (h : Serves s s') : s'.threads = s.threads := by rw [h]

theorem departed (h : Serves s s') : s'.departed = s.departed := by rw [h]

theorem queue (h : Serves s s') : s'.queue = s.queue := by rw [h]

theorem finished (h : Serves s s') : s'.finished = s.finished := by rw [h]

end Serves

namespace Looks

variable {s s' s'' : Session}

theorem refl (s : Session) : Looks s s := rfl

theorem trans (first : Looks s s') (second : Looks s' s'') : Looks s s'' := by
  rw [Looks] at first second ⊢
  rw [first] at second
  exact second

theorem serves (h : Looks s s') : Serves s s' := by
  rw [h]
  rfl

theorem respond (s : Session) (command : Wire.Command) (seq : Int) (payload : String) :
    Looks s (s.respond command seq payload) := rfl

theorem notify (s : Session) (command : Wire.Command) (payload : String) :
    Looks s (s.notify command payload) := rfl

theorem writeToConsole (s : Session) (text : String) (stream : Nat) :
    Looks s (s.writeToConsole text stream) := by
  rw [Session.writeToConsole]
  split <;> rfl

theorem program (h : Looks s s') : s'.program = s.program := by rw [h]

end Looks

theorem looks_of_inspect {α : Type} {s s' : Session} {look : Inspect α} {result : Except Error α}
    (h : s.inspect look = (s', result)) : Looks s s' := by
  obtain ⟨rfl, -⟩ := Prod.ext_iff.mp h
  rfl

/-- An answer is evaluated in a view of a frame and sent. It leaves the program as it was, whether
it is the answer asked for or an error. -/
theorem answer_looks (s : Session) (command : Wire.Command) (seq : Int) (top : FrameRef)
    (selector : FrameSelector) (look : View → Inspect String) :
    Looks s (s.answer command seq top selector look) := by
  rw [answer]
  split
  rename_i looked
  have looks := looks_of_inspect looked
  split
  · exact looks.trans (Looks.respond _ _ _ _)
  · exact looks.trans (Looks.respond _ _ _ _)

/-- A change of a variable reaches the heap or the locals of a frame. It is answered, and nothing
beside the program and the decisions of the resolvers changes with it. -/
theorem changeVariable_serves (s : Session) (seq : Int) (top : FrameRef)
    (selector : FrameSelector) (path : List String) (expression : String) :
    Serves s (s.changeVariable seq top selector path expression) := by
  rw [changeVariable]
  split
  rename_i looked
  have serves := (looks_of_inspect looked).serves
  split
  · exact serves.trans rfl
  · exact serves.trans (Serves.respondError _ _ _)

/-- A command changes nothing beside the outbox, the resolvers and the program. In particular it
posts no other command and leaves the threads and the breakpoints alone. -/
theorem execute_serves (s : Session) (t : Thread) (top : FrameRef) (suspended : Bool) (a : Action) :
    Serves s (s.execute t top suspended a).1 := by
  cases a <;> simp only [execute, (answer_looks _ _ _ _ _ _).serves, changeVariable_serves]
  · exact Serves.refl s
  · split
    · split <;> rfl
    · rfl
  · split <;> rfl
  · split <;> rfl

/-- There is exactly one answer, under the number of the request: the one asked for or an error.
What it carries is what such an answer can carry. -/
theorem answer_outbox (s : Session) {command : Wire.Command} (seq : Int) (top : FrameRef)
    (selector : FrameSelector) {look : View → Inspect String}
    (finds : ∀ w, (look w).Ensures command.Carries) :
    ∃ c payload, (c = .error ∨ command = c) ∧ c.Carries payload ∧
      (s.answer command seq top selector look).outbox = s.outbox.respond c seq payload := by
  rw [answer]
  split
  rename_i looked
  split
  · have carries := inspect_ensures (.after finds) looked
    obtain ⟨rfl, -⟩ := Prod.ext_iff.mp looked
    exact ⟨_, _, .inr rfl, carries, rfl⟩
  · obtain ⟨rfl, -⟩ := Prod.ext_iff.mp looked
    exact ⟨_, _, .inl rfl, .inl rfl, rfl⟩

/-- There is exactly one answer, under the number of the request: the value that was stored, or an
error. -/
theorem changeVariable_outbox (s : Session) (seq : Int) (top : FrameRef)
    (selector : FrameSelector) (path : List String) (expression : String) :
    ∃ c payload, (c = .error ∨ .result = c) ∧ c.Carries payload ∧
      (s.changeVariable seq top selector path expression).outbox =
        s.outbox.respond c seq payload := by
  rw [changeVariable]
  split
  rename_i looked
  split
  · have carries := inspect_ensures
      (P := fun found : Program × String => Wire.Command.result.Carries found.2)
      (.after fun w => .after fun found => .after fun _ =>
        .bind (s.showVariables_carries _ _) fun payload carries => .found carries) looked
    obtain ⟨rfl, -⟩ := Prod.ext_iff.mp looked
    exact ⟨_, _, .inr rfl, carries, rfl⟩
  · obtain ⟨rfl, -⟩ := Prod.ext_iff.mp looked
    exact ⟨_, _, .inl rfl, .inl rfl, rfl⟩

/-- A command sends at most one message: an answer under the number of its request, which is an
error or the answer that the request is entitled to. One that is entitled to an answer is
answered. -/
theorem execute_outbox (s : Session) (t : Thread) (top : FrameRef) (suspended : Bool) (a : Action) :
    (a.answer? = none ∧ (s.execute t top suspended a).1.outbox = s.outbox) ∨
      ∃ seq c payload, a.seq? = some seq ∧ (c = .error ∨ a.answer? = some c) ∧ c.Carries payload ∧
        (s.execute t top suspended a).1.outbox = s.outbox.respond c seq payload := by
  have answered {seq : Int} {command : Wire.Command} {o : Wire.Outbox}
      (sent : ∃ c payload, (c = .error ∨ command = c) ∧ c.Carries payload ∧
        o = s.outbox.respond c seq payload) :
      ∃ n c payload, some seq = some n ∧ (c = .error ∨ some command = some c) ∧ c.Carries payload ∧
        o = s.outbox.respond c n payload := by
    obtain ⟨c, payload, entitled, carries, same⟩ := sent
    exact ⟨seq, c, payload, rfl, entitled.imp_right (congrArg some), carries, same⟩
  cases a with
  | resume state => exact .inl ⟨rfl, rfl⟩
  | setNextStatement seq line =>
      simp only [execute]
      split
      · split
        · exact .inl ⟨rfl, rfl⟩
        · exact .inr ⟨_, _, _, rfl, .inl rfl, .inl rfl, rfl⟩
      · exact .inr ⟨_, _, _, rfl, .inl rfl, .inl rfl, rfl⟩
  | changeVariable seq frame path expression =>
      exact .inr (answered (s.changeVariable_outbox seq top frame path expression))
  | exceptionTrace seq =>
      simp only [execute]
      split
      · exact .inr ⟨_, _, _, rfl, .inl rfl, .inl rfl, rfl⟩
      · exact .inr ⟨_, _, _, rfl, .inr rfl, .inr (Wire.lineFeed_notMem_joinFields _), rfl⟩
  | reloadCode seq module_ =>
      simp only [execute]
      split
      · exact .inl ⟨rfl, rfl⟩
      · exact .inr ⟨_, _, _, rfl, .inl rfl, .inl rfl, rfl⟩
      · exact .inr ⟨_, _, _, rfl, .inl rfl, .inl rfl, rfl⟩
  | getVariable seq frame scope path =>
      exact .inr (answered (s.answer_outbox seq top frame fun _ => .after fun vars =>
        s.showVariables_carries vars _))
  | getFrame seq frame =>
      exact .inr (answered (s.answer_outbox seq top frame fun w =>
        s.showVariables_carries w.here.locals _))
  | evaluate seq frame expression exec response =>
      exact .inr (answered (s.answer_outbox seq top frame fun _ => .after fun _ =>
        s.showVariables_carries _ response))
  | completions seq frame token =>
      exact .inr (answered (s.answer_outbox seq top frame fun _ => .after fun cs =>
        .found (.inr (Payload.lineFeed_notMem_completions cs))))
  | customOperation seq frame =>
      exact .inr (answered (s.answer_outbox seq top frame fun _ => .always fun _ => .inl rfl))

/-- The only command after which a thread stops anew is a jump. -/
theorem execute_resuspend {s : Session} {t : Thread} {top : FrameRef} {suspended : Bool}
    {a : Action} {reason : StopReason} (h : (s.execute t top suspended a).2 = .resuspend reason) :
    reason = .setNextStatement := by
  cases a with
  | resume state =>
      simp only [execute] at h
      split at h <;> cases h
  | setNextStatement seq line =>
      simp only [execute] at h
      split at h
      · split at h
        · cases h
          rfl
        · cases h
      · cases h
  | exceptionTrace | reloadCode =>
      simp only [execute] at h
      split at h <;> cases h
  | getVariable | getFrame | evaluate | changeVariable | completions | customOperation => cases h

/-- A thread that stops anew has been told to jump. The jump itself may have been to any line; that
it was possible is not said here. -/
theorem execute_flow_resuspend {s : Session} {t : Thread} {top : FrameRef} {suspended : Bool}
    {a : Action} {reason : StopReason} (h : (s.execute t top suspended a).2 = .resuspend reason) :
    ∃ seq line, a = .setNextStatement seq line := by
  cases a with
  | resume state =>
      simp only [execute] at h
      split at h <;> cases h
  | setNextStatement seq line => exact ⟨seq, line, rfl⟩
  | exceptionTrace | reloadCode =>
      simp only [execute] at h
      split at h <;> cases h
  | getVariable | getFrame | evaluate | changeVariable | completions | customOperation => cases h

/-- The only command after which a thread goes on is one that tells it to. -/
theorem execute_flow_resume {s : Session} {t : Thread} {top : FrameRef} {suspended : Bool}
    {a : Action}
    {state : ControlState} (h : (s.execute t top suspended a).2 = .resume state) :
    a = .resume state := by
  cases a with
  | resume state' =>
      simp only [execute] at h
      split at h
      · cases h
        rfl
      · cases h
  | setNextStatement seq line =>
      simp only [execute] at h
      split at h
      · split at h
        · cases h
        · cases h
      · cases h
  | exceptionTrace | reloadCode =>
      simp only [execute] at h
      split at h <;> cases h
  | getVariable | getFrame | evaluate | changeVariable | completions | customOperation => cases h

/-- After a command that a running thread carries out, it does what it did before. -/
@[simp] theorem execute_running (s : Session) (t : Thread) (top : FrameRef) (a : Action) :
    (s.execute t top false a).2 = .stay := by
  cases a with
  | exceptionTrace | reloadCode =>
      simp only [execute]
      split <;> rfl
  | resume | setNextStatement | getVariable | getFrame | evaluate | changeVariable | completions
    | customOperation => rfl

/-- Commands carried out one after the other on a running thread. -/
def executeAll (s : Session) (t : Thread) (top : FrameRef) (commands : List QueuedCommand) :
    Session :=
  commands.foldl (fun s c => (s.execute t top false c.action).1) s

/-- Several commands together change no more than each of them does, so their number and order do
not matter to what is left alone. -/
theorem executeAll_serves (s : Session) (t : Thread) (top : FrameRef)
    (commands : List QueuedCommand) : Serves s (s.executeAll t top commands) := by
  induction commands generalizing s with
  | nil => exact Serves.refl s
  | cons c commands ih => exact (s.execute_serves t top false c.action).trans (ih _)

theorem runPending_eq (s : Session) (t : Thread) (top : FrameRef) :
    s.runPending t top =
      { s with queue := (s.queue.takeFor t.id).2 }.executeAll t top (s.queue.takeFor t.id).1 := rfl

/-- A running thread takes its commands out of the queue, and then serves them. -/
theorem runPending_serves (s : Session) (t : Thread) (top : FrameRef) :
    Serves { s with queue := (s.queue.takeFor t.id).2 } (s.runPending t top) :=
  executeAll_serves _ t top _

/-- Without pending commands there is nothing to do, and the session is the very same afterwards. -/
theorem runPending_of_not_pending {s : Session} (h : s.queue.hasPending = false) (t : Thread)
    (top : FrameRef) : s.runPending t top = s := by
  have none_taken : s.queue.takeFor t.id = ([], s.queue) := by
    simp [CommandQueue.takeFor, h]
  rw [runPending_eq, none_taken]
  rfl

theorem logText_looks (s : Session) (h : Heap) (v : Value) : Looks s (s.logText h v).1 := by
  cases v <;> rfl

/-- A log point writes to the console, and reports an expression that fails. It has no other effect.
-/
theorem logPoint_looks (s : Session) (frame : FrameRef) (expression : String) :
    Looks s (s.logPoint frame expression) := by
  rw [logPoint]
  split
  · exact (logText_looks _ _ _).trans (Looks.writeToConsole _ _ _)
  · exact Looks.writeToConsole _ _ _

/-- Neither the condition nor the expression of a breakpoint changes the program, whether it can be
evaluated or not. -/
theorem checkBreakpoint_looks (s : Session) (t : Thread) (frame : FrameRef) (b : Breakpoint) :
    Looks s (s.checkBreakpoint t frame b).1 := by
  rw [checkBreakpoint]
  split
  · split
    · exact Looks.refl s
    · split
      · exact s.logPoint_looks frame _
      · exact Looks.refl s
    · exact Looks.notify _ _ _
  · exact Looks.refl s

/-- The breakpoints of a line are checked up to the first that stops. Those after it are not looked
at, and none of them changes the program. -/
theorem checkBreakpoints_looks (s : Session) (t : Thread) (frame : FrameRef)
    (breakpoints : List Breakpoint) : Looks s (s.checkBreakpoints t frame breakpoints).1 := by
  induction breakpoints generalizing s with
  | nil => exact Looks.refl s
  | cons b rest ih =>
      have first := s.checkBreakpoint_looks t frame b
      rw [checkBreakpoints]
      split
      · rename_i checked
        simpa only [checked] using first
      · rename_i checked
        rw [checked] at first
        exact first.trans (ih _)

theorem decideLine_looks (s : Session) (t : Thread) (frame : FrameRef) (file : String)
    (snapshot : Snapshot) : Looks s (s.decideLine t frame file snapshot).1 := by
  have looked := s.checkBreakpoints_looks t frame (snapshot.at_ file (s.program.frame frame).line)
  rw [decideLine]
  dsimp only
  split
  · exact Looks.refl s
  · split
    · rename_i checked
      simpa only [checked] using looked
    · rename_i checked
      rw [checked] at looked
      split <;> exact looked

/-- To decide about an event is to look at the program. -/
theorem decide_looks (s : Session) (t : Thread) (kind : EventKind) (frame : FrameRef)
    (file : String) (snapshot : Snapshot) : Looks s (s.decide t kind frame file snapshot).1 := by
  cases kind with
  | line => exact s.decideLine_looks t frame file snapshot
  | call | ret | exception => exact Looks.refl s

/-- A call is recorded in the outbox only: what a session does later never depends on the calls that
were recorded. -/
theorem recordCall_looks (s : Session) (kind : EventKind) (frame : FrameRef) (file : String) :
    Looks s (s.recordCall kind frame file) := by
  rw [recordCall.eq_def]
  split
  · split <;> rfl
  · rfl

theorem thread?_id {s : Session} {id : String} {t : Thread} (h : s.thread? id = some t) :
    t.id = id := by
  simpa using List.find?_some h

theorem markReady_eq (s : Session) :
    ∃ lifecycle, s.markReady = { s with lifecycle := lifecycle } :=
  ⟨s.lifecycle.ready, rfl⟩

/-- A thread that is introduced is registered and announced; one that is known already is left as it
is. Everything else in the session stays. -/
theorem introduce_eq (s : Session) (who : ThreadRef) :
    ∃ threads outbox, (s.introduce who).1 = { s with threads := threads, outbox := outbox } := by
  rw [introduce]
  split
  · exact ⟨_, _, rfl⟩
  · exact ⟨_, _, rfl⟩

@[simp] theorem introduce_of_known {s : Session} {who : ThreadRef} {t : Thread}
    (known : s.thread? who.id = some t) : s.introduce who = (s, t) := by
  rw [introduce, known]

/-- A thread that is not known is appended to the registered threads and announced once. It runs,
and nobody has asked it to stop. -/
@[simp] theorem introduce_of_new {s : Session} {who : ThreadRef} (new : s.thread? who.id = none) :
    s.introduce who =
      (notify { s with threads := s.threads ++ [{ ref := who }] } .threadCreate
        (Payload.threadCreated who), { ref := who }) := by
  rw [introduce, new]

/-- After its introduction a thread is found under its identifier, new or not. -/
@[simp] theorem thread?_introduce (s : Session) (who : ThreadRef) :
    (s.introduce who).1.thread? who.id = some (s.introduce who).2 := by
  cases known : s.thread? who.id with
  | some t => simp [known]
  | none =>
      rw [introduce_of_new known]
      show (s.threads ++ [({ ref := who } : Thread)]).find? _ = _
      rw [List.find?_append, show s.threads.find? _ = none from known]
      simp [Thread.id]

@[simp] theorem introduce_id (s : Session) (who : ThreadRef) : (s.introduce who).2.id = who.id :=
  thread?_id (s.thread?_introduce who)

/-- The introduction of a thread is nothing to the others, whether they are known or not. -/
@[simp] theorem thread?_introduce_of_ne (s : Session) {who : ThreadRef} {id : String}
    (other : id ≠ who.id) :
    (s.introduce who).1.thread? id = s.thread? id := by
  cases known : s.thread? who.id with
  | some t => simp [known]
  | none =>
      rw [introduce_of_new known]
      show (s.threads ++ [({ ref := who } : Thread)]).find? _ = _
      rw [List.find?_append, thread?]
      simp [Thread.id, Ne.symm other]

/-- A thread that is introduced shares its identifier with no other. -/
theorem nodup_introduce (s : Session) (who : ThreadRef)
    (distinct : (s.threads.map Thread.id).Nodup) :
    ((s.introduce who).1.threads.map Thread.id).Nodup := by
  cases known : s.thread? who.id with
  | some t => simpa [known] using distinct
  | none =>
      have fresh : ∀ t ∈ s.threads, t.id ≠ who.id := by simpa [thread?] using known
      rw [introduce_of_new known]
      show ((s.threads ++ [({ ref := who } : Thread)]).map Thread.id).Nodup
      rw [List.map_append, List.nodup_append]
      refine ⟨distinct, by simp, ?_⟩
      intro id member id' new equal
      obtain ⟨t, registered, rfl⟩ := List.mem_map.mp member
      obtain rfl := List.mem_singleton.mp new
      exact fresh t registered equal

/-- A thread may exit unseen. Commands that wait for it are discarded all the same, and nothing is
announced. -/
theorem threadExited_of_unknown {s : Session} {id : String} (lasting : s.finished = false)
    (unknown : s.thread? id = none) :
    s.threadExited id = { s with queue := s.queue.discardFor id } := by
  have unknown' : thread? { s with queue := s.queue.discardFor id } id = none := unknown
  rw [threadExited, if_neg (by simp [lasting])]
  dsimp only
  rw [unknown']

/-- A known thread that exits is removed, its commands are discarded and its end is announced. If it
has stopped, it is kept among the departed until it leaves its event. -/
theorem threadExited_of_known {s : Session} {id : String} {t : Thread}
    (lasting : s.finished = false) (known : s.thread? id = some t) :
    s.threadExited id = notify { s with
      queue := s.queue.discardFor id
      threads := s.threads.filter fun u => u.id != id
      departed := if t.suspension.isSome then s.departed ++ [t]
        else s.departed } .threadKill id := by
  have known' : thread? { s with queue := s.queue.discardFor id } id = some t := known
  rw [threadExited, if_neg (by simp [lasting])]
  dsimp only
  rw [known']

/-- A thread that has exited is not known any more, and the others are as they were. -/
@[simp] theorem find?_exited (threads : List Thread) (id id' : String) :
    (threads.filter fun u => u.id != id).find? (fun u => u.id == id') =
      if id' = id then none else threads.find? fun u => u.id == id' := by
  rw [List.find?_filter]
  by_cases mine : id' = id
  · subst mine
    rw [if_pos rfl]
    simp
  · rw [if_neg mine]
    congr 1
    funext u
    by_cases found : u.id = id'
    · simp [found, mine]
    · simp [found]

/-- A thread that is known is found as it was put. The lemma promises nothing for a thread that is
not known: putting one does not register it. -/
@[simp] theorem thread?_putThread {s : Session} {t u : Thread} (known : s.thread? t.id = some u) :
    (s.putThread t).thread? t.id = some t := by
  have same : u.id = t.id := by simpa using List.find?_some known
  have found : s.threads.find? (fun v => v.id == t.id) = some u := known
  have keeps : ((fun v => v.id == t.id) ∘ fun v => if v.id = t.id then t else v) =
      fun v : Thread => v.id == t.id := by
    funext v
    by_cases mine : v.id = t.id <;> simp [mine]
  show (s.threads.map fun v => if v.id = t.id then t else v).find? (fun v => v.id == t.id) = _
  rw [List.find?_map, keeps, found]
  simp [same]

/-- Replacing the thread at a position, under the same identifier, is seen under that identifier
only. The identifiers have to be distinct, since a search ends at the first match. -/
theorem find?_set {threads : List Thread} (distinct : (threads.map Thread.id).Nodup) {i : Nat}
    {t t' : Thread} (here : threads[i]? = some t) (same : t'.id = t.id) (id : String) :
    (threads.set i t').find? (fun u => u.id == id) =
      if t.id = id then some t' else threads.find? fun u => u.id == id := by
  induction threads generalizing i with
  | nil => cases here
  | cons u rest ih =>
      rw [List.map_cons, List.nodup_cons] at distinct
      cases i with
      | zero =>
          obtain rfl := Option.some.inj here
          rw [List.set_cons_zero, List.find?_cons, List.find?_cons, same]
          by_cases mine : u.id = id
          · rw [beq_iff_eq.mpr mine, if_pos mine]
          · rw [beq_eq_false_iff_ne.mpr mine, if_neg mine]
      | succ i =>
          have later : rest[i]? = some t := here
          have other : u.id ≠ t.id := by
            intro equal
            refine distinct.1 (List.mem_map.mpr ⟨t, List.mem_of_getElem? later, equal.symm⟩)
          rw [List.set_cons_succ, List.find?_cons, List.find?_cons, ih distinct.2 later]
          by_cases mine : u.id = id
          · have not_last : t.id ≠ id := fun equal => other (mine.trans equal.symm)
            simp only [beq_iff_eq.mpr mine, if_neg not_last]
          · rw [beq_eq_false_iff_ne.mpr mine]

/-- Replacing an element by one with the same image leaves the images as they are. -/
theorem map_set_of_eq {α β : Type} {f : α → β} {l : List α} {i : Nat} {x y : α}
    (here : l[i]? = some x) (same : f y = f x) : (l.set i y).map f = l.map f := by
  have there : (l.map f)[i]? = some (f x) := by rw [List.getElem?_map, here, Option.map_some]
  obtain ⟨bound, found⟩ := List.getElem?_eq_some_iff.mp there
  rw [List.map_set, same, ← found, List.set_getElem_self]

theorem set_of_here {α : Type} {l : List α} {i : Nat} {x : α} (here : l[i]? = some x) :
    l.set i x = l := by
  have same := map_set_of_eq (f := id) here rfl
  rwa [List.map_id, List.map_id] at same

/-- The thread at a position is the one found under its identifier, as no other has the same. -/
theorem thread?_of_here {s : Session} {i : Nat} {t : Thread}
    (distinct : (s.threads.map Thread.id).Nodup) (here : s.threads[i]? = some t) :
    s.thread? t.id = some t := by
  have found : (s.threads.set i t).find? (fun u => u.id == t.id) = _ :=
    find?_set distinct here rfl t.id
  rwa [set_of_here here, if_pos rfl] at found

/-- A thread that is put in its place is put where it is registered. -/
theorem map_replace {threads : List Thread} (distinct : (threads.map Thread.id).Nodup) {i : Nat}
    {t t' : Thread} (here : threads[i]? = some t) (same : t'.id = t.id) :
    threads.map (fun u => if u.id = t'.id then t' else u) = threads.set i t' := by
  induction threads generalizing i with
  | nil => cases here
  | cons u rest ih =>
      rw [List.map_cons, List.nodup_cons] at distinct
      cases i with
      | zero =>
          obtain rfl := Option.some.inj here
          have others : rest.map (fun v => if v.id = t'.id then t' else v) = rest := by
            conv_rhs => rw [← List.map_id rest]
            refine List.map_congr_left fun v later => if_neg fun equal => distinct.1 ?_
            exact List.mem_map.mpr ⟨v, later, equal.trans same⟩
          rw [List.map_cons, List.set_cons_zero, if_pos same.symm, others]
      | succ i =>
          have later : rest[i]? = some t := here
          have other : u.id ≠ t'.id := fun equal => distinct.1 <|
            List.mem_map.mpr ⟨t, List.mem_of_getElem? later, (equal.trans same).symm⟩
          rw [List.map_cons, List.set_cons_succ, if_neg other, ih distinct.2 later]

/-- Putting a thread is seen under its own identifier only. -/
@[simp]
theorem thread?_putThread_of_ne {s : Session} {t : Thread} {id : String} (other : id ≠ t.id) :
    (s.putThread t).thread? id = s.thread? id := by
  have keeps : ((fun v : Thread => v.id == id) ∘ fun v => if v.id = t.id then t else v) =
      fun v : Thread => v.id == id := by
    funext v
    by_cases mine : v.id = t.id
    · simp [mine]
    · simp [mine]
  show (s.threads.map fun v => if v.id = t.id then t else v).find? (fun v => v.id == id) = _
  rw [List.find?_map, keeps]
  show (s.thread? id).map _ = _
  cases known : s.thread? id with
  | none => rfl
  | some u =>
      have not_mine : u.id ≠ t.id := by rwa [thread?_id known]
      simp [not_mine]

/-- Which threads are registered, and in which order, does not depend on what becomes of one of
them. -/
@[simp] theorem map_id_putThread (s : Session) (t : Thread) :
    (s.putThread t).threads.map Thread.id = s.threads.map Thread.id := by
  show (s.threads.map fun v => if v.id = t.id then t else v).map Thread.id = _
  rw [List.map_map]
  refine List.map_congr_left fun v _ => ?_
  by_cases mine : v.id = t.id <;> simp [mine]

theorem memoize_eq (s : Session) (key : Option SkipKey) (generation : Nat) :
    ∃ skips, s.memoize key generation =
      { s with breakpoints := { s.breakpoints with skips := skips } } := by
  cases key <;> exact ⟨_, rfl⟩

/-- A stop is recorded in the thread and announced. It takes no command out of the queue and changes
no breakpoint. -/
theorem suspend_eq (s : Session) (t : Thread) (reason : StopReason) (top : FrameRef)
    (exception : Option RaisedException) :
    ∃ threads outbox, s.suspend t reason top exception =
      { s with threads := threads, outbox := outbox } := by
  cases exception <;> exact ⟨_, _, rfl⟩

/-- The stop clears the request to stop and keeps where and why the thread has stopped. The other
threads go on. -/
theorem suspend_threads (s : Session) (t : Thread) (reason : StopReason) (top : FrameRef)
    (exception : Option RaisedException) :
    (s.suspend t reason top exception).threads =
      (s.putThread (t.halted reason top exception)).threads := by
  cases exception <;> rfl

theorem map_id_suspend (s : Session) (t : Thread) (reason : StopReason) (top : FrameRef)
    (exception : Option RaisedException) :
    s.threads.map Thread.id = (s.suspend t reason top exception).threads.map Thread.id := by
  rw [suspend_threads, map_id_putThread]

section

variable {s : Session} {t u : Thread} {reason : StopReason} {top : FrameRef}
variable {exception : Option RaisedException}

@[simp] theorem thread?_suspend (known : s.thread? t.id = some u) :
    (s.suspend t reason top exception).thread? t.id = some (t.halted reason top exception) := by
  rw [thread?, suspend_threads]
  exact thread?_putThread (t := t.halted reason top exception) known

@[simp] theorem thread?_suspend_of_ne {id : String} (other : id ≠ t.id) :
    (s.suspend t reason top exception).thread? id = s.thread? id := by
  rw [thread?, suspend_threads]
  exact thread?_putThread_of_ne (t := t.halted reason top exception) other

end

/-- A decision to stop blocks the thread. An exception is kept with the stop only if the reason is
one. -/
theorem apply_suspend (s : Session) (t : Thread) (kind : EventKind) (key : Option SkipKey)
    (generation : Nat) (reason : StopReason) (top : FrameRef) :
    ∃ exception : Option RaisedException, s.apply t kind key generation (.suspend reason top) =
      (s.suspend t reason top exception, .blocked) ∧
        (exception.isSome = true → reason.isException = true) := by
  refine ⟨_, rfl, fun raised => ?_⟩
  split at raised
  · split at raised
    · assumption
    · cases raised
  · cases raised

/-- A decision about an event changes the thread and the memo, and is announced. -/
theorem apply_eq (s : Session) (t : Thread) (kind : EventKind) (key : Option SkipKey)
    (generation : Nat) (decision : Decision) :
    ∃ threads outbox skips, (s.apply t kind key generation decision).1 =
      { s with
        threads := threads
        outbox := outbox
        breakpoints := { s.breakpoints with skips := skips } } := by
  cases decision with
  | noInterest =>
      obtain ⟨skips, memoized⟩ := s.memoize_eq key generation
      rw [apply]
      split
      · exact ⟨_, _, _, rfl⟩
      · exact ⟨_, _, skips, memoized⟩
  | continue_ => exact ⟨_, _, _, rfl⟩
  | suspend reason top =>
      obtain ⟨exception, applied, -⟩ := s.apply_suspend t kind key generation reason top
      obtain ⟨threads, outbox, suspended⟩ := s.suspend_eq t reason top exception
      rw [applied, suspended]
      exact ⟨_, _, _, rfl⟩

/-- The look at an event serves commands, and beside that it changes the threads, the queue and the
memo. The breakpoints themselves, the filter and the settings are left alone. -/
theorem lookAt_eq (s : Session) (t : Thread) (kind : EventKind) (frame : FrameRef) :
    ∃ threads q skips,
      Serves { s with
        threads := threads
        queue := q
        breakpoints := { s.breakpoints with skips := skips } } (s.lookAt t kind frame).1 := by
  rw [lookAt]
  dsimp only
  split
  · obtain ⟨skips, memoized⟩ :=
      s.memoize_eq (s.skipKey? kind frame) s.breakpoints.snapshot.generation
    split
    · exact ⟨_, _, _, rfl⟩
    · exact ⟨_, _, skips, by rw [memoized]; rfl⟩
  · split
    · exact ⟨_, _, _, rfl⟩
    · have recorded := s.recordCall_looks kind frame (s.fileOf frame)
      generalize s.recordCall kind frame (s.fileOf frame) = s₁ at recorded ⊢
      have served := s₁.runPending_serves t frame
      generalize s₁.runPending t frame = s₂ at served ⊢
      have decided := s₂.decide_looks t kind frame (s.fileOf frame) s.breakpoints.snapshot
      generalize s₂.decide t kind frame (s.fileOf frame) s.breakpoints.snapshot = r at decided ⊢
      obtain ⟨threads, outbox, skips, applied⟩ :=
        r.1.apply_eq t kind (s.skipKey? kind frame) s.breakpoints.snapshot.generation r.2
      refine ⟨threads, (s₁.queue.takeFor t.id).2, skips, ?_⟩
      rw [applied, decided, served, recorded]
      rfl

/-- An event is nothing to a session that has ended. Otherwise its thread is registered, and the
event is passed over or looked at. -/
theorem eventSkipping_cases (s : Session) (skip : SkipKey → Bool) (who : ThreadRef)
    (kind : EventKind) (frame : FrameRef) :
    s.finished = true ∧ s.eventSkipping skip who kind frame = (s, .done false) ∨
      s.eventSkipping skip who kind frame = ((s.introduce who).1, .done false) ∨
      s.eventSkipping skip who kind frame =
        (s.introduce who).1.lookAt (s.introduce who).2 kind frame := by
  rw [eventSkipping]
  split
  · rename_i ended
    exact .inl ⟨ended, rfl⟩
  · dsimp only
    split
    · exact .inr (.inl rfl)
    · exact .inr (.inr rfl)

/-- An event changes the threads, the queue and the memo, beside what serving commands changes. -/
theorem eventSkipping_eq (s : Session) (skip : SkipKey → Bool) (who : ThreadRef) (kind : EventKind)
    (frame : FrameRef) :
    ∃ threads q skips,
      Serves { s with
        threads := threads
        queue := q
        breakpoints := { s.breakpoints with skips := skips } }
        (s.eventSkipping skip who kind frame).1 := by
  obtain ⟨threads, outbox, introduced⟩ := s.introduce_eq who
  rcases s.eventSkipping_cases skip who kind frame with ⟨-, ignored⟩ | passed | looked
  · rw [ignored]
    exact ⟨_, _, _, rfl⟩
  · rw [passed, introduced]
    exact ⟨threads, _, _, rfl⟩
  · obtain ⟨threads, q, skips, changed⟩ :=
      (s.introduce who).1.lookAt_eq (s.introduce who).2 kind frame
    rw [looked]
    exact ⟨threads, q, skips, by rw [changed, introduced]; rfl⟩

@[simp] theorem leaveEvent_of_plain {x : Suspension} (plain : x.exception = none) (s : Session)
    (t : Thread) :
    s.leaveEvent t x = (s, { t with inEngine := false, suspension := none }) := by
  rw [leaveEvent, plain]

/-- A thread that leaves a stop at an exception says so, unless the session has ended meanwhile.
Either way it is outside the engine again. -/
theorem leaveEvent_of_exception {x : Suspension} {e : RaisedException}
    (raised : x.exception = some e) (s : Session) (t : Thread) :
    s.leaveEvent t x =
      (if s.finished then s else s.notify .sendExceptionTraceProceeded t.id,
        { t with inEngine := false, suspension := none, exception := none }) := by
  rw [leaveEvent, raised]
  rfl

/-- A thread leaves its event with at most one message, and touches neither queue nor program. -/
theorem leaveEvent_looks (s : Session) (t : Thread) (x : Suspension) :
    Looks s (s.leaveEvent t x).1 := by
  rw [leaveEvent]
  split
  · rfl
  · dsimp only
    split <;> rfl

/-- After a command a thread stays, goes on or stops anew. None of it changes the program, which
only the command itself may have done. -/
theorem obey_looks (s : Session) (t : Thread) (x : Suspension) (flow : Flow) :
    Looks s (s.obey t x flow).1 := by
  cases flow with
  | stay => exact Looks.refl s
  | resume state => exact (Looks.notify _ _ _).trans (leaveEvent_looks _ _ _)
  | resuspend reason => exact (Looks.notify _ _ _).trans (Looks.notify _ _ _)

/-- A stopped thread leaves its event when the session has ended, and otherwise serves the first
command that waits for it and obeys. -/
theorem serve_eq_some {s s' : Session} {t t' : Thread} (h : s.serve t = some (s', t')) :
    ∃ x, t.suspension = some x ∧
      (s.queue.terminated = true ∧ s.leaveEvent (t.resume .running 0) x = (s', t') ∨
        s.queue.terminated = false ∧ ∃ c q s₁ flow, s.queue.takeOne t.id = some (c, q) ∧
          execute { s with queue := q } t x.top true c.action = (s₁, flow) ∧
          s₁.obey t x flow = (s', t')) := by
  rw [serve] at h
  split at h
  · cases h
  · rename_i x stopped
    refine ⟨x, stopped, ?_⟩
    split at h
    · rename_i ended
      exact .inl ⟨ended, Option.some.inj h⟩
    · rename_i lasting
      obtain ⟨⟨c, q⟩, taken, obeyed⟩ := Option.map_eq_some_iff.mp h
      exact .inr ⟨by simpa using lasting, c, q, _, _, taken, rfl, obeyed⟩

@[simp] theorem leaveEvent_ref (s : Session) (t : Thread) (x : Suspension) :
    (s.leaveEvent t x).2.ref = t.ref := by
  rw [leaveEvent]
  split <;> rfl

@[simp] theorem obey_ref (s : Session) (t : Thread) (x : Suspension) (flow : Flow) :
    (s.obey t x flow).2.ref = t.ref := by
  cases flow with
  | stay | resuspend => rfl
  | resume state => exact leaveEvent_ref _ _ x

/-- A step of a stopped thread is a step of the same thread. -/
theorem serve_id {s s' : Session} {t t' : Thread} (h : s.serve t = some (s', t')) :
    t'.id = t.id := by
  obtain ⟨x, -, ⟨-, left⟩ | ⟨-, c, q, s₁, flow, -, -, obeyed⟩⟩ := serve_eq_some h
  · have same := s.leaveEvent_ref (t.resume .running 0) x
    rw [left] at same
    exact congrArg ThreadRef.id same
  · have same := s₁.obey_ref t x flow
    rw [obeyed] at same
    exact congrArg ThreadRef.id same

/-- A step of a stopped thread takes at most one command out of the queue, and serves it. -/
theorem serve_serves {s s' : Session} {t t' : Thread} (h : s.serve t = some (s', t')) :
    ∃ q, Serves { s with queue := q } s' := by
  obtain ⟨x, -, ⟨-, left⟩ | ⟨-, c, q, s₁, flow, -, executed, obeyed⟩⟩ := serve_eq_some h
  · have looks := s.leaveEvent_looks (t.resume .running 0) x
    rw [left] at looks
    exact ⟨s.queue, looks.serves⟩
  · have serves := execute_serves { s with queue := q } t x.top true c.action
    have looks := s₁.obey_looks t x flow
    rw [executed] at serves
    rw [obeyed] at looks
    exact ⟨q, serves.trans looks.serves⟩

/-- The step at a position is the step of a stopped thread, which is registered there or has
exited. -/
theorem serveAt_eq_some {s s' : Session} {i : Nat} (h : s.serveAt i = some s') :
    ∃ t s₁ t', s.serve t = some (s₁, t') ∧
      (s.threads[i]? = some t ∧ s' = { s₁ with threads := s.threads.set i t' } ∨
        t ∈ s.departed ∧ ∃ departed, s' = { s₁ with departed := departed }) := by
  rw [serveAt] at h
  split at h
  · rename_i t here
    obtain ⟨⟨s₁, t'⟩, served, same⟩ := Option.map_eq_some_iff.mp h
    exact ⟨t, s₁, t', served, .inl ⟨here, same.symm⟩⟩
  · obtain ⟨⟨s₁, t'⟩, found, same⟩ := Option.map_eq_some_iff.mp h
    obtain ⟨t, there, served⟩ := Option.bind_eq_some_iff.mp found
    exact ⟨t, s₁, t', served, .inr ⟨List.mem_of_getElem? there, _, same.symm⟩⟩

/-- The step at a position changes the queue, the messages and the stopped thread itself. -/
theorem serveAt_eq {s s' : Session} {i : Nat} (h : s.serveAt i = some s') :
    ∃ threads departed q,
      Serves { s with threads := threads, departed := departed, queue := q } s' := by
  obtain ⟨t, s₁, t', served, ⟨-, rfl⟩ | ⟨-, departed, rfl⟩⟩ := serveAt_eq_some h
  · obtain ⟨q, serves⟩ := serve_serves served
    exact ⟨_, s.departed, q, by rw [serves]; rfl⟩
  · obtain ⟨q, serves⟩ := serve_serves served
    exact ⟨s.threads, departed, q, by rw [serves]; rfl⟩

end Session

end RemoteDebugger
