import RemoteDebugger.Proofs.Session.Remarks
import RemoteDebugger.Proofs.Thread.Queue

/-!
# What a request does

A request takes its steps one by one, and a failure does not take back what was changed before it.
Yet a request that fails changes nothing, since all its changes come after the last step that can
fail. `Handling.Achieves` says this of a sequence of steps, with one rule for each way to put steps
together.

A request that succeeds does one of a few things, whatever its command: it is answered, it lets the
host go on, it asks threads to stop, it puts commands into the queue, it ends the session, or it
changes the breakpoints or the exclusion of files. `Granted` is this list. Properties of all
requests are proved by cases over it, and the fields of a payload are read only in this module.
-/

namespace RemoteDebugger

/-- The command under which a request is answered if it succeeds. Most requests have no answer
then. -/
def Wire.Command.answer? : Wire.Command → Option Wire.Command
  | version => some version
  | listThreads | changeVariable => some result
  | getVariable => some getVariable
  | getFrame => some getFrame
  | evaluateExpression => some evaluateExpression
  | execExpression => some execExpression
  | getCompletions => some getCompletions
  | runCustomOperation => some runCustomOperation
  | sendExceptionTrace => some sendExceptionTrace
  | getFileContents => some getFileContents
  | _ => none

/-- The command that a request of a code is promised as its answer if it succeeds. -/
def Wire.Command.promised (code : Nat) : Option Wire.Command := (ofCode? code).bind answer?

theorem Wire.Command.promised_of_known {code : Nat} {c : Wire.Command} (h : ofCode? code = some c) :
    promised code = c.answer? := by
  rw [promised, h, Option.bind_some]

theorem Wire.Command.promised_ne_error (code : Nat) : promised code ≠ some .error := by
  intro h
  obtain ⟨c, -, same⟩ := Option.bind_eq_some_iff.mp h
  cases c <;> cases same

def Thread.asked (t : Thread) : Thread := { t with suspendRequested := true }

namespace Handling

variable {α β : Type} {s : Session}

/-- Steps that follow a failure are not taken. What was changed before it remains. -/
@[simp] theorem run_bind (first : Handling α) (rest : α → Handling β) (s : Session) :
    (first >>= rest).run.run s =
      match first.run.run s with
      | (.ok a, s') => (rest a).run.run s'
      | (.error e, s') => (.error e, s') := by
  show StateT.run (ExceptT.run (first >>= rest)) s = _
  rw [ExceptT.run_bind, StateT.run_bind]
  cases first.run.run s with
  | mk result s' =>
      cases result with
      | ok a => rfl
      | error e => rfl

@[simp] theorem run_pure (a : α) (s : Session) : (pure a : Handling α).run.run s = (.ok a, s) := rfl

/-- Reading a field changes nothing, whether it is there or not. -/
@[simp] theorem run_read (x : Except Error α) (s : Session) :
    (liftM x : Handling α).run.run s = (x, s) := by
  cases x with
  | ok a => rfl
  | error e => rfl

@[simp] theorem run_get (s : Session) : (get : Handling Session).run.run s = (.ok s, s) := rfl

@[simp] theorem run_set (s s' : Session) : (set s' : Handling Unit).run.run s = (.ok (), s') := rfl

@[simp] theorem run_modify (change : Session → Session) (s : Session) :
    (modify change : Handling Unit).run.run s = (.ok (), change s) := rfl

@[simp] theorem run_throw (e : Error) (s : Session) :
    (throw e : Handling α).run.run s = (.error e, s) := rfl

/-- The steps fail and leave the session as it was, or they come to a result and a session with a
property. -/
def Achieves (Q : α → Session → Prop) (s : Session) (steps : Handling α) : Prop :=
  match steps.run.run s with
  | (.ok a, s') => Q a s'
  | (.error _, s') => s' = s

/-- What the steps find has a property, and they change nothing. -/
def Finds (P : α → Prop) (s : Session) (steps : Handling α) : Prop :=
  Achieves (fun a s' => P a ∧ s' = s) s steps

/-- Steps that only look may come first: if one of them fails, nothing has been changed yet. -/
theorem Finds.bind {P : α → Prop} {Q : β → Session → Prop} {first : Handling α}
    {rest : α → Handling β} (finds : Finds P s first) (h : ∀ a, P a → Achieves Q s (rest a)) :
    Achieves Q s (first >>= rest) := by
  rw [Finds, Achieves] at finds
  rw [Achieves]
  cases ran : first.run.run s with
  | mk result s₁ =>
      rw [ran] at finds
      cases result with
      | error e =>
          simp only [run_bind, ran]
          exact finds
      | ok a =>
          obtain ⟨found, rfl⟩ := finds
          simp only [run_bind, ran]
          exact h a found

variable {Q : β → Session → Prop}

/-- Something is read that may be missing or malformed. -/
theorem Achieves.read {x : Except Error α} {rest : α → Handling β}
    (h : ∀ a, x = .ok a → Achieves Q s (rest a)) : Achieves Q s (liftM x >>= rest) := by
  cases x with
  | error e => rfl
  | ok a => exact h a rfl

theorem Achieves.look {rest : Session → Handling β} (h : Achieves Q s (rest s)) :
    Achieves Q s (get >>= rest) := h

theorem Achieves.failed (e : Error) : Achieves Q s (throw e) := rfl

theorem Achieves.changed {change : Session → Session} {Q : Unit → Session → Prop}
    (h : Q () (change s)) : Achieves Q s (modify change) := h

end Handling

namespace Session

/-- What can become of a session by a request of the given code and number that succeeds. A request
that is promised an answer is answered, or a command that will answer it is put into the queue. -/
inductive Granted (s : Session) (code : Nat) (seq : Int) : Session → Prop
  | answered (command : Wire.Command) (payload : String)
      (entitled : Wire.Command.promised code = some command) (carries : command.Carries payload) :
      Granted s code seq (s.respond command seq payload)
  | ready (plain : Wire.Command.promised code = none) : Granted s code seq s.markReady
  | askedAll (plain : Wire.Command.promised code = none)
      (asks : Wire.Command.ofCode? code = some .threadSuspend) :
      Granted s code seq { s with threads := s.threads.map Thread.asked }
  | asked (t : Thread) (known : s.thread? t.id = some t)
      (plain : Wire.Command.promised code = none)
      (asks : Wire.Command.ofCode? code = some .threadSuspend) :
      Granted s code seq (s.putThread t.asked)
  /-- Commands to go on, which nobody answers. None tells a thread to stay stopped. -/
  | resumed (cs : List QueuedCommand) (accepting : cs ≠ [] → s.queue.terminated = false)
      (go : ∀ c ∈ cs, ∃ state, c.action = .resume state ∧ state ≠ .suspended)
      (plain : Wire.Command.promised code = none) :
      Granted s code seq { s with queue := s.queue.postAll cs }
  /-- A command that answers under the number of the request. -/
  | posted (c : QueuedCommand) (accepting : s.queue.terminated = false)
      (numbered : c.action.seq? = some seq)
      (entitled : Wire.Command.promised code = c.action.answer?) :
      Granted s code seq { s with queue := s.queue.postAll [c] }
  | finished (plain : Wire.Command.promised code = none)
      (kills : Wire.Command.ofCode? code = some .threadKill) : Granted s code seq s.finish
  | changed (f : Snapshot → Snapshot) (plain : Wire.Command.promised code = none) :
      Granted s code seq { s with breakpoints := s.breakpoints.update f }
  | switched (enabled : Bool) (plain : Wire.Command.promised code = none) :
      Granted s code seq (s.setDontTrace enabled)

@[simp] theorem thread?_askedAll (s : Session) (id : String) :
    thread? { s with threads := s.threads.map Thread.asked } id = (s.thread? id).map Thread.asked :=
  List.find?_map ..

/-- If one thread is asked to stop, the others are as they were. -/
theorem thread?_asked {s : Session} {t : Thread} (known : s.thread? t.id = some t) (id : String) :
    (s.putThread t.asked).thread? id = (s.thread? id).map Thread.asked ∨
      (s.putThread t.asked).thread? id = s.thread? id := by
  by_cases mine : id = t.id
  · subst mine
    rw [known]
    exact .inl (thread?_putThread (t := t.asked) known)
  · exact .inr (thread?_putThread_of_ne (t := t.asked) mine)

end Session

namespace Handling

open Session

section

variable {s : Session} {f : Fields}

theorem required_of_values {i : Nat} {field : String} (there : f.values[i]? = some field)
    (what : String) : f.required i what = .ok field := by
  simp only [Fields.required, there]

/-- The thread that a request names is a known one, or the request fails. Looking for it changes
nothing. -/
theorem requestedThread_finds (s : Session) (f : Fields) :
    Finds (fun t => s.thread? t.id = some t) s (requestedThread f) := by
  rw [requestedThread]
  refine .read fun id _ => .look ?_
  split
  · rename_i known
    exact ⟨(congrArg s.thread? (thread?_id known)).trans known, rfl⟩
  · exact .failed _

theorem post_of_accepting (h : s.queue.terminated = false) (target : Target) (a : Action) :
    (post target a).run.run s = (.ok (), { s with queue := s.queue.postAll [⟨target, a⟩] }) := by
  simp only [post, run_bind, run_get, run_read, run_set, CommandQueue.post_of_open h]

theorem post_of_terminated (h : s.queue.terminated = true) (target : Target) (a : Action) :
    (post target a).run.run s = (.error .sessionTerminated, s) := by
  simp only [post, run_bind, run_get, run_read, CommandQueue.post_of_closed h]

/-- A command that is posted is refused by a queue that has been closed, or is added to it. -/
theorem post_achieves {Q : Unit → Session → Prop} {target : Target} {a : Action}
    (h : s.queue.terminated = false → Q () { s with queue := s.queue.postAll [⟨target, a⟩] }) :
    Achieves Q s (post target a) := by
  rw [Achieves]
  cases closed : s.queue.terminated with
  | true => rw [post_of_terminated closed]
  | false =>
      rw [post_of_accepting closed]
      exact h closed

/-- Once a queue has accepted a command, it accepts the same command for further threads. -/
theorem postEach_of_accepting (h : s.queue.terminated = false) (a : Action)
    (threads : List Thread) :
    (forM threads fun t => post (.thread t.id) a : Handling Unit).run.run s =
      (.ok (), { s with
        queue := s.queue.postAll (threads.map fun t => ⟨.thread t.id, a⟩) }) := by
  induction threads generalizing s with
  | nil => simp only [List.forM_nil, run_pure, List.map_nil, CommandQueue.postAll_nil]
  | cons t threads ih =>
      have later := ih (s := { s with queue := s.queue.postAll [⟨.thread t.id, a⟩] }) h
      simp only [List.forM_cons, run_bind, post_of_accepting h, later, CommandQueue.postAll_postAll,
        List.map_cons, List.singleton_append]

/-- One command for each of several threads is accepted for all of them or for none. With no thread
at all even a closed queue refuses nothing. -/
theorem postEach_achieves {Q : Unit → Session → Prop} {a : Action} {threads : List Thread}
    (h : (threads ≠ [] → s.queue.terminated = false) →
      Q () { s with queue := s.queue.postAll (threads.map fun t => ⟨.thread t.id, a⟩) }) :
    Achieves Q s (forM threads fun t => post (.thread t.id) a) := by
  cases closed : s.queue.terminated with
  | false =>
      rw [Achieves, postEach_of_accepting closed]
      exact h fun _ => closed
  | true =>
      cases threads with
      | nil =>
          rw [List.forM_nil]
          have done := h (fun nonempty => absurd rfl nonempty)
          rwa [List.map_nil, CommandQueue.postAll_nil] at done
      | cons t threads =>
          simp only [Achieves, List.forM_cons, run_bind, post_of_terminated closed]

/-- A command for the thread of a request is put into the queue if the thread is known, the command
can be read and the queue is open. Otherwise nothing is changed. -/
theorem postTo_achieves {Q : Unit → Session → Prop} {a : Except Error Action}
    (h : ∀ (t : Thread) (b : Action), a = .ok b → s.queue.terminated = false →
      Q () { s with queue := s.queue.postAll [⟨.thread t.id, b⟩] }) :
    Achieves Q s (postTo f a) := by
  rw [postTo]
  refine (requestedThread_finds s f).bind fun t _ => ?_
  exact .read fun b read => post_achieves (h t b read)

end

/-- What is read has a property, if it can be read. -/
def Reading (P : Action → Prop) (a : Except Error Action) : Prop := ∀ b, a = .ok b → P b

theorem Reading.ok {P : Action → Prop} {b : Action} (h : P b) : Reading P (.ok b) := by
  intro b' read
  obtain rfl := Except.ok.inj read
  exact h

/-- If what is read last has a property whatever was read before, then what is read has it. -/
theorem Reading.bind {P : Action → Prop} {α : Type} {x : Except Error α}
    {rest : α → Except Error Action} (h : ∀ a, Reading P (rest a)) : Reading P (x >>= rest) := by
  intro b read
  cases x with
  | error e => cases read
  | ok a => exact h a b read

/-- The steps of a request fail without a change, or they are granted. -/
def Grants (code : Nat) (seq : Int) (s : Session) (steps : Handling Unit) : Prop :=
  Achieves (fun _ => Granted s code seq) s steps

section

variable {s : Session} {code : Nat} {seq : Int} {f : Fields}

/-- A request for an answer posts a command that answers under its number. -/
theorem postTo_asks {a : Except Error Action}
    (asks : Reading (fun b => b.seq? = some seq ∧
      Wire.Command.promised code = b.answer?) a) :
    Grants code seq s (postTo f a) := by
  refine postTo_achieves fun t b read accepting => ?_
  obtain ⟨numbered, entitled⟩ := asks b read
  exact .posted ⟨.thread t.id, b⟩ accepting numbered entitled

theorem sendFile_grants (entitled : Wire.Command.promised code = some .getFileContents) :
    Grants code seq s (sendFile seq f) :=
  .look (.read fun _ _ => .read fun content _ => .changed (.answered _ content entitled (.inl rfl)))

section

variable (plain : Wire.Command.promised code = none)
include plain

/-- A command that is posted for a thread and lets it go on is a grant. It never tells the thread to
stay suspended. -/
theorem postTo_resumes {a : Except Error Action}
    (go : Reading (fun b => ∃ state, b = .resume state ∧ state ≠ .suspended) a) :
    Grants code seq s (postTo f a) := by
  refine postTo_achieves fun t b read accepting => ?_
  refine .resumed [⟨.thread t.id, b⟩] (fun _ => accepting) ?_ plain
  simpa using go b read

/-- A request to stop sets flags and does nothing else. No thread stops by it at once. -/
theorem suspendThreads_grants (asks : Wire.Command.ofCode? code = some .threadSuspend) :
    Grants code seq s (suspendThreads f) := by
  refine .read fun id _ => ?_
  dsimp only
  split
  · exact .changed (.askedAll plain asks)
  · exact (requestedThread_finds s f).bind fun t known => .changed (.asked t known plain asks)

/-- Letting all threads go on posts one command for each that has stopped. For one thread a command
is posted whether it has stopped or not. -/
theorem runThreads_grants : Grants code seq s (runThreads f) := by
  refine .read fun id _ => ?_
  dsimp only
  split
  · refine .look (postEach_achieves fun accepting => ?_)
    refine .resumed _ (fun nonempty => accepting (by simpa using nonempty)) ?_ plain
    intro c posted
    obtain ⟨t, -, rfl⟩ := List.mem_map.mp posted
    exact ⟨_, rfl, nofun⟩
  · exact postTo_resumes plain (.ok ⟨_, rfl, nofun⟩)

/-- Only all threads together can be killed, which ends the session. A request that names one thread
fails and changes nothing. -/
theorem killThreads_grants (kills : Wire.Command.ofCode? code = some .threadKill) :
    Grants code seq s (killThreads f) := by
  refine .read fun id _ => ?_
  split
  · exact .changed (.finished plain kills)
  · exact .failed _

/-- A change of the breakpoints makes what is memoized outdated along with it, as both are one
update. -/
theorem changeBreakpoints_grants {change : BreakpointRegistry → BreakpointRegistry}
    (h : ∃ g, change s.breakpoints = s.breakpoints.update g) :
    Grants code seq s (changeBreakpoints change) := by
  obtain ⟨g, same⟩ := h
  refine .changed ?_
  rw [same]
  exact .changed g plain

/-- A breakpoint is set after all fields have been read, so a malformed field leaves the breakpoints
alone. -/
theorem setBreak_grants : Grants code seq s (setBreak f) := by
  refine .read fun _ _ => .read fun kind _ => .read fun file _ => ?_
  cases kind with
  | line =>
      exact .look (.read fun id _ => .read fun line _ => changeBreakpoints_grants plain ⟨_, rfl⟩)
  | exception => exact changeBreakpoints_grants plain ⟨_, rfl⟩

/-- Removing a breakpoint that is not there is granted like any other removal. -/
theorem removeBreak_grants : Grants code seq s (removeBreak f) := by
  refine .read fun _ _ => .read fun kind _ => .read fun file _ => ?_
  cases kind with
  | line =>
      refine .read fun id _ => .look (changeBreakpoints_grants plain ?_)
      exact ⟨fun p => p.removeLine id (Source.normalize (s.sources.toServer file)), rfl⟩
  | exception =>
      refine changeBreakpoints_grants plain ?_
      exact ⟨fun p => { p with exceptions := p.exceptions.filter (·.typeName != file) }, rfl⟩

theorem setExceptions_grants : Grants code seq s (setExceptions f) := by
  rw [setExceptions]
  exact changeBreakpoints_grants plain ⟨_, rfl⟩

theorem ignoreExceptions_grants : Grants code seq s (ignoreExceptions f) :=
  .look (.read fun _ _ => .read fun _ _ => changeBreakpoints_grants plain ⟨_, rfl⟩)

end

/-- Whatever a request asks for, it fails without a change or is granted. -/
theorem dispatch_grants {command : Wire.Command} (h : Wire.Command.ofCode? code = some command)
    (s : Session) (seq : Int) (payload : String) :
    Grants code seq s (dispatch command seq payload) := by
  have entitled := Wire.Command.promised_of_known h
  cases command with
  | version => exact .changed (.answered _ _ entitled (.inr (by decide)))
  | listThreads =>
      exact .look (.changed (.answered _ _ entitled (.inr (Payload.lineFeed_notMem_threadList _))))
  | run => exact .changed (.ready entitled)
  | threadSuspend => exact suspendThreads_grants entitled h
  | threadRun => exact runThreads_grants entitled
  | threadKill => exact killThreads_grants entitled h
  | stepInto | stepOver | stepReturn => exact postTo_resumes entitled (.ok ⟨_, rfl, nofun⟩)
  | runToLine => exact postTo_resumes entitled (.bind fun _ => .ok ⟨_, rfl, nofun⟩)
  | setNextStatement => exact postTo_asks (.bind fun _ => .ok ⟨rfl, entitled⟩)
  | getVariable => exact postTo_asks (.bind fun _ => .bind fun _ => .ok ⟨rfl, entitled⟩)
  | getFrame => exact postTo_asks (.bind fun _ => .ok ⟨rfl, entitled⟩)
  | evaluateExpression | execExpression | getCompletions =>
      exact postTo_asks (.bind fun _ => .bind fun _ => .ok ⟨rfl, entitled⟩)
  | changeVariable =>
      exact postTo_asks (.bind fun _ => .bind fun _ => .bind fun _ => .ok ⟨rfl, entitled⟩)
  | runCustomOperation =>
      exact postTo_asks (.bind fun _ => .bind fun _ => .bind fun _ => .bind fun _ =>
        .bind fun _ => .bind fun _ => .ok ⟨rfl, entitled⟩)
  | sendExceptionTrace => exact postTo_asks (.ok ⟨rfl, entitled⟩)
  | setBreak => exact setBreak_grants entitled
  | removeBreak => exact removeBreak_grants entitled
  | setExceptionBreak => exact setExceptions_grants entitled
  | ignoreThrownExceptionAt => exact ignoreExceptions_grants entitled
  | enableDontTrace => exact .changed (.switched _ entitled)
  | reloadCode =>
      refine .read fun module_ _ => post_achieves fun accepting => ?_
      exact .posted ⟨.any, .reloadCode seq module_⟩ accepting rfl entitled
  | getFileContents => exact sendFile_grants entitled
  | threadCreate | writeToConsole | getBreakpointException | stepCaughtException
  | sendExceptionTraceProceeded | signatureCallTrace | result | error => exact .failed _

end

end Handling

namespace Session

/-- A request is either refused, which its error answer tells and which changes nothing else, or
granted. Only odd numbers are granted. -/
theorem request_cases (s : Session) (code : Nat) (seq : Int) (payload : String) :
    (∃ e, s.request code seq payload = s.respondError seq e) ∨
      (seq % 2 = 1 ∧ Granted s code seq (s.request code seq payload)) := by
  rw [request]
  split
  · exact .inl ⟨_, rfl⟩
  · rename_i odd
    split
    · exact .inl ⟨_, rfl⟩
    · rename_i command known
      have grants := Handling.dispatch_grants known s seq payload
      rw [Handling.Grants, Handling.Achieves] at grants
      split
      · rename_i handled
        rw [handled] at grants
        exact .inr ⟨by omega, grants⟩
      · rename_i handled
        rw [handled] at grants
        obtain rfl := grants
        exact .inl ⟨_, rfl⟩

section

variable {s s' : Session} {command : Wire.Command} {code : Nat} {seq : Int} {payload : String}

/-- A request whose steps succeed is what its steps do. -/
theorem request_of_ok (odd : seq % 2 = 1) (known : Wire.Command.ofCode? code = some command)
    (done : (Handling.dispatch command seq payload).run.run s = (.ok (), s')) :
    s.request code seq payload = s' := by
  have uneven : ¬ seq % 2 = 0 := by omega
  simp only [request, if_neg uneven, known, done]

/-- A request whose steps fail is answered with an error. -/
theorem request_of_error {e : Error} (odd : seq % 2 = 1)
    (known : Wire.Command.ofCode? code = some command)
    (failed : (Handling.dispatch command seq payload).run.run s = (.error e, s')) :
    s.request code seq payload = s'.respondError seq e := by
  have uneven : ¬ seq % 2 = 0 := by omega
  simp only [request, if_neg uneven, known, failed]

end

/-- The messages that a request is answered with at once. -/
def answersTo (s : Session) (code : Nat) (seq : Int) (payload : String) : List Wire.Message :=
  (s.request code seq payload).outbox.messages.drop s.outbox.messages.length

/-- What is granted is answered as the request is entitled to, or not at all. -/
theorem Granted.messages {s s' : Session} {code : Nat} {seq : Int} (h : Granted s code seq s') :
    s'.outbox.messages = s.outbox.messages ∨ ∃ command payload,
      Wire.Command.promised code = some command ∧
        s'.outbox.messages = s.outbox.messages ++ [⟨command, seq, payload⟩] := by
  cases h with
  | answered command payload entitled =>
      exact .inr ⟨command, payload, entitled, Wire.Outbox.messages_respond _ _ _ _⟩
  | ready =>
      obtain ⟨lifecycle, same⟩ := s.markReady_eq
      rw [same]
      exact .inl rfl
  | finished =>
      rw [finish]
      split
      · exact .inl rfl
      · exact .inl (Wire.Outbox.messages_close s.outbox)
  | askedAll | asked | resumed | posted | changed | switched => exact .inl rfl

/-- No request that is granted is answered with an error. -/
theorem Granted.ne_error {s : Session} {code : Nat} {seq : Int} {payload : String}
    (h : Granted s code seq (s.request code seq payload)) :
    ∀ m ∈ s.answersTo code seq payload, m.command ≠ .error := by
  intro m answer
  rcases h.messages with same | ⟨command, text, entitled, sent⟩
  · rw [answersTo, same, List.drop_length] at answer
    cases answer
  · rw [answersTo, sent, List.drop_left] at answer
    obtain rfl := List.mem_singleton.mp answer
    rintro (rfl : command = .error)
    exact Wire.Command.promised_ne_error code entitled

/-- A request that is answered with an error changes nothing: the session is as it was, but for that
one answer under the number of the request. -/
theorem failed_request_changes_nothing {s : Session} {code : Nat} {seq : Int} {payload : String}
    (failed : ∃ m ∈ s.answersTo code seq payload, m.command = .error) :
    ∃ text, s.request code seq payload =
      { s with outbox := s.outbox.respond .error seq text } := by
  rcases s.request_cases code seq payload with ⟨e, refused⟩ | ⟨-, granted⟩
  · exact ⟨e.message, refused⟩
  · obtain ⟨m, answer, error⟩ := failed
    exact absurd error (granted.ne_error m answer)

/-- A thread has stopped at a breakpoint, has been asked to stop again and has a query waiting. -/
def stoppedWithQuery : Session :=
  (start {} oneLine).run
    [.request 111 1 "7\tline\t/app/main.x\t3", .event mainThread .line 0, .request 105 3 "*",
      .request 114 5 "1\t*"]

/-- A breakpoint at a line that is no number is refused. -/
theorem malformed_line_changes_nothing :
    (∃ m ∈ stoppedWithQuery.answersTo 111 7 "8\tline\t/app/main.x\tx", m.command = .error) ∧
      ∃ text, stoppedWithQuery.request 111 7 "8\tline\t/app/main.x\tx" =
        { stoppedWithQuery with outbox := stoppedWithQuery.outbox.respond .error 7 text } := by
  have failed : ∃ m ∈ stoppedWithQuery.answersTo 111 7 "8\tline\t/app/main.x\tx",
      m.command = .error := by
    decide +kernel
  exact ⟨failed, failed_request_changes_nothing failed⟩

end Session

end RemoteDebugger
