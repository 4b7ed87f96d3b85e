import RemoteDebugger.Proofs.Session.Registered

/-!
# What becomes of commands

A command that leaves the queue is carried out by a thread, or it is dropped: when the thread it is
addressed to exits, or when the session ends. What is carried out is answered at most once, under
its own number, and exactly once if an answer was promised. Besides these answers, a session that
reacts to anything but a request sends notifications only. `Turnover` says this of two states of a
session, with the commands that are dropped between them.
-/

namespace RemoteDebugger

def Wire.Command.isNotification : Wire.Command → Bool
  | threadCreate | threadKill | threadSuspend | threadRun | writeToConsole | getBreakpointException
  | sendExceptionTrace | sendExceptionTraceProceeded | signatureCallTrace => true
  | _ => false

theorem Wire.Command.isNotification_of_isAside {c : Wire.Command} (h : c.isAside = true) :
    c.isNotification = true := by
  cases c <;> first | rfl | cases h

namespace Wire.Outbox

/-- An outbox has grown by notifications, and by what the given actions are answered when they are
carried out in this order. -/
inductive Settles (o : Outbox) : List Action → Outbox → Prop
  | nothing : Settles o [] o
  | notified {as : List Action} {o' : Outbox} (before : Settles o as o') {c : Command}
      (payload : String) (h : c.isNotification = true) : Settles o as (o'.notify c payload)
  | closed {as : List Action} {o' : Outbox} (before : Settles o as o') : Settles o as o'.close
  | silent {as : List Action} {o' : Outbox} (before : Settles o as o') {a : Action}
      (h : a.answer? = none) : Settles o (as ++ [a]) o'
  | answered {as : List Action} {o' : Outbox} (before : Settles o as o') {a : Action} {n : Int}
      {c : Command} (payload : String) (numbered : a.seq? = some n)
      (entitled : c = .error ∨ a.answer? = some c) : Settles o (as ++ [a]) (o'.respond c n payload)

variable {o o' o'' : Outbox} {as bs : List Action}

/-- What two parts settle together is settled in their order. Notifications may come in between. -/
theorem Settles.trans (first : Settles o as o') (second : Settles o' bs o'') :
    Settles o (as ++ bs) o'' := by
  induction second with
  | nothing =>
      rw [List.append_nil]
      exact first
  | notified _ payload h ih => exact .notified ih payload h
  | closed _ ih => exact .closed ih
  | silent _ h ih =>
      rw [← List.append_assoc]
      exact .silent ih h
  | answered _ payload numbered entitled ih =>
      rw [← List.append_assoc]
      exact .answered ih payload numbered entitled

/-- Remarks without answers settle nothing. -/
theorem Remarks.settles (h : Remarks (fun _ => False) o o') : Settles o [] o' := by
  induction h with
  | nothing => exact .nothing
  | answer _ _ _ impossible => exact impossible.elim
  | aside _ payload aside _ ih =>
      exact .notified ih payload (Command.isNotification_of_isAside aside)

end Wire.Outbox

/-- The input is the exit of the thread that commands are addressed to. -/
def Input.discards : Input → Target → Bool
  | .threadExited id, target => target == .thread id
  | _, _ => false

namespace Session

open Wire.Outbox

/-- Some commands have left the queue and have been carried out, and the given ones have been
dropped. -/
def Turnover (s s' : Session) (gone : List QueuedCommand) : Prop :=
  ∃ done : List QueuedCommand, s.queue.commands.Perm (done ++ (gone ++ s'.queue.commands)) ∧
    Settles s.outbox (done.map QueuedCommand.action) s'.outbox

section

variable {s s' s'' : Session} {gone : List QueuedCommand}

/-- Without a change to the queue nothing has been carried out and nothing dropped. -/
theorem Turnover.of_queue (queue : s'.queue = s.queue) (sent : Settles s.outbox [] s'.outbox) :
    Turnover s s' [] := by
  refine ⟨[], ?_, sent⟩
  rw [queue]
  exact List.Perm.refl _

theorem Turnover.refl (s : Session) : Turnover s s [] := .of_queue rfl .nothing

/-- A turnover may come after a part in which nothing is dropped. What is dropped in the end is what
the second part drops. -/
theorem Turnover.trans (first : Turnover s s' []) (second : Turnover s' s'' gone) :
    Turnover s s'' gone := by
  obtain ⟨done, queue, sent⟩ := first
  obtain ⟨done', queue', sent'⟩ := second
  refine ⟨done ++ done', ?_, ?_⟩
  · rw [List.append_assoc]
    exact queue.trans (queue'.append_left done)
  · rw [List.map_append]
    exact sent.trans sent'

/-- A command that is carried out settles itself: it is answered under its own number, or not at
all. -/
theorem execute_settles (s : Session) (t : Thread) (top : FrameRef) (suspended : Bool)
    (a : Action) :
    Settles s.outbox [a] (s.execute t top suspended a).1.outbox := by
  rcases s.execute_outbox t top suspended a with
    ⟨plain, same⟩ | ⟨seq, c, payload, numbered, entitled, -, sent⟩
  · rw [same]
    exact .silent .nothing plain
  · rw [sent]
    exact .answered .nothing payload numbered entitled

/-- Commands that are carried out one after the other are settled in this order. -/
theorem executeAll_settles (s : Session) (t : Thread) (top : FrameRef)
    (commands : List QueuedCommand) :
    Settles s.outbox (commands.map QueuedCommand.action) (s.executeAll t top commands).outbox := by
  induction commands generalizing s with
  | nil => exact .nothing
  | cons c commands ih => exact (s.execute_settles t top false c.action).trans (ih _)

/-- A running thread carries out what it takes from the queue, and drops nothing. -/
theorem turnover_runPending (s : Session) (t : Thread) (top : FrameRef) :
    Turnover s (s.runPending t top) [] := by
  refine ⟨(s.queue.takeFor t.id).1, ?_, ?_⟩
  · rw [(s.runPending_serves t top).queue]
    exact s.queue.perm_takeFor t.id
  · exact executeAll_settles { s with queue := (s.queue.takeFor t.id).2 } t top _

/-- A stop is announced, and no command is answered by it. -/
theorem suspend_settles (s : Session) (t : Thread) (reason : StopReason) (top : FrameRef)
    (exception : Option RaisedException) :
    Settles s.outbox [] (s.suspend t reason top exception).outbox := by
  cases exception with
  | none => exact .notified .nothing _ rfl
  | some e => exact .notified (.notified .nothing _ rfl) _ rfl

/-- A look at an event carries out commands and drops none. -/
theorem turnover_lookAt (s : Session) (t : Thread) (kind : EventKind) (frame : FrameRef) :
    Turnover s (s.lookAt t kind frame).1 [] := by
  have relation : LookRelation (Turnover · · []) t :=
    { refl := Turnover.refl
      trans := Turnover.trans
      remark := fun looks remarks => .of_queue looks.serves.queue remarks.settles
      pending := fun s top => s.turnover_runPending t top
      memoize := fun s key generation => by
        obtain ⟨skips, memoized⟩ := s.memoize_eq key generation
        rw [memoized]
        exact .of_queue rfl .nothing
      suspend := fun s reason top exception => by
        obtain ⟨threads, outbox, suspended⟩ := s.suspend_eq t reason top exception
        refine .of_queue ?_ (s.suspend_settles t reason top exception)
        rw [suspended] }
  exact relation.lookAt s kind frame

theorem turnover_introduce (s : Session) (who : ThreadRef) : Turnover s (s.introduce who).1 [] := by
  cases known : s.thread? who.id with
  | some t =>
      simpa [known] using Turnover.refl s
  | none =>
      rw [introduce_of_new known]
      exact .of_queue rfl (.notified .nothing _ rfl)

/-- An event drops no command, whether it is looked at, passed over or too late. -/
theorem turnover_event (s : Session) (who : ThreadRef) (kind : EventKind) (frame : FrameRef) :
    Turnover s (s.event who kind frame).1 [] := by
  rw [event]
  rcases s.eventSkipping_cases s.breakpoints.skips.contains who kind frame with
    ⟨-, ignored⟩ | passed | looked
  · rw [ignored]
    exact .refl s
  · rw [passed]
    exact s.turnover_introduce who
  · rw [looked]
    exact (s.turnover_introduce who).trans (turnover_lookAt _ _ kind frame)

theorem leaveEvent_settles (s : Session) (t : Thread) (x : Suspension) :
    Settles s.outbox [] (s.leaveEvent t x).1.outbox := by
  rw [leaveEvent]
  split
  · exact .nothing
  · dsimp only
    split
    · exact .nothing
    · exact .notified .nothing _ rfl

/-- What a thread does after a command is announced, but it is not what answers the command. -/
theorem obey_settles (s : Session) (t : Thread) (x : Suspension) (flow : Flow) :
    Settles s.outbox [] (s.obey t x flow).1.outbox := by
  cases flow with
  | stay => exact .nothing
  | resume state =>
      have told : Settles s.outbox []
          (s.notifyRun (t.resume state (s.program.depth x.top)) state.resumeCommand).outbox :=
        .notified .nothing _ rfl
      exact told.trans (leaveEvent_settles _ _ x)
  | resuspend reason => exact .notified (.notified .nothing _ rfl) _ rfl

/-- A stopped thread takes at most one command, which is carried out before the thread goes on. -/
theorem turnover_serve {t t' : Thread} (served : s.serve t = some (s', t')) : Turnover s s' [] := by
  obtain ⟨x, -, ⟨-, left⟩ | ⟨-, c, q, s₁, flow, taken, executed, obeyed⟩⟩ := serve_eq_some served
  · have looks := s.leaveEvent_looks (t.resume .running 0) x
    have sent := s.leaveEvent_settles (t.resume .running 0) x
    rw [left] at looks sent
    exact .of_queue looks.serves.queue sent
  · have serves := execute_serves { s with queue := q } t x.top true c.action
    have answered := execute_settles { s with queue := q } t x.top true c.action
    have looks := s₁.obey_looks t x flow
    have sent := s₁.obey_settles t x flow
    rw [executed] at serves answered
    rw [obeyed] at looks sent
    refine ⟨[c], ?_, answered.trans sent⟩
    rw [looks.serves.queue, serves.queue]
    exact CommandQueue.perm_takeOne taken

/-- A step at a position drops nothing, also when a departed thread leaves by it. -/
theorem turnover_serveAt {i : Nat} (h : s.serveAt i = some s') : Turnover s s' [] := by
  -- The queue and the messages are those that the step of the thread leaves.
  obtain ⟨t, s₁, t', served, ⟨-, rfl⟩ | ⟨-, departed, rfl⟩⟩ := serveAt_eq_some h
  · have turnover : Turnover s s₁ [] := turnover_serve served
    exact turnover
  · have turnover : Turnover s s₁ [] := turnover_serve served
    exact turnover

/-- The commands that are dropped in a reaction: all of them when the session ends, and those
addressed to a thread when it exits. -/
def drops (s : Session) (i : Input) : List QueuedCommand :=
  if s.finished then []
  else if (s.react i).1.finished then s.queue.commands
  else s.queue.commands.filter fun c => i.discards c.target

/-- The commands that are dropped along a run. -/
def dropped (s : Session) : List Input → List QueuedCommand
  | [] => []
  | i :: inputs => s.drops i ++ (s.react i).1.dropped inputs

theorem drops_of_over {i : Input} (ended : s.finished = true) : s.drops i = [] := by
  rw [drops, if_pos ended]

/-- In a session that goes on, only an exit drops commands. -/
theorem drops_of_steady {i : Input} (same : (s.react i).1.finished = s.finished)
    (stays : ∀ target, i.discards target = false) : s.drops i = [] := by
  rw [drops, same]
  cases s.finished with
  | true => rfl
  | false => simp [stays]

theorem drops_of_ending {i : Input} (ends : (s.react i).1.finished = true) :
    s.drops i = if s.finished then [] else s.queue.commands := by
  rw [drops, if_pos ends]

/-- The end of a session drops all the commands that wait. If it had ended before, there is nothing
left to drop. -/
theorem turnover_finish (s : Session) :
    Turnover s s.finish (if s.finished then [] else s.queue.commands) := by
  rw [finish]
  split
  · exact .refl s
  · refine ⟨[], ?_, .closed .nothing⟩
    show s.queue.commands.Perm ([] ++ (s.queue.commands ++ []))
    rw [List.append_nil, List.nil_append]

/-- The exit of a thread drops the commands addressed to it, and is announced if the thread was
known. -/
theorem turnover_threadExited (lasting : s.finished = false) (id : String) :
    Turnover s (s.threadExited id) (s.queue.commands.filter fun c => c.target == .thread id) := by
  have discarded : s.queue.commands.Perm
      (s.queue.commands.filter (fun c => c.target == .thread id) ++
        (s.queue.discardFor id).commands) :=
    (List.filter_append_perm _ _).symm
  cases known : s.thread? id with
  | none =>
      rw [threadExited_of_unknown lasting known]
      exact ⟨[], discarded, .nothing⟩
  | some t =>
      rw [threadExited_of_known lasting known]
      exact ⟨[], discarded, .notified .nothing _ rfl⟩

/-- No exit ends a session, not even that of the last thread. -/
@[simp] theorem finished_threadExited (s : Session) (id : String) :
    (s.threadExited id).finished = s.finished := by
  cases ended : s.finished with
  | true => rw [threadExited, if_pos ended, ended]
  | false =>
      cases known : s.thread? id with
      | none =>
          rw [threadExited_of_unknown ended known]
          exact ended
      | some t =>
          rw [threadExited_of_known ended known]
          exact ended

/-- What lies between the sessions before and after a reaction to anything but a request. A request
may post a command, which is on no account before. -/
theorem turnover_react {i : Input} (h : ∀ code seq payload, i ≠ .request code seq payload) :
    Turnover s (s.react i).1 (s.drops i) := by
  cases i with
  | request code seq payload => exact absurd rfl (h code seq payload)
  | threadStarted who =>
      have same : (s.react (.threadStarted who)).1.finished = s.finished := by
        obtain ⟨threads, outbox, introduced⟩ := s.introduce_eq who
        rw [react, threadStarted, introduced]
        split <;> rfl
      rw [drops_of_steady same fun _ => rfl, react, threadStarted]
      split
      · exact .refl s
      · exact s.turnover_introduce who
  | threadExited id =>
      cases ended : s.finished with
      | true =>
          rw [drops_of_over ended, react, threadExited, if_pos ended]
          exact .refl s
      | false =>
          have dropped : s.drops (.threadExited id) =
              s.queue.commands.filter fun c => c.target == .thread id := by
            rw [drops, react, finished_threadExited, ended]
            rfl
          rw [dropped]
          exact turnover_threadExited ended id
  | event who kind frame =>
      obtain ⟨threads, q, skips, serves⟩ :=
        s.eventSkipping_eq s.breakpoints.skips.contains who kind frame
      have same : (s.react (.event who kind frame)).1.finished = s.finished := serves.finished
      rw [drops_of_steady same fun _ => rfl]
      exact s.turnover_event who kind frame
  | serve i =>
      cases served : s.serveAt i with
      | none =>
          have stays : s.react (.serve i) = (s, none) := by rw [react, served]; rfl
          rw [drops_of_steady (by rw [stays]) fun _ => rfl, stays]
          exact .refl s
      | some s' =>
          have moves : s.react (.serve i) = (s', none) := by rw [react, served]; rfl
          have same := (sameRoll_serveAt served).finished
          rw [drops_of_steady (by rw [moves, same]) fun _ => rfl, moves]
          exact turnover_serveAt served
  | console text stream =>
      have looks := Looks.writeToConsole s text stream
      have same : (s.react (.console text stream)).1.finished = s.finished := looks.serves.finished
      rw [drops_of_steady same fun _ => rfl]
      exact .of_queue looks.serves.queue (s.writeToConsole_remarks text stream).settles
  | finish =>
      have ends : (s.react .finish).1.finished = true := s.finished_finish
      rw [drops_of_ending ends]
      exact s.turnover_finish
  | program program =>
      rw [drops_of_steady rfl fun _ => rfl]
      exact .of_queue rfl .nothing

end

end Session

end RemoteDebugger
