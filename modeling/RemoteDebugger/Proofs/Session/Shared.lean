import Mathlib.Logic.Function.Basic
import Mathlib.Logic.Relation
import RemoteDebugger.Proofs.Session.Notice
import RemoteDebugger.Proofs.Thread.Queue

/-!
# Calls that share a session

A session reacts to a report of the host in one step. The threads that make the reports share it:
each of them tests whether the session has ended, looks for its context, sends a notification or
takes a command, and between any two of these accesses the other threads and the controller make
theirs. Only single accesses are atomic here, as the locks and atomics of the engine make them. In
particular the end of the session may fall between the look of a call at the session and what the
call does next.

What does not matter for the order of the notifications is left open: what an event is like, what
the thread decides about it, and the wording of messages. So there are more steps here than a
session can make, and what holds along all of them holds of every session, whatever its program
does.
-/

namespace RemoteDebugger

/-- A thread as the calls that share a session see it. The request to stop is left out, as a call
decides as it likes. -/
structure Context where
  control : Control := {}
  inEngine : Bool := false

/-- How far a call about a thread is. A context is named by a number. A stop is told with whether it
is for an exception. -/
inductive Stage where
  /-- It has found that the session goes on, and looks for the context of its thread. -/
  | arriving (isEvent : Bool)
  /-- It has made a context and announces the thread. -/
  | announcing (isEvent : Bool) (key : Nat)
  | entering (key : Nat)
  /-- It is in the engine, looks at its event and carries out the commands that wait. -/
  | looking (key : Nat)
  /-- It has found once more that the session goes on. -/
  | deciding (key : Nat)
  | stopping (key : Nat) (reason : StopReason)
  /-- It announces the exception it stops for. -/
  | raising (key : Nat) (reason : StopReason)
  /-- It announces the stop. -/
  | telling (key : Nat) (reason : StopReason) (exceptional : Bool)
  | waiting (key : Nat) (exceptional : Bool)
  /-- It has taken a command. -/
  | obeying (key : Nat) (exceptional : Bool) (a : Action)
  | resuming (key : Nat) (exceptional : Bool) (state : ControlState)
  /-- It announces that the thread goes on, because it does or because it jumps. -/
  | going (key : Nat) (exceptional : Bool)
  | jumping (key : Nat) (exceptional : Bool)
  | halting (key : Nat) (exceptional : Bool)
  /-- It has found the queue closed. -/
  | waking (key : Nat) (exceptional : Bool)
  /-- The stop is over. -/
  | released (key : Nat) (exceptional : Bool)
  /-- It announces the end of an exception. -/
  | proceeding (key : Nat)
  | leaving (key : Nat) (answer : Bool)
  /-- It has found that the session goes on, and drops the commands of a thread that is gone. -/
  | exiting
  | removing
  /-- It announces that the thread is gone. -/
  | parting
  | returning (answer : Bool)

namespace Stage

/-- The stage of a call that has found the context of its thread. -/
def found (isEvent : Bool) (key : Nat) : Stage := if isEvent then entering key else returning false

/-- The stage of a call that has stopped its thread. -/
def stopped (key : Nat) (reason : StopReason) : Stage :=
  if reason.isException then raising key reason else telling key reason false

/-- What a call says next of its thread, and the stage after it. -/
def word? : Stage → Option (Notice × Stage)
  | announcing isEvent key => some (.created, found isEvent key)
  | raising key reason => some (.raised, telling key reason true)
  | telling key reason exceptional => some (.suspended reason.command, waiting key exceptional)
  | going key exceptional => some (.ran, released key exceptional)
  | jumping key exceptional => some (.ran, halting key exceptional)
  | proceeding key => some (.proceeded, leaving key true)
  | parting => some (.killed, returning false)
  | _ => none

/-- What a call writes into the context of its thread, and the stage after it. -/
inductive Sets : Stage → Nat → Context → Context → Stage → Prop
  | enter {key : Nat} {x : Context} (outside : x.inEngine = false) :
      Sets (entering key) key x { x with inEngine := true } (looking key)
  | stop {key : Nat} {x : Context} {reason : StopReason} :
      Sets (stopping key reason) key x { x with control := .stopped reason } (stopped key reason)
  | resume {key : Nat} {x : Context} {exceptional : Bool} {state : ControlState} (depth : Nat) :
      Sets (resuming key exceptional state) key x { x with control := .resumed state depth }
        (going key exceptional)
  | halt {key : Nat} {x : Context} {exceptional : Bool} :
      Sets (halting key exceptional) key x { x with control := .stopped .setNextStatement }
        (telling key .setNextStatement exceptional)
  | wake {key : Nat} {x : Context} {exceptional : Bool} :
      Sets (waking key exceptional) key x { x with control := .resumed .running 0 }
        (released key exceptional)
  | leave {key : Nat} {x : Context} {answer : Bool} :
      Sets (leaving key answer) key x { x with inEngine := false } (returning answer)

/-- The call is at a point where it may remark on its event. -/
def mayRemark : Stage → Bool
  | looking _ | deciding _ => true
  | _ => false

/-- How a call can go on when the session has ended and the queue is closed, with what it says of
its thread by that. -/
inductive Winds : Stage → List Notice → Stage → Prop
  | say {st st' : Stage} {n : Notice} (word : st.word? = some (n, st')) : Winds st [n] st'
  | set {st st' : Stage} {key : Nat} {x x' : Context} (sets : Sets st key x x' st') :
      Winds st [] st'
  | find {isEvent : Bool} {key : Nat} : Winds (arriving isEvent) [] (found isEvent key)
  | introduce {isEvent : Bool} {key : Nat} :
      Winds (arriving isEvent) [] (announcing isEvent key)
  | busy {key : Nat} : Winds (entering key) [] (returning false)
  | dismiss {key : Nat} : Winds (looking key) [] (leaving key false)
  | decline {key : Nat} {answer : Bool} : Winds (deciding key) [] (leaving key answer)
  | choose {key : Nat} {reason : StopReason} (fresh : reason ≠ .setNextStatement) :
      Winds (deciding key) [] (stopping key reason)
  | terminated {key : Nat} {exceptional : Bool} :
      Winds (waiting key exceptional) [] (waking key exceptional)
  | stay {key : Nat} {exceptional : Bool} {a : Action} :
      Winds (obeying key exceptional a) [] (waiting key exceptional)
  | resume {key : Nat} {exceptional : Bool} {state : ControlState} :
      Winds (obeying key exceptional (.resume state)) [] (resuming key exceptional state)
  | jump {key : Nat} {exceptional : Bool} {seq : Int} {line : Nat} :
      Winds (obeying key exceptional (.setNextStatement seq line)) [] (jumping key exceptional)
  | leave {key : Nat} {exceptional : Bool} : Winds (released key exceptional) [] (leaving key true)
  | discard : Winds exiting [] removing
  | unknown : Winds removing [] (returning false)
  | remove : Winds removing [] parting

end Stage

/-- What a thread of the program is doing with the session. -/
inductive Activity where
  /-- Nothing. Its last call has returned, an event with an answer. -/
  | idle (answer : Bool)
  | calling (id : String) (stage : Stage)
  /-- It has found that the session goes on, and writes to the console. -/
  | printing

inductive Report where
  | started (id : String)
  | exited (id : String)
  | event (id : String)
  | printed

/-- A call that has found that the session goes on. -/
def Report.begun : Report → Activity
  | started id => .calling id (.arriving false)
  | exited id => .calling id .exiting
  | event id => .calling id (.arriving true)
  | printed => .printing

/-- How far the end of a session has come. Only the first who ends a session does any of it. -/
inductive Ending where
  | lasting
  /-- The session counts as finished, and nothing else has been done. -/
  | begun
  /-- The queue has been closed. -/
  | terminated
  /-- The host is told not to run the program. -/
  | settled
  /-- These contexts have yet to be told to run. -/
  | waking (keys : List Nat)
  /-- The connection has been closed. -/
  | closed
  deriving DecidableEq

/-- What the threads of a program and the controller share, with what each of the threads is
doing. -/
structure SharedSession (ι : Type) where
  ending : Ending := .lasting
  lifecycle : Lifecycle := .initial
  queue : CommandQueue := {}
  outbox : Wire.Outbox := {}
  /-- The registered threads with their contexts. -/
  registry : List (String × Nat) := []
  /-- How many contexts have been made. -/
  made : Nat := 0
  contexts : Nat → Context := fun _ => {}
  activity : ι → Activity := fun _ => .idle false

namespace SharedSession

open Wire.Outbox

variable {ι : Type}

def finished (c : SharedSession ι) : Bool := c.ending != .lasting

theorem finished_of_ending {c : SharedSession ι} {e : Ending} (h : c.ending = e)
    (later : e ≠ .lasting) : c.finished = true := by
  simp [finished, h, later]

def key? (c : SharedSession ι) (id : String) : Option Nat := c.registry.lookup id

def notify (c : SharedSession ι) (command : Wire.Command) (payload : String) : SharedSession ι :=
  { c with outbox := c.outbox.notify command payload }

def introduce (c : SharedSession ι) (id : String) : SharedSession ι :=
  { c with
    registry := c.registry ++ [(id, c.made)]
    made := c.made + 1
    contexts := Function.update c.contexts c.made {} }

def remove (c : SharedSession ι) (id : String) : SharedSession ι :=
  { c with registry := c.registry.filter fun entry => entry.1 != id }

def set (c : SharedSession ι) (key : Nat) (x : Context) : SharedSession ι :=
  { c with contexts := Function.update c.contexts key x }

@[simp] theorem contexts_set (c : SharedSession ι) (key : Nat) (x : Context) :
    (c.set key x).contexts = Function.update c.contexts key x := rfl

@[simp] theorem contexts_notify (c : SharedSession ι) (command : Wire.Command) (payload : String) :
    (c.notify command payload).contexts = c.contexts := rfl

/-- What a call about a thread does without a trace in what is shared. It decides as it likes about
an event that it may look at. -/
inductive Goes (c : SharedSession ι) (id : String) : Stage → Stage → Prop
  | find {isEvent : Bool} {key : Nat} (known : c.key? id = some key) :
      Goes c id (.arriving isEvent) (.found isEvent key)
  /-- The thread is in the engine already. -/
  | busy {key : Nat} (inside : (c.contexts key).inEngine = true) :
      Goes c id (.entering key) (.returning false)
  /-- The event is passed over, or the session has ended. -/
  | dismiss {key : Nat} : Goes c id (.looking key) (.leaving key false)
  | pass {key : Nat} (lasting : c.finished = false) : Goes c id (.looking key) (.deciding key)
  | decline {key : Nat} (answer : Bool) : Goes c id (.deciding key) (.leaving key answer)
  | choose {key : Nat} {reason : StopReason} (fresh : reason ≠ .setNextStatement) :
      Goes c id (.deciding key) (.stopping key reason)
  | terminated {key : Nat} {exceptional : Bool} (closed : c.queue.terminated = true) :
      Goes c id (.waiting key exceptional) (.waking key exceptional)
  | stay {key : Nat} {exceptional : Bool} {a : Action} (plain : ∀ state, a ≠ .resume state) :
      Goes c id (.obeying key exceptional a) (.waiting key exceptional)
  | resume {key : Nat} {exceptional : Bool} {state : ControlState} :
      Goes c id (.obeying key exceptional (.resume state)) (.resuming key exceptional state)
  | jump {key : Nat} {exceptional : Bool} {seq : Int} {line : Nat} :
      Goes c id (.obeying key exceptional (.setNextStatement seq line)) (.jumping key exceptional)
  | plain {key : Nat} : Goes c id (.released key false) (.leaving key true)
  | proceed {key : Nat} (lasting : c.finished = false) :
      Goes c id (.released key true) (.proceeding key)
  /-- The end of an exception is not announced when the session has ended. -/
  | forgo {key : Nat} (ended : c.finished = true) :
      Goes c id (.released key true) (.leaving key true)
  | unknown (missing : c.key? id = none) : Goes c id .removing (.returning false)

section

variable {c : SharedSession ι} {id id' : String}

@[simp] theorem key?_introduce (h : c.key? id = none) : (c.introduce id).key? id = some c.made := by
  rw [key?] at h
  simp [key?, introduce, List.lookup_append, h]

@[simp] theorem key?_introduce_of_ne (h : id' ≠ id) : (c.introduce id).key? id' = c.key? id' := by
  have other : (id' == id) = false := by simpa using h
  simp [key?, introduce, List.lookup_append, List.lookup_cons, other]

/-- A context that is forgotten is not found any more. It still exists, for the call that is inside
the stop. -/
@[simp] theorem key?_remove (c : SharedSession ι) (id : String) : (c.remove id).key? id = none := by
  rw [key?, List.lookup_eq_none_iff]
  intro entry member
  have other := (List.mem_filter.mp member).2
  rw [bne_iff_ne] at other
  exact bne_iff_ne.mpr (Ne.symm other)

/-- Forgetting one context leaves the others registered. -/
@[simp] theorem key?_remove_of_ne (h : id' ≠ id) : (c.remove id).key? id' = c.key? id' := by
  rw [key?, key?, remove]
  dsimp only
  induction c.registry with
  | nil => rfl
  | cons entry rest ih =>
      rw [List.filter_cons]
      split
      · rw [List.lookup_cons, List.lookup_cons, ih]
      · rename_i dropped
        simp only [bne_iff_ne, ne_eq, not_not] at dropped
        have other : (id' == entry.1) = false := by simpa [dropped] using h
        rw [ih, List.lookup_cons, other]

end

variable [DecidableEq ι]

/-- The same with another activity of one thread. -/
def doing (c : SharedSession ι) (i : ι) (a : Activity) : SharedSession ι :=
  { c with activity := Function.update c.activity i a }

/-- A thread begins a call, which has returned at once if the session has ended. -/
def call (c : SharedSession ι) (i : ι) (r : Report) : SharedSession ι :=
  c.doing i (if c.finished then .idle false else r.begun)

/-- One access to what is shared. The host may be one that makes some reports only. -/
inductive Step (host : SharedSession ι → Report → Prop) (c : SharedSession ι) :
    SharedSession ι → Prop
  | call (i : ι) {answer : Bool} (held : c.activity i = .idle answer) (r : Report)
      (reports : host c r) : Step host c (c.call i r)
  | go (i : ι) {id : String} {st st' : Stage} (held : c.activity i = .calling id st)
      (goes : Goes c id st st') : Step host c (c.doing i (.calling id st'))
  | introduce (i : ι) {id : String} {isEvent : Bool}
      (held : c.activity i = .calling id (.arriving isEvent)) (missing : c.key? id = none) :
      Step host c ((c.introduce id).doing i (.calling id (.announcing isEvent c.made)))
  | say (i : ι) {id : String} {st st' : Stage} {n : Notice} (held : c.activity i = .calling id st)
      (word : st.word? = some (n, st')) {command : Wire.Command} {payload : String}
      (reads : Notice.read? command payload = some (id, n)) :
      Step host c ((c.notify command payload).doing i (.calling id st'))
  | set (i : ι) {id : String} {st st' : Stage} {key : Nat} {x : Context}
      (held : c.activity i = .calling id st) (sets : st.Sets key (c.contexts key) x st') :
      Step host c ((c.set key x).doing i (.calling id st'))
  | remark (i : ι) {id : String} {st : Stage} (held : c.activity i = .calling id st)
      (may : st.mayRemark = true) {command : Wire.Command} (aside : command.isAside = true)
      (payload : String) : Step host c (c.notify command payload)
  /-- A running thread takes the commands that wait for it. -/
  | take (i : ι) {id : String} {key : Nat} (held : c.activity i = .calling id (.looking key)) :
      Step host c { c with queue := (c.queue.takeFor id).2 }
  /-- A stopped thread takes a command. -/
  | obey (i : ι) {id : String} {key : Nat} {exceptional : Bool} {k : QueuedCommand}
      {q : CommandQueue} (held : c.activity i = .calling id (.waiting key exceptional))
      (found : c.queue.waitFor id = (.command k, q)) :
      Step host c (doing { c with queue := q } i (.calling id (.obeying key exceptional k.action)))
  | discard (i : ι) {id : String} (held : c.activity i = .calling id .exiting) :
      Step host c (doing { c with queue := c.queue.discardFor id } i (.calling id .removing))
  | remove (i : ι) {id : String} {key : Nat} (held : c.activity i = .calling id .removing)
      (known : c.key? id = some key) :
      Step host c ((c.remove id).doing i (.calling id .parting))
  | print (i : ι) (held : c.activity i = .printing) (payload : String) :
      Step host c ((c.notify .writeToConsole payload).doing i (.idle false))
  | back (i : ι) {id : String} {answer : Bool}
      (held : c.activity i = .calling id (.returning answer)) :
      Step host c (c.doing i (.idle answer))
  /-- A request is answered, by the controller's side or by a thread. -/
  | answer (command : Wire.Command) {seq : Int} (payload : String)
      (numbered : seq % 2 = 1 ∨ command = .error) :
      Step host c { c with outbox := c.outbox.respond command seq payload }
  /-- A command is posted. None tells a thread to stay stopped. -/
  | post (k : QueuedCommand) {q : CommandQueue} (accepted : c.queue.post k = .ok q)
      (awake : k.action ≠ .resume .suspended) : Step host c { c with queue := q }
  | ready : Step host c { c with lifecycle := c.lifecycle.ready }
  | finish (first : c.ending = .lasting) : Step host c { c with ending := .begun }
  | terminate (now : c.ending = .begun) :
      Step host c { c with queue := c.queue.terminate, ending := .terminated }
  | settle (now : c.ending = .terminated) :
      Step host c { c with lifecycle := .finished, ending := .settled }
  | gather (now : c.ending = .settled) :
      Step host c { c with ending := .waking (c.registry.map Prod.snd) }
  | wake {key : Nat} {keys : List Nat} (now : c.ending = .waking (key :: keys)) :
      Step host c (SharedSession.set { c with ending := .waking keys } key
        { c.contexts key with control := .resumed .running 0 })
  | close (now : c.ending = .waking []) :
      Step host c { c with outbox := c.outbox.close, ending := .closed }

def Steps (host : SharedSession ι → Report → Prop) :
    SharedSession ι → SharedSession ι → Prop :=
  Relation.ReflTransGen (Step host)

/-- A host that may report anything at any time, also of a thread that another call is about. -/
def anyHost (_ : SharedSession ι) (_ : Report) : Prop := True

/-- A host that begins no call about a thread while another call about it is under way. -/
def sequentialHost (c : SharedSession ι) (r : Report) : Prop :=
  ∀ id st, r.begun = .calling id st → ∀ i st', c.activity i ≠ .calling id st'

section

variable {host : SharedSession ι → Report → Prop} {c c' : SharedSession ι}

@[simp] theorem activity_doing (i : ι) (a : Activity) :
    (c.doing i a).activity = Function.update c.activity i a := rfl

@[simp] theorem registry_doing (i : ι) (a : Activity) : (c.doing i a).registry = c.registry := rfl

@[simp] theorem outbox_doing (i : ι) (a : Activity) : (c.doing i a).outbox = c.outbox := rfl

@[simp] theorem queue_doing (i : ι) (a : Activity) : (c.doing i a).queue = c.queue := rfl

@[simp] theorem contexts_doing (i : ι) (a : Activity) : (c.doing i a).contexts = c.contexts := rfl

@[simp] theorem ending_doing (i : ι) (a : Activity) : (c.doing i a).ending = c.ending := rfl

/-- A closed queue stays closed. -/
theorem Step.terminated (h : Step host c c') (closed : c.queue.terminated = true) :
    c'.queue.terminated = true := by
  cases h with
  | take => rwa [CommandQueue.terminated_takeFor]
  | obey i held found =>
      obtain ⟨-, taken⟩ := CommandQueue.waitFor_eq_command found
      exact (CommandQueue.terminated_takeOne taken).trans closed
  | post k accepted =>
      obtain ⟨-, rfl⟩ := CommandQueue.post_eq_ok accepted
      exact closed
  | terminate => rfl
  | _ => exact closed

/-- The contexts after some of them have been told to run. -/
def woken (keys : List Nat) (contexts : Nat → Context) (key : Nat) : Context :=
  if key ∈ keys then { contexts key with control := .resumed .running 0 } else contexts key

/-- A session after its end, if nothing comes between the steps of it. -/
def ended (c : SharedSession ι) : SharedSession ι :=
  { c with
    ending := .closed
    lifecycle := .finished
    queue := c.queue.terminate
    outbox := c.outbox.close
    contexts := woken (c.registry.map Prod.snd) c.contexts }

/-- The contexts that are to be told to run are told one by one. Other steps may come between, but
need not. -/
theorem wake_steps {keys : List Nat} (now : c.ending = .waking keys) :
    Steps host c { c with ending := .waking [], contexts := woken keys c.contexts } := by
  induction keys generalizing c with
  | nil =>
      have same : woken [] c.contexts = c.contexts := by
        funext key
        rw [woken, if_neg List.not_mem_nil]
      rw [same, ← now]
      exact .refl
  | cons key keys ih =>
      refine .head (.wake now) ?_
      have rest := ih (c := SharedSession.set { c with ending := .waking keys } key
        { c.contexts key with control := .resumed .running 0 }) rfl
      have same : woken (key :: keys) c.contexts = woken keys (Function.update c.contexts key
          { c.contexts key with control := .resumed .running 0 }) := by
        funext other
        by_cases mine : other = key
        · subst mine
          simp [woken]
        · simp [woken, mine]
      rw [same]
      exact rest

/-- All steps of the end of a session, with nothing between them. -/
theorem finish_steps (lasting : c.ending = .lasting) : Steps host c c.ended := by
  let gathered : SharedSession ι := { c with
    ending := .waking (c.registry.map Prod.snd)
    lifecycle := .finished
    queue := c.queue.terminate }
  have begun : Steps host c gathered :=
    .head (.finish lasting) <| .head (.terminate rfl) <| .head (.settle rfl) <|
      .single (.gather rfl)
  have waking : gathered.ending = .waking (c.registry.map Prod.snd) := rfl
  exact (begun.trans (wake_steps waking)).tail (.close rfl)

/-- After a step of one call, a call is the one that has stepped or was under way before. -/
theorem calling_of_update {f : ι → Activity} {i j : ι} {a : Activity} {id : String} {st : Stage}
    (h : Function.update f i a j = .calling id st) :
    (j = i ∧ a = .calling id st) ∨ (j ≠ i ∧ f j = .calling id st) := by
  by_cases mine : j = i
  · subst mine
    exact .inl ⟨rfl, by simpa using h⟩
  · exact .inr ⟨mine, by simpa [Function.update_of_ne mine] using h⟩

/-- What a step is when the queue is closed: one call goes on as the end of the session lets it, or
calls return at most, and nothing is told of any thread. -/
inductive Winding (c c' : SharedSession ι) : Prop
  | quiet (hushed : Hushed c.outbox c'.outbox)
      (same : ∀ i, c'.activity i = c.activity i ∨ ∃ answer, c'.activity i = .idle answer)
  | call (i : ι) (id : String) {st st' : Stage} {words : List Notice}
      (held : c.activity i = .calling id st) (winds : st.Winds words st')
      (activity : c'.activity = Function.update c.activity i (.calling id st'))
      (told : Tells id words c.outbox c'.outbox)

theorem Winding.apart (activity : c'.activity = c.activity)
    (hushed : Hushed c.outbox c'.outbox) : Winding c c' :=
  .quiet hushed fun _ => .inl (by rw [activity])

/-- A call that returns has nothing more to say. -/
theorem Winding.idle (i : ι) {answer : Bool}
    (activity : c'.activity = Function.update c.activity i (.idle answer))
    (hushed : Hushed c.outbox c'.outbox) : Winding c c' := by
  refine .quiet hushed fun j => ?_
  by_cases mine : j = i
  · subst mine
    exact .inr ⟨answer, by rw [activity, Function.update_self]⟩
  · exact .inl (by rw [activity, Function.update_of_ne mine])

/-- A call that goes on in silence winds down as the rules for its stage tell. -/
theorem Winding.silent (i : ι) {id : String} {st st' : Stage} (held : c.activity i = .calling id st)
    (winds : st.Winds [] st')
    (activity : c'.activity = Function.update c.activity i (.calling id st'))
    (outbox : c'.outbox = c.outbox) : Winding c c' := by
  refine .call i id held winds activity ?_
  rw [outbox]
  exact (Hushed.refl _).tells id

/-- When the queue is closed, no call begins, and each that is under way goes on as the end of the
session lets it. -/
theorem Step.winding (h : Step host c c') (ended : c.finished = true)
    (closed : c.queue.terminated = true) : Winding c c' := by
  cases h with
  | call i held r =>
      rw [SharedSession.call, if_pos ended]
      exact .idle i rfl (Hushed.refl _)
  | go i held goes =>
      refine .silent i held ?_ rfl rfl
      cases goes with
      | find => exact .find
      | busy => exact .busy
      | dismiss => exact .dismiss
      | pass lasting | proceed lasting =>
          rw [ended] at lasting
          cases lasting
      | decline => exact .decline
      | choose fresh => exact .choose fresh
      | terminated => exact .terminated
      | stay => exact .stay
      | resume => exact .resume
      | jump => exact .jump
      | plain | forgo => exact .leave
      | unknown => exact .unknown
  | introduce i held => exact .silent i held .introduce rfl rfl
  | say i held word reads => exact .call i _ held (.say word) rfl (tells_notify reads)
  | set i held sets => exact .silent i held (.set sets) rfl rfl
  | remark i held may aside payload =>
      exact .apart rfl (hushed_notify (Notice.read?_aside aside payload))
  | obey i held found =>
      rw [(CommandQueue.waitFor_eq_command found).1] at closed
      cases closed
  | discard i held => exact .silent i held .discard rfl rfl
  | remove i held => exact .silent i held .remove rfl rfl
  | print i held payload => exact .idle i rfl (hushed_notify rfl)
  | back i held => exact .idle i rfl (Hushed.refl _)
  | answer command payload numbered =>
      refine .apart rfl (hushed_respond ?_)
      rcases numbered with odd | rfl
      · exact .inl odd
      · exact .inr rfl
  | close => exact .apart rfl (hushed_close _)
  | take | post | ready | finish | terminate | settle | gather | wake =>
      exact .apart rfl (Hushed.refl _)

end

section

variable {host : SharedSession ι → Report → Prop}
variable {c d : SharedSession ι} {i : ι} {id : String} {st st' : Stage}

@[simp] theorem doing_doing (d : SharedSession ι) (i : ι) (a b : Activity) :
    (d.doing i a).doing i b = d.doing i b := by
  simp only [doing, Function.update_idem]

@[simp] theorem activity_doing_self (d : SharedSession ι) (i : ι) (a : Activity) :
    (d.doing i a).activity i = a := Function.update_self ..

theorem doing_self {a : Activity} (held : d.activity i = a) : d.doing i a = d := by
  rw [doing, ← held, Function.update_eq_self]

omit [DecidableEq ι] in
theorem set_self {key : Nat} {x : Context} (held : d.contexts key = x) : d.set key x = d := by
  rw [SharedSession.set, ← held, Function.update_eq_self]

omit [DecidableEq ι] in
@[simp] theorem set_set (d : SharedSession ι) (key : Nat) (x y : Context) :
    (d.set key x).set key y = d.set key y := by
  simp only [SharedSession.set, Function.update_idem]

namespace Steps

theorem begin (c : SharedSession ι) {answer : Bool} (held : c.activity i = .idle answer)
    (lasting : c.finished = false) {r : Report} (reports : host c r)
    (begun : r.begun = .calling id st) : Steps host c (c.doing i (.calling id st)) := by
  have step : Step host c (c.call i r) := .call i held r reports
  rw [SharedSession.call, if_neg (by simp [lasting]), begun] at step
  exact .single step

theorem go (h : Steps host c (d.doing i (.calling id st)))
    (goes : Goes (d.doing i (.calling id st)) id st st') :
    Steps host c (d.doing i (.calling id st')) := by
  have step : Step host (d.doing i (.calling id st)) _ := .go i (activity_doing_self ..) goes
  rw [doing_doing] at step
  exact h.tail step

/-- The call at hand says what is next to be said at its stage. -/
theorem say (h : Steps host c (d.doing i (.calling id st))) {n : Notice}
    (word : st.word? = some (n, st')) {command : Wire.Command} {payload : String}
    (reads : Notice.read? command payload = some (id, n)) :
    Steps host c ((d.notify command payload).doing i (.calling id st')) := by
  have step : Step host (d.doing i (.calling id st))
      (((d.notify command payload).doing i (.calling id st)).doing i (.calling id st')) :=
    .say i (activity_doing_self ..) word reads
  rw [doing_doing] at step
  exact h.tail step

/-- The call at hand writes into the context of its thread. -/
theorem set (h : Steps host c (d.doing i (.calling id st))) {key : Nat} {x : Context}
    (sets : st.Sets key (d.contexts key) x st') :
    Steps host c ((d.set key x).doing i (.calling id st')) := by
  have step : Step host (d.doing i (.calling id st))
      (((d.set key x).doing i (.calling id st)).doing i (.calling id st')) :=
    .set i (activity_doing_self ..) sets
  rw [doing_doing] at step
  exact h.tail step

/-- A call for an unknown thread makes a context, which it is about to announce. -/
theorem introduce {isEvent : Bool} (h : Steps host c (d.doing i (.calling id (.arriving isEvent))))
    (missing : d.key? id = none) :
    Steps host c ((d.introduce id).doing i (.calling id (.announcing isEvent d.made))) := by
  have step : Step host (d.doing i (.calling id (.arriving isEvent)))
      (((d.introduce id).doing i (.calling id (.arriving isEvent))).doing i
        (.calling id (.announcing isEvent d.made))) :=
    .introduce i (activity_doing_self ..) missing
  rw [doing_doing] at step
  exact h.tail step

/-- The call at hand remarks on its event. The answers among the remarks carry odd numbers. -/
theorem remarks (h : Steps host c (d.doing i (.calling id st))) (may : st.mayRemark = true)
    {o : Wire.Outbox} (remarks : Wire.Outbox.Remarks (· % 2 = 1) d.outbox o) :
    Steps host c (doing { d with outbox := o } i (.calling id st)) := by
  induction remarks with
  | nothing => exact h
  | answer _ command payload odd _ ih => exact ih.tail (.answer command payload (.inl odd))
  | aside _ payload aside _ ih =>
      exact ih.tail (.remark i (activity_doing_self ..) may aside payload)

theorem take {key : Nat} (h : Steps host c (d.doing i (.calling id (.looking key)))) :
    Steps host c (doing { d with queue := (d.queue.takeFor id).2 } i
      (.calling id (.looking key))) :=
  h.tail (.take i (activity_doing_self ..))

/-- The call at hand drops the commands that wait for its thread. -/
theorem discard (h : Steps host c (d.doing i (.calling id .exiting))) :
    Steps host c (doing { d with queue := d.queue.discardFor id } i (.calling id .removing)) := by
  have step : Step host (d.doing i (.calling id .exiting))
      ((doing { d with queue := d.queue.discardFor id } i (.calling id .exiting)).doing i
        (.calling id .removing)) :=
    .discard i (activity_doing_self ..)
  rw [doing_doing] at step
  exact h.tail step

/-- The call at hand removes the thread from the registry, if it is there, and has yet to say so. -/
theorem remove (h : Steps host c (d.doing i (.calling id .removing))) {key : Nat}
    (known : d.key? id = some key) :
    Steps host c ((d.remove id).doing i (.calling id .parting)) := by
  have step : Step host (d.doing i (.calling id .removing))
      (((d.remove id).doing i (.calling id .removing)).doing i (.calling id .parting)) :=
    .remove i (activity_doing_self ..) known
  rw [doing_doing] at step
  exact h.tail step

/-- The call at hand takes a command that waits for its stopped thread. -/
theorem obey {key : Nat} {exceptional : Bool}
    (h : Steps host c (d.doing i (.calling id (.waiting key exceptional)))) {k : QueuedCommand}
    {q : CommandQueue} (found : d.queue.waitFor id = (.command k, q)) :
    Steps host c (doing { d with queue := q } i
      (.calling id (.obeying key exceptional k.action))) := by
  have step : Step host (d.doing i (.calling id (.waiting key exceptional)))
      ((doing { d with queue := q } i (.calling id (.waiting key exceptional))).doing i
        (.calling id (.obeying key exceptional k.action))) :=
    .obey i (activity_doing_self ..) found
  rw [doing_doing] at step
  exact h.tail step

/-- A command sends an answer at most. -/
theorem answer (h : Steps host c (d.doing i (.calling id st))) {o : Wire.Outbox}
    (sent : o = d.outbox ∨ ∃ seq command payload, seq % 2 = 1 ∧
      o = d.outbox.respond command seq payload) :
    Steps host c (doing { d with outbox := o } i (.calling id st)) := by
  rcases sent with rfl | ⟨seq, command, payload, odd, rfl⟩
  · exact h
  · exact h.tail (.answer command payload (.inl odd))

/-- A call leaves the engine and returns. -/
theorem leave {key : Nat} {answer : Bool}
    (h : Steps host c (d.doing i (.calling id (.leaving key answer)))) :
    Steps host c ((d.set key { d.contexts key with inEngine := false }).doing i
      (.idle answer)) := by
  have step : Step host (((d.set key { d.contexts key with inEngine := false }).doing i
      (.calling id (.returning answer)))) _ := .back i (activity_doing_self ..)
  rw [doing_doing] at step
  exact (h.set .leave).tail step

theorem back {answer : Bool} (h : Steps host c (d.doing i (.calling id (.returning answer)))) :
    Steps host c (d.doing i (.idle answer)) := by
  have step : Step host (d.doing i (.calling id (.returning answer))) _ :=
    .back i (activity_doing_self ..)
  rw [doing_doing] at step
  exact h.tail step

end Steps

end

end SharedSession

end RemoteDebugger
