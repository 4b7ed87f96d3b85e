import RemoteDebugger.Proofs.Session.Transition

/-!
# Requests to stop

A request to stop sets a flag of a running thread. The flag outlives every event of the thread that
does not stop it and every command it carries out, it keeps its events from being skipped, and it
makes the thread stop at the next line that the file filters let pass. A stop in an event clears it,
whatever the reason is. A jump of the stopped thread, which announces the stop anew, does not: what
the controller has asked meanwhile makes the thread stop once more.
-/

namespace RemoteDebugger

namespace Session

open Thread (Moves)

variable {s : Session} {id : String}

/-- The first field of a payload names the thread, or all threads. -/
def Names (payload : String) (id : String) : Prop :=
  (Fields.ofPayload payload).values[0]? = some allThreads ∨
    (Fields.ofPayload payload).values[0]? = some id

/-- A request that names all threads asks each of them, and does not look whether there is any. -/
theorem suspendThreads_all {f : Fields} (all : f.values[0]? = some allThreads) :
    (Handling.suspendThreads f).run.run s =
      (.ok (), { s with threads := s.threads.map Thread.asked }) := by
  rw [Handling.suspendThreads, Handling.required_of_values all]
  rfl

theorem requestedThread_of_known {f : Fields} {t : Thread} (named : f.values[0]? = some id)
    (known : s.thread? id = some t) : (Handling.requestedThread f).run.run s = (.ok t, s) := by
  simp only [Handling.requestedThread, Handling.required_of_values named, known,
    Handling.run_bind, Handling.run_read, Handling.run_get, Handling.run_pure]

/-- A request that names a known thread asks this one only. -/
theorem suspendThreads_one {f : Fields} {t : Thread} (named : f.values[0]? = some id)
    (one : id ≠ allThreads) (known : s.thread? id = some t) :
    (Handling.suspendThreads f).run.run s = (.ok (), s.putThread t.asked) := by
  simp only [Handling.suspendThreads, Handling.required_of_values named, one, if_false,
    requestedThread_of_known named known, Handling.run_bind, Handling.run_read,
    Handling.run_modify, Thread.asked]

/-- A request to stop that names a thread asks it, and the session goes on. -/
theorem thread?_request_threadSuspend {seq : Int} {payload : String} {t : Thread}
    (odd : seq % 2 = 1) (names : Names payload id) (known : s.thread? id = some t) :
    (s.request Wire.Command.threadSuspend.code seq payload).thread? id = some t.asked ∧
      (s.request Wire.Command.threadSuspend.code seq payload).finished = s.finished := by
  by_cases all : (Fields.ofPayload payload).values[0]? = some allThreads
  · have done : (Handling.dispatch .threadSuspend seq payload).run.run s = _ :=
      suspendThreads_all all
    rw [request_of_ok odd (Wire.Command.ofCode?_code _) done]
    constructor
    · rw [thread?_askedAll, known]
      rfl
    · rfl
  · have named := names.resolve_left all
    have one : id ≠ allThreads := by
      rintro rfl
      exact all named
    have done : (Handling.dispatch .threadSuspend seq payload).run.run s = _ :=
      suspendThreads_one named one known
    obtain rfl : t.id = id := thread?_id known
    rw [request_of_ok odd (Wire.Command.ofCode?_code _) done]
    constructor
    · exact thread?_putThread (t := t.asked) known
    · rfl

/-- The session goes on, and the thread is registered and not stopped. -/
structure Running (s : Session) (id : String) : Prop where
  lasting : s.finished = false
  known : ∃ t, s.thread? id = some t ∧ t.suspension = none

def KeepsRunning (s : Session) (id : String) (inputs : List Input) : Prop :=
  ∀ past, past <+: inputs → Running (s.run past) id

theorem KeepsRunning.now {inputs : List Input} (h : KeepsRunning s id inputs) : Running s id :=
  h [] List.nil_prefix

theorem KeepsRunning.last {inputs : List Input} (h : KeepsRunning s id inputs) :
    Running (s.run inputs) id :=
  h inputs List.prefix_rfl

theorem keepsRunning_nil : KeepsRunning s id [] ↔ Running s id := by
  constructor
  · exact fun running => running.now
  · intro running past first
    rwa [List.prefix_nil.mp first]

/-- A thread runs along inputs if it runs now, and along the rest from where the first has led. -/
theorem keepsRunning_cons {i : Input} {inputs : List Input} :
    KeepsRunning s id (i :: inputs) ↔ Running s id ∧ KeepsRunning (s.react i).1 id inputs := by
  constructor
  · intro running
    refine ⟨running.now, ?_⟩
    intro past first
    exact running (i :: past) (List.cons_prefix_cons.mpr ⟨rfl, first⟩)
  · rintro ⟨now, later⟩ past first
    cases past with
    | nil => exact now
    | cons j past =>
        obtain ⟨rfl, rest⟩ := List.cons_prefix_cons.mp first
        exact later past rest

def Asked (s : Session) (id : String) : Prop :=
  ∀ t, s.thread? id = some t → t.suspendRequested = true

/-- A thread that runs before and after a move still knows what it has been asked. -/
theorem asked_of_moves {i : Input} {t t' : Thread} (moves : Moves s i t t')
    (before : t.suspension = none) (after : t'.suspension = none)
    (asked : t.suspendRequested = true) :
    t'.suspendRequested = true := by
  cases moves with
  | stays | released => exact asked
  | asked => rfl
  | stops => cases after
  | jumps stopped | leaves stopped =>
      rw [before] at stopped
      cases stopped

/-- A thread that has been asked to stop, and runs on, is still asked. Only a stop in an event
clears the request. -/
theorem Asked.react (h : Asked s id) (orderly : Orderly s) {i : Input} (before : Running s id)
    (after : Running (s.react i).1 id) : Asked (s.react i).1 id := by
  intro t' known'
  obtain ⟨t, known, awake⟩ := before.known
  obtain ⟨u, same, awake'⟩ := after.known
  obtain rfl := Option.some.inj (known'.symm.trans same)
  obtain ⟨v, registered | ⟨missing, -⟩, moves⟩ := moves_react orderly.distinct i known'
  · obtain rfl := Option.some.inj (known.symm.trans registered)
    exact asked_of_moves moves awake awake' (h t known)
  · rw [known] at missing
    cases missing

/-- The request outlives every run along which the thread is not stopped, however long it is. -/
theorem Asked.run {inputs : List Input} (h : Asked s id) (orderly : Orderly s)
    (running : KeepsRunning s id inputs) : Asked (s.run inputs) id := by
  induction inputs generalizing s with
  | nil => exact h
  | cons i inputs ih =>
      obtain ⟨now, later⟩ := keepsRunning_cons.mp running
      exact ih (h.react orderly now later.now) (orderly_react s i orderly) later

/-- The file filters let an event of the thread in the frame pass. -/
structure Passes (s : Session) (id : String) (frame : FrameRef) : Prop where
  traced : s.filter.isExcluded (s.fileOf frame) = false
  unfiltered : ∀ t, s.thread? id = some t → t.control.state.isStepping = true →
    s.filter.isStepFiltered (s.fileOf frame) = false

section

variable {who : ThreadRef} {frame : FrameRef}

/-- An event of a thread that has been asked is looked at, whatever is memoized. -/
theorem event_of_asked (reachable : Reachable s) (running : Running s who.id)
    (asked : Asked s who.id) (kind : EventKind) (frame : FrameRef) :
    ∃ t, s.thread? who.id = some t ∧ t.suspendRequested = true ∧
      s.event who kind frame = s.lookAt t kind frame := by
  obtain ⟨t, known, awake⟩ := running.known
  have introduced := introduce_of_known known
  have requested := asked t known
  have outside : t.inEngine = false := by
    rw [reachable.inEngine known, awake]
    rfl
  have unskipped : s.isSkipped s.breakpoints.skips.contains t kind frame = false := by
    simp [isSkipped, requested]
  refine ⟨t, known, requested, ?_⟩
  have looked : s.event who kind frame =
      (s.introduce who).1.lookAt (s.introduce who).2 kind frame := by
    apply event_eq_lookAt running.lasting
    · rwa [introduced]
    · rwa [introduced]
  rwa [introduced] at looked

/-- A line that the filters let pass stops a thread that has been asked to. -/
theorem line_of_asked (reachable : Reachable s) (running : Running s who.id)
    (asked : Asked s who.id) (passes : Passes s who.id frame) :
    (s.event who .line frame).2 = .blocked ∧
      StoppedIn s (s.event who .line frame).1 who.id .suspend frame := by
  obtain ⟨t, known, requested, looked⟩ := event_of_asked reachable running asked .line frame
  have same : t.id = who.id := thread?_id known
  have decided : (s.decided t .line frame).2 = .suspend .suspend frame := by
    simp [Session.decided, decide, decideLine, requested]
  have known' : (s.decided t .line frame).1.thread? t.id = some t := by
    rwa [thread?_of_threads (s.decided_threads t .line frame), same]
  rw [looked, lookAt_of_traced passes.traced (passes.unfiltered t known), decided, ← same]
  exact ⟨rfl, stoppedIn_suspend known' (s.decided_messages t .line frame)⟩

/-- A call that the filters let pass is traced, so that the lines of the new frame are reported. -/
theorem call_of_asked (reachable : Reachable s) (running : Running s who.id)
    (asked : Asked s who.id)
    (passes : Passes s who.id frame) : (s.event who .call frame).2 = .done true := by
  obtain ⟨t, known, requested, looked⟩ := event_of_asked reachable running asked .call frame
  have decided : (s.decided t .call frame).2 = .continue_ := by
    cases state : t.control.state <;> simp [Session.decided, decide, decideCall, state, requested]
  rw [looked, lookAt_of_traced passes.traced (passes.unfiltered t known), decided]
  rfl

end

/-- No registered thread of the identifier has been asked to stop. -/
def Unasked (s : Session) (id : String) : Prop :=
  ∀ t, s.thread? id = some t → t.suspendRequested = false

/-- No move but a request to stop sets the flag: a thread that was not asked is not asked
afterwards. -/
theorem unasked_of_moves {i : Input} {t t' : Thread} (moves : Moves s i t t')
    (silent : ¬ i.AsksToStop) (unasked : t.suspendRequested = false) :
    t'.suspendRequested = false := by
  cases moves with
  | stays | jumps | leaves | released => exact unasked
  | asked asks => exact absurd asks silent
  | stops => rfl

/-- Only a request asks a thread to stop. -/
theorem Unasked.run {inputs : List Input} (h : Unasked s id) (orderly : Orderly s)
    (silent : ∀ i ∈ inputs, ¬ i.AsksToStop) : Unasked (s.run inputs) id := by
  induction inputs generalizing s with
  | nil => exact h
  | cons i inputs ih =>
      apply ih
      · intro t' known'
        obtain ⟨t, known | ⟨-, who, -, rfl⟩, moves⟩ := moves_react orderly.distinct i known'
        · exact unasked_of_moves moves (silent i List.mem_cons_self) (h t known)
        · exact unasked_of_moves moves (silent i List.mem_cons_self) rfl
      · exact orderly_react s i orderly
      · exact fun j later => silent j (List.mem_cons_of_mem i later)

/-- A stop meets the request, whatever its reason is. -/
theorem unasked_of_blocked {who : ThreadRef} {kind : EventKind} {frame : FrameRef}
    (blocked : (s.event who kind frame).2 = .blocked) :
    Unasked (s.event who kind frame).1 who.id := by
  obtain ⟨reason, top, exception, halted, -⟩ := halted_of_blocked blocked
  intro t known
  rw [halted] at known
  obtain rfl := Option.some.inj known
  rfl

/-- No step of a stopped thread asks it to stop, or meets what it has been asked. -/
theorem suspendRequested_serve (orderly : Orderly s) {position : Nat} {t t' : Thread}
    (known : s.thread? id = some t)
    (served : (s.react (.serve position)).1.thread? id = some t') :
    t'.suspendRequested = t.suspendRequested := by
  obtain ⟨u, registered | ⟨missing, -⟩, moves⟩ := moves_react orderly.distinct _ served
  · obtain rfl := Option.some.inj (known.symm.trans registered)
    cases moves with
    | stays | jumps | leaves | released => rfl
    | asked asks => exact asks.elim
    | stops reason top exception outside within => exact within.elim
  · rw [known] at missing
    cases missing

/-- A running thread has been asked to stop, and what it has been asked is not lost. -/
structure WillStop (s : Session) (id : String) : Prop where
  /-- The flag stays set as long as the thread runs. -/
  kept : ∀ inputs, KeepsRunning s id inputs → Asked (s.run inputs) id
  /-- At a line that the filters let pass, the thread stops, and the stop is announced. -/
  stops : ∀ inputs, KeepsRunning s id inputs → ∀ (who : ThreadRef) (frame : FrameRef), who.id = id →
    Passes (s.run inputs) id frame → ((s.run inputs).event who .line frame).2 = .blocked ∧
      StoppedIn (s.run inputs) ((s.run inputs).event who .line frame).1 id .suspend frame
  /-- Until then, the calls that the filters let pass are traced. -/
  traces : ∀ inputs, KeepsRunning s id inputs → ∀ (who : ThreadRef) (frame : FrameRef),
    who.id = id →
    Passes (s.run inputs) id frame → ((s.run inputs).event who .call frame).2 = .done true
  /-- When the thread stops in an event, for this or another reason, the flag is clear. -/
  met : ∀ (inputs : List Input) (who : ThreadRef) (kind : EventKind) (frame : FrameRef),
    who.id = id →
    ((s.run inputs).event who kind frame).2 = .blocked →
    Unasked ((s.run inputs).event who kind frame).1 id
  /-- It stays clear until the controller asks again. -/
  rests : ∀ inputs : List Input, Unasked (s.run inputs) id →
    ∀ later : List Input, (∀ i ∈ later, ¬ i.AsksToStop) → Unasked ((s.run inputs).run later) id
  /-- What a stopped thread serves leaves the flag as it is. This includes a jump, which announces
  the stop anew: a request that the controller makes during the stop is still open then. -/
  serves : ∀ (inputs : List Input) (position : Nat) (t t' : Thread),
    (s.run inputs).thread? id = some t →
    ((s.run inputs).react (.serve position)).1.thread? id = some t' →
    t'.suspendRequested = t.suspendRequested

/-- A request to stop is never lost: the thread it has been made to knows of it until it stops, and
stops at the first line that the filters let pass. -/
theorem pause_is_never_lost (reachable : Reachable s) (running : Running s id) {seq : Int}
    {payload : String} (odd : seq % 2 = 1) (names : Names payload id) :
    WillStop (s.request Wire.Command.threadSuspend.code seq payload) id := by
  have after : Reachable (s.request Wire.Command.threadSuspend.code seq payload) :=
    reachable.run [.request Wire.Command.threadSuspend.code seq payload]
  have asked : Asked (s.request Wire.Command.threadSuspend.code seq payload) id := by
    obtain ⟨t, known, -⟩ := running.known
    intro u registered
    rw [(thread?_request_threadSuspend odd names known).1] at registered
    obtain rfl := Option.some.inj registered
    rfl
  constructor
  · intro inputs running
    exact asked.run after.orderly running
  · rintro inputs running who frame rfl passes
    exact line_of_asked (after.run inputs) running.last (asked.run after.orderly running) passes
  · rintro inputs running who frame rfl passes
    exact call_of_asked (after.run inputs) running.last (asked.run after.orderly running) passes
  · rintro inputs who kind frame rfl blocked
    exact unasked_of_blocked blocked
  · intro inputs unasked later silent
    exact unasked.run (after.run inputs).orderly silent
  · intro inputs position t t' known served
    exact suspendRequested_serve (after.run inputs).orderly known served

/-- A thread whose line has been memoized has been asked to stop, with all others. -/
def askedAtLine : Session :=
  ((start {} oneLine).run [.event mainThread .line 0]).request Wire.Command.threadSuspend.code 1 "*"

/-- It calls and returns, and stops at the memoized line. -/
theorem askedAtLine_stops :
    WillStop askedAtLine mainThread.id ∧
      KeepsRunning askedAtLine mainThread.id [.event mainThread .call 0, .event mainThread .ret 0] ∧
      ((askedAtLine.run [.event mainThread .call 0, .event mainThread .ret 0]).event
        mainThread .line 0).2 = .blocked := by
  have will : WillStop askedAtLine mainThread.id := by
    apply pause_is_never_lost
    · exact ⟨{}, oneLine, _, rfl⟩
    · exact ⟨by decide +kernel, { ref := mainThread }, by decide +kernel, rfl⟩
    · decide
    · exact .inl (by decide +kernel)
  have runs (s : Session) (lasting : s.finished = false)
      (known : s.thread? mainThread.id = some { ref := mainThread, suspendRequested := true }) :
      Running s mainThread.id := ⟨lasting, _, known, rfl⟩
  have registered : (askedAtLine.run [.event mainThread .call 0, .event mainThread .ret 0]).thread?
      mainThread.id = some { ref := mainThread, suspendRequested := true } := by
    decide +kernel
  have running : KeepsRunning askedAtLine mainThread.id
      [.event mainThread .call 0, .event mainThread .ret 0] := by
    apply keepsRunning_cons.mpr
    refine ⟨runs _ (by decide +kernel) (by decide +kernel), keepsRunning_cons.mpr ?_⟩
    refine ⟨runs _ (by decide +kernel) (by decide +kernel), keepsRunning_nil.mpr ?_⟩
    exact runs _ (by decide +kernel) registered
  have passes : Passes (askedAtLine.run [.event mainThread .call 0, .event mainThread .ret 0])
      mainThread.id 0 := by
    constructor
    · decide +kernel
    · intro t known stepping
      obtain rfl := Option.some.inj (registered.symm.trans known)
      cases stepping
  exact ⟨will, running, (will.stops _ running mainThread 0 rfl passes).1⟩

/-- Not every announcement of a stop finds the flag clear. The thread has stopped as it was asked
to, is asked again, and is told to jump: the stop is announced anew while the flag is set, so that
the thread stops once more after it has gone on. -/
theorem jump_leaves_request_open :
    let stopped := (askedAtLine.event mainThread .line 0).1
    let jumped := stopped.run [.request 105 3 "1", .request 121 5 "1\t4", .serve 0]
    Unasked stopped mainThread.id ∧
      (∃ seq payload, jumped.outbox.messages =
        stopped.outbox.messages ++
          [⟨.threadRun, seq, Wire.joinFields ["1", "121"]⟩, ⟨.threadSuspend, seq + 2, payload⟩]) ∧
      ¬ Unasked jumped mainThread.id := by
  intro stopped jumped
  have blocked : (askedAtLine.event mainThread .line 0).2 = .blocked := by
    decide +kernel
  have flag : (jumped.thread? mainThread.id).map Thread.suspendRequested = some true := by
    decide +kernel
  refine ⟨unasked_of_blocked blocked, ⟨6, _, rfl⟩, ?_⟩
  intro unasked
  obtain ⟨t, known, set⟩ := Option.map_eq_some_iff.mp flag
  rw [unasked t known] at set
  cases set

end Session

end RemoteDebugger
