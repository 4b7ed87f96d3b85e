import RemoteDebugger.Proofs.Session.Stepping

/-!
# Runs of a thread on a step

A stopped thread that is told to step goes on until its step is done. Whatever the session reacts to
in between, the control block of the thread stays as the step left it: requests only put commands
into the queue, and a command to go on does nothing to a thread that is not stopped. So the depth
that a step started from is the depth it is measured against at its end.

The thread is followed as long as nothing else stops it: no breakpoint, no exception, no request,
and not the end of the thread or of the session.
-/

namespace RemoteDebugger

/-- The thread goes on with a step as it was told to. -/
structure Thread.Steps (t : Thread) (state : ControlState) (depth : Nat) : Prop where
  control : t.control = .resumed state depth
  awake : t.suspension = none
  outside : t.inEngine = false

namespace Session

/-- The thread of an identifier is on a step. -/
def OnStep (s : Session) (id : String) (state : ControlState) (depth : Nat) : Prop :=
  ∃ t, s.thread? id = some t ∧ t.Steps state depth

/-- The session lasts, and so does the thread of an identifier: nobody has asked it to stop, and no
breakpoint or exception has stopped it. -/
structure Undisturbed (s : Session) (id : String) : Prop where
  lasting : s.finished = false
  calm : ∃ t, s.thread? id = some t ∧ t.suspendRequested = false ∧
    ∀ reason, t.control.stopReason = some reason → reason.isBreak = false

/-- The input is an event of the thread of an identifier, in a file that is heeded, with which its
step is done. -/
inductive EndsStep (s : Session) (id : String) (state : ControlState) (depth : Nat) :
    Input → StopReason → FrameRef → Prop
  | event {who : ThreadRef} {kind : EventKind} {frame : FrameRef} {reason : StopReason}
      {top : FrameRef}
      (mine : who.id = id) (heeded : s.Heeds frame)
      (done : StepDone s.program depth state kind frame reason top) :
      EndsStep s id state depth (.event who kind frame) reason top

/-- The stopped thread at a position, whose topmost frame is given, is about to serve a command to
go on in a state. -/
structure Resumes (s : Session) (i : Nat) (t : Thread) (top : FrameRef) (state : ControlState) :
    Prop where
  here : s.threads[i]? = some t
  stopped : ∃ exception, t.suspension = some ⟨top, exception⟩
  told : ∃ target q, s.queue.takeOne t.id = some (⟨target, .resume state⟩, q)

section

variable {s s' : Session} {id : String} {state : ControlState} {depth : Nat}

theorem OnStep.of_same (h : OnStep s id state depth) (same : s'.thread? id = s.thread? id) :
    OnStep s' id state depth := by
  rwa [OnStep, same]

/-- A request to stop is no concern of a step: the control block is what it was. It does disturb the
thread, though, so what is promised of the step holds up to there. -/
theorem OnStep.of_asked (h : OnStep s id state depth)
    (asked : s'.thread? id = (s.thread? id).map Thread.asked) : OnStep s' id state depth := by
  obtain ⟨t, known, steps⟩ := h
  refine ⟨t.asked, ?_, steps.control, steps.awake, steps.outside⟩
  rw [asked, known, Option.map_some]

/-- A request that does not end the session leaves a thread on its step. -/
theorem Granted.onStep {code : Nat} {seq : Int} (granted : Granted s code seq s')
    (lasting : s'.finished = false) (h : OnStep s id state depth) : OnStep s' id state depth := by
  cases granted with
  | answered | resumed | posted | changed | switched => exact h
  | ready =>
      obtain ⟨lifecycle, same⟩ := s.markReady_eq
      rw [same]
      exact h
  | askedAll => exact h.of_asked (s.thread?_askedAll id)
  | asked t known =>
      rcases thread?_asked known id with asked | same
      · exact h.of_asked asked
      · exact h.of_same same
  | finished =>
      rw [finished_finish] at lasting
      cases lasting

/-- A thread that leaves its event goes on with the step it was told to make, whether its stop was
at an exception or not. -/
theorem leaveEvent_steps {t : Thread} (steps : t.control = .resumed state depth) (s : Session)
    (x : Suspension) : (s.leaveEvent t x).2.Steps state depth := by
  cases exception : x.exception with
  | none =>
      rw [leaveEvent_of_plain exception]
      exact ⟨steps, rfl, rfl⟩
  | some e =>
      rw [leaveEvent_of_exception exception]
      exact ⟨steps, rfl, rfl⟩

/-- A thread that is told to go on leaves its event, and its step starts from the frame in which it
was stopped. -/
theorem Resumes.serve {i : Nat} {t : Thread} {top : FrameRef} (h : s.Resumes i t top state)
    (accepting : s.queue.terminated = false) :
    ∃ s₁ t₁, s.serve t = some (s₁, t₁) ∧ t₁.Steps state (s.program.depth top) := by
  obtain ⟨here, ⟨exception, stopped⟩, target, q, taken⟩ := h
  have served : s.serve t = some (leaveEvent
      (notifyRun { s with queue := q } (t.resume state (s.program.depth top)) state.resumeCommand)
      (t.resume state (s.program.depth top)) ⟨top, exception⟩) := by
    rw [Session.serve, stopped]
    dsimp only
    rw [if_neg (by simp [accepting]), taken]
    rfl
  exact ⟨_, _, served, leaveEvent_steps rfl _ _⟩

/-- A thread that has left its event is on its step, which counts from the depth of the frame it was
stopped in. The depth does not change while it runs. -/
theorem Resumes.onStep {i : Nat} {t : Thread} {top : FrameRef} (h : s.Resumes i t top state)
    (orderly : Orderly s) (lasting : s.finished = false) :
    OnStep (s.react (.serve i)).1 t.id state (s.program.depth top) := by
  obtain ⟨s₁, t₁, served, steps⟩ := h.serve (orderly.closed.trans lasting)
  have step : s.serveAt i = some { s₁ with threads := s.threads.set i t₁ } := by
    rw [serveAt, h.here]
    dsimp only
    rw [served]
    rfl
  refine ⟨t₁, ?_, steps⟩
  rw [react, step]
  show (s.threads.set i t₁).find? (fun u => u.id == t.id) = some t₁
  rw [find?_set orderly.distinct h.here (serve_id served), if_pos rfl]

/-- An event of a thread on a step. -/
theorem OnStep.event {who : ThreadRef} (h : OnStep s who.id state depth)
    (stepping : state.isStepping = true) (before : Undisturbed s who.id) (kind : EventKind)
    (frame : FrameRef) (after : Undisturbed (s.event who kind frame).1 who.id) :
    ((∀ reason top, ¬ EndsStep s who.id state depth (.event who kind frame) reason top) ∧
        OnStep (s.event who kind frame).1 who.id state depth) ∨
      ∃ reason top, EndsStep s who.id state depth (.event who kind frame) reason top ∧
        (s.event who kind frame).2 = .blocked ∧
        StoppedIn s (s.event who kind frame).1 who.id reason top := by
  obtain ⟨t, known, steps⟩ := h
  obtain ⟨u, same, unasked, -⟩ := before.calm
  obtain rfl := Option.some.inj (known.symm.trans same)
  have met : Met s t state depth kind frame (s.event who kind frame) :=
    met_event before.lasting known steps.outside unasked steps.control stepping
  rw [← thread?_id known] at after ⊢
  generalize s.event who kind frame = r at met after ⊢
  cases met with
  | on same undone =>
      refine .inl ⟨?_, t, same, steps⟩
      rintro reason top ⟨-, heeded, done⟩
      exact undone reason top heeded done
  | broken hit stopped =>
      obtain ⟨u, same, -, unbroken⟩ := after.calm
      obtain rfl := Option.some.inj (stopped.symm.trans same)
      rw [unbroken _ rfl] at hit
      cases hit
  | done heeded done stopped =>
      exact .inr ⟨_, _, .event (thread?_id known).symm heeded done, rfl, stopped⟩

/-- A reaction to anything but an event leaves a thread on its step. -/
theorem OnStep.aside (h : OnStep s id state depth) (orderly : Orderly s) (before : Undisturbed s id)
    {input : Input} (no_event : ∀ who kind frame, input ≠ .event who kind frame)
    (after : Undisturbed (s.react input).1 id) : OnStep (s.react input).1 id state depth := by
  cases input with
  | event who kind frame => exact absurd rfl (no_event who kind frame)
  | request code seq payload =>
      rcases s.request_cases code seq payload with ⟨e, refused⟩ | ⟨-, granted⟩
      · rw [Session.react, refused]
        exact h
      · exact granted.onStep after.lasting h
  | threadStarted who =>
      refine h.of_same ?_
      obtain ⟨t, known, -⟩ := h
      rw [Session.react, threadStarted, if_neg (by simp [before.lasting])]
      by_cases mine : who.id = id
      · simp [mine, known]
      · exact s.thread?_introduce_of_ne (Ne.symm mine)
  | threadExited id' =>
      refine h.of_same ?_
      by_cases mine : id = id'
      · -- The thread has not exited, as its run goes on.
        obtain ⟨t, present, -⟩ := after.calm
        rw [Session.react, mine, thread?_threadExited_self before.lasting] at present
        cases present
      · exact s.thread?_threadExited_of_ne mine
  | serve i =>
      refine h.of_same ?_
      obtain ⟨t, known, steps⟩ := h
      rw [Session.react]
      cases served : s.serveAt i with
      | none => rfl
      | some s' =>
          refine thread?_serveAt orderly.distinct ?_ served
          intro u same
          obtain rfl := Option.some.inj (known.symm.trans same)
          exact steps.awake
  | console text stream => exact h.of_same ((Looks.writeToConsole s text stream).serves.thread? id)
  | finish =>
      have ended := after.lasting
      rw [Session.react, finished_finish] at ended
      cases ended
  | program program => exact h

/-- What a session reacts to leaves a thread on its step, or ends the step as it should. -/
theorem OnStep.react (h : OnStep s id state depth) (stepping : state.isStepping = true)
    (orderly : Orderly s) (before : Undisturbed s id) {input : Input}
    (after : Undisturbed (s.react input).1 id) :
    ((∀ reason top, ¬ EndsStep s id state depth input reason top) ∧
        OnStep (s.react input).1 id state depth) ∨
      ∃ reason top, EndsStep s id state depth input reason top ∧
        (s.react input).2 = some .blocked ∧ StoppedIn s (s.react input).1 id reason top := by
  by_cases event : ∃ who kind frame, input = .event who kind frame
  · obtain ⟨who, kind, frame, rfl⟩ := event
    by_cases mine : who.id = id
    · subst mine
      rcases h.event stepping before kind frame after with undone
        | ⟨reason, top, ends, blocked, stopped⟩
      · exact .inl undone
      · exact .inr ⟨reason, top, ends, congrArg some blocked, stopped⟩
    · refine .inl ⟨?_, h.of_same (s.thread?_event_of_ne (Ne.symm mine) kind frame)⟩
      rintro reason top ⟨who_is, -, -⟩
      exact mine who_is
  · refine .inl ⟨?_, h.aside orderly before ?_ after⟩
    · rintro reason top ⟨-, -, -⟩
      exact event ⟨_, _, _, rfl⟩
    · rintro who kind frame rfl
      exact event ⟨who, kind, frame, rfl⟩

/-- An input ends a step for one reason and in one frame, so what is promised of the stop is
determined. -/
theorem EndsStep.unique {input : Input} {reason reason' : StopReason} {top top' : FrameRef}
    (h : EndsStep s id state depth input reason top)
    (h' : EndsStep s id state depth input reason' top') : reason' = reason ∧ top' = top := by
  obtain ⟨-, -, done⟩ := h
  obtain ⟨-, -, done'⟩ := h'
  exact done.unique done'

/-- A run along which nothing disturbs the thread of an identifier, and no input ends its step. -/
structure Underway (s : Session) (id : String) (state : ControlState) (depth : Nat)
    (inputs : List Input) : Prop where
  undisturbed : ∀ before, before <+: inputs → Undisturbed (s.run before) id
  undone : ∀ before input, before ++ [input] <+: inputs → ∀ reason top,
    ¬ EndsStep (s.run before) id state depth input reason top

/-- The thread of an identifier is on its step, and the next input that ends the step stops it for
the right reason in the right frame, unless something else stops it there. -/
structure StopsWhenDone (s : Session) (id : String) (state : ControlState) (depth : Nat) :
    Prop where
  onStep : OnStep s id state depth
  stops : ∀ input reason top, EndsStep s id state depth input reason top →
    Undisturbed (s.react input).1 id →
    (s.react input).2 = some .blocked ∧ StoppedIn s (s.react input).1 id reason top

/-- Before any input, a run is underway if nothing disturbs the thread now. -/
theorem underway_nil : Underway s id state depth [] ↔ Undisturbed s id := by
  constructor
  · intro underway
    exact underway.undisturbed [] List.nil_prefix
  · intro calm
    constructor
    · intro before first
      rw [List.prefix_nil.mp first]
      exact calm
    · intro before input first
      cases before <;> cases List.prefix_nil.mp first

/-- A run is underway if its first input does not end the step, and the rest of it is underway. -/
theorem underway_cons {i : Input} {inputs : List Input} :
    Underway s id state depth (i :: inputs) ↔
      Undisturbed s id ∧ (∀ reason top, ¬ EndsStep s id state depth i reason top) ∧
        Underway (s.react i).1 id state depth inputs := by
  constructor
  · intro underway
    refine ⟨underway.undisturbed [] List.nil_prefix, underway.undone [] i (by simp), ?_, ?_⟩
    · intro before first
      exact underway.undisturbed (i :: before) (List.cons_prefix_cons.mpr ⟨rfl, first⟩)
    · intro before input first
      exact underway.undone (i :: before) input (List.cons_prefix_cons.mpr ⟨rfl, first⟩)
  · rintro ⟨calm, undone, rest⟩
    constructor
    · intro before first
      cases before with
      | nil => exact calm
      | cons i' before =>
          obtain ⟨rfl, later⟩ := List.cons_prefix_cons.mp first
          exact rest.undisturbed before later
    · intro before input first
      cases before with
      | nil =>
          obtain ⟨rfl, -⟩ := List.cons_prefix_cons.mp first
          exact undone
      | cons i' before =>
          obtain ⟨rfl, later⟩ := List.cons_prefix_cons.mp first
          exact rest.undone before input later

/-- As long as a run is underway, the thread is on its step, with the control block that it was
given. -/
theorem OnStep.run (h : OnStep s id state depth) (stepping : state.isStepping = true)
    (orderly : Orderly s) {inputs : List Input} (underway : Underway s id state depth inputs) :
    OnStep (s.run inputs) id state depth := by
  induction inputs generalizing s with
  | nil => exact h
  | cons i inputs ih =>
      obtain ⟨before, undone, rest⟩ := underway_cons.mp underway
      have after := rest.undisturbed [] List.nil_prefix
      rcases h.react stepping orderly before after with ⟨-, on⟩ | ⟨reason, top, ends, -⟩
      · exact ih on (orderly_react s i orderly) rest
      · exact absurd ends (undone reason top)

/-- What stopped threads do ends no session. -/
@[simp] theorem finished_react_serve (s : Session) (i : Nat) :
    (s.react (.serve i)).1.finished = s.finished := by
  rw [Session.react]
  cases served : s.serveAt i with
  | none => rfl
  | some s' => exact (sameRoll_serveAt served).finished

/-- Stepping stops exactly where it should. A stopped thread that is told to step is on its step,
with the control block that it was given, for as long as nothing disturbs it and no input ends the
step. The first input that does stops the thread, for the reason of its mode, at a line in the frame
of the line and at a return in the caller. -/
theorem step_stops_when_done (reachable : Reachable s) {i : Nat} {t : Thread} {top : FrameRef}
    (resumes : s.Resumes i t top state) (stepping : state.isStepping = true) {inputs : List Input}
    (underway : Underway (s.react (.serve i)).1 t.id state (s.program.depth top) inputs) :
    StopsWhenDone ((s.react (.serve i)).1.run inputs) t.id state (s.program.depth top) := by
  have orderly := orderly_react s (.serve i) reachable.orderly
  have lasting : s.finished = false := by
    rw [← finished_react_serve s i]
    exact (underway.undisturbed [] List.nil_prefix).lasting
  have on := (resumes.onStep reachable.orderly lasting).run stepping orderly underway
  have calm := underway.undisturbed inputs List.prefix_rfl
  refine ⟨on, ?_⟩
  intro input reason top' ends after
  rcases on.react stepping (run_invariant orderly_react orderly inputs) calm after with
    ⟨undone, -⟩ | ⟨reason', top'', ends', blocked, stopped⟩
  · exact absurd ends (undone reason top')
  · obtain ⟨rfl, rfl⟩ := ends.unique ends'
    exact ⟨blocked, stopped⟩

end

def recursive : Program :=
  { frames := #[{ id := 1, function := "walk", file := "/app/main.x", line := 3 },
      { id := 2, function := "walk", file := "/app/main.x", line := 4, caller := some 0 }] }

/-- A breakpoint has stopped the outer call, and the controller has told the thread to step over its
line. -/
def aboutToStepOver : Session :=
  (start {} recursive).run
    [.request 111 1 "7\tline\t/app/main.x\t3", .event mainThread .line 0, .request 108 3 "1"]

def stoppedAtBreakpoint : Thread where
  ref := mainThread
  control := .stopped (.breakpoint 7)
  inEngine := true
  suspension := some ⟨0, none⟩

/-- What happens before the thread is back in the outer call. -/
def innerCall : List Input :=
  [.event mainThread .line 1, .event mainThread .ret 1, .program (recursive.moveLine 0 5)]

/-- The line and the return of the inner call do not end the step: both are deeper than the frame
where it began. -/
theorem inner_call_is_stepped_over :
    aboutToStepOver.Resumes 0 stoppedAtBreakpoint 0 .stepOver ∧
      ControlState.stepOver.isStepping = true ∧
      Underway (aboutToStepOver.react (.serve 0)).1 mainThread.id .stepOver
        (aboutToStepOver.program.depth 0) innerCall ∧
      StopsWhenDone ((aboutToStepOver.react (.serve 0)).1.run innerCall) mainThread.id .stepOver
        (aboutToStepOver.program.depth 0) := by
  have resumes : aboutToStepOver.Resumes 0 stoppedAtBreakpoint 0 .stepOver :=
    ⟨by decide +kernel, ⟨none, rfl⟩, .thread "1", {}, by decide +kernel⟩
  have reachable : Reachable aboutToStepOver := ⟨{}, recursive, _, rfl⟩
  have calm (s : Session) (lasting : s.finished = false)
      (known : s.thread? mainThread.id =
        some { ref := mainThread, control := .resumed .stepOver 0 }) :
          Undisturbed s mainThread.id :=
    ⟨lasting, _, known, rfl, nofun⟩
  have underway : Underway (aboutToStepOver.react (.serve 0)).1 mainThread.id .stepOver
      (aboutToStepOver.program.depth 0) innerCall := by
    refine underway_cons.mpr ⟨calm _ (by decide +kernel) (by decide +kernel), ?_,
      underway_cons.mpr ⟨calm _ (by decide +kernel) (by decide +kernel), ?_,
        underway_cons.mpr ⟨calm _ (by decide +kernel) (by decide +kernel), nofun,
          underway_nil.mpr (calm _ (by decide +kernel) (by decide +kernel))⟩⟩⟩
    · rintro reason top ⟨-, -, done⟩
      cases done with
      | overLine inside => exact absurd inside (by decide +kernel)
    · rintro reason top ⟨-, -, done⟩
      cases done with
      | overEnd inside _ => exact absurd inside (by decide +kernel)
  exact ⟨resumes, rfl, underway, step_stops_when_done reachable resumes rfl underway⟩

end Session

end RemoteDebugger
