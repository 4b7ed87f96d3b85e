import RemoteDebugger.Proofs.Session.Registered
import RemoteDebugger.Proofs.Thread.Delivery

/-!
# The queue of a session

Whatever a session reacts to, its queue changes by operations of the queue only. What the operations
keep therefore holds of the queue in every state that a session reaches: the number kept beside it
is the number of waiting commands, and nothing waits after the end.
-/

namespace RemoteDebugger.Session

open CommandQueue

variable {s s' : Session}

theorem Serves.operated (h : Serves s s') : Operated s.queue [] s'.queue := by
  rw [h.queue]
  exact .untouched

/-- A look at an event takes all commands of the thread at once, if it takes any, and posts none. -/
theorem operated_lookAt (s : Session) (t : Thread) (kind : EventKind) (frame : FrameRef) :
    Operated s.queue [] (s.lookAt t kind frame).1.queue := by
  have relation : LookRelation (fun s s' => Operated s.queue [] s'.queue) t :=
    { refl := fun _ => .untouched
      trans := fun first second => first.trans second
      remark := fun looks _ => looks.serves.operated
      pending := fun s top => by
        rw [(s.runPending_serves t top).queue]
        exact .tookAll .untouched t.id
      memoize := fun s key generation => by
        obtain ⟨skips, memoized⟩ := s.memoize_eq key generation
        rw [memoized]
        exact .untouched
      suspend := fun s reason top exception => by
        obtain ⟨threads, outbox, suspended⟩ := s.suspend_eq t reason top exception
        rw [suspended]
        exact .untouched }
  exact relation.lookAt s kind frame

@[simp]
theorem queue_introduce (s : Session) (who : ThreadRef) : (s.introduce who).1.queue = s.queue := by
  obtain ⟨threads, outbox, introduced⟩ := s.introduce_eq who
  rw [introduced]

/-- An event posts no command. What it takes from the queue are the commands of its own thread. -/
theorem operated_event (s : Session) (who : ThreadRef) (kind : EventKind) (frame : FrameRef) :
    Operated s.queue [] (s.event who kind frame).1.queue := by
  rw [event]
  obtain ⟨-, ignored⟩ | passed | looked :=
    s.eventSkipping_cases s.breakpoints.skips.contains who kind frame
  · rw [ignored]
    exact .untouched
  · rw [passed, queue_introduce]
    exact .untouched
  · have later := operated_lookAt (s.introduce who).1 (s.introduce who).2 kind frame
    rw [queue_introduce] at later
    rwa [looked]

/-- A stopped thread takes one command, or leaves without one when the session has ended. -/
theorem operated_serve {t t' : Thread} (served : s.serve t = some (s', t')) :
    Operated s.queue [] s'.queue := by
  obtain ⟨x, -, ⟨-, left⟩ | ⟨-, c, q, s₁, flow, taken, executed, obeyed⟩⟩ := serve_eq_some served
  · have looks := s.leaveEvent_looks (t.resume .running 0) x
    rw [left] at looks
    exact looks.serves.operated
  · have serves := execute_serves { s with queue := q } t x.top true c.action
    have looks := s₁.obey_looks t x flow
    rw [executed] at serves
    rw [obeyed] at looks
    rw [(serves.trans looks.serves).queue]
    exact .took .untouched taken

/-- A step at a position is an operation of the queue, whoever stands there. -/
theorem operated_serveAt {i : Nat} (h : s.serveAt i = some s') : Operated s.queue [] s'.queue := by
  obtain ⟨t, s₁, t', served, ⟨-, rfl⟩ | ⟨-, departed, rfl⟩⟩ := serveAt_eq_some h
  · have step := operated_serve served
    exact step
  · have step := operated_serve served
    exact step

/-- The end of a session closes the queue, and no command is posted by it. -/
theorem operated_finish (s : Session) : Operated s.queue [] s.finish.queue := by
  rw [finish]
  split
  · exact .untouched
  · exact .closed .untouched

/-- The exit of a thread discards its commands and leaves the others in their order. -/
theorem operated_threadExited (s : Session) (id : String) :
    Operated s.queue [] (s.threadExited id).queue := by
  rw [threadExited]
  split
  · exact .untouched
  · dsimp only
    split
    · exact .discarded .untouched id
    · exact .discarded .untouched id

def posts (s : Session) : Input → List QueuedCommand
  | .request code seq payload =>
    (s.request code seq payload).queue.commands.drop s.queue.commands.length
  | _ => []

/-- The commands that are put into the queue along a run. -/
def posted (s : Session) : List Input → List QueuedCommand
  | [] => []
  | i :: inputs => s.posts i ++ (s.react i).1.posted inputs

/-- What a request adds to the queue is what stands in it beyond its former length, and it is
accepted by an open queue only. -/
theorem Granted.operated {code : Nat} {seq : Int} (granted : Granted s code seq s') :
    Operated s.queue (s'.queue.commands.drop s.queue.commands.length) s'.queue := by
  have unchanged {s' : Session} (same : s'.queue = s.queue) :
      Operated s.queue (s'.queue.commands.drop s.queue.commands.length) s'.queue := by
    rw [same, List.drop_length]
    exact .untouched
  have grown {cs : List QueuedCommand} (accepting : cs ≠ [] → s.queue.terminated = false) :
      Operated s.queue ((s.queue.postAll cs).commands.drop s.queue.commands.length)
        (s.queue.postAll cs) := by
    rw [postAll, List.drop_left]
    exact operated_postAll accepting
  cases granted with
  | answered | askedAll | asked | changed | switched => exact unchanged rfl
  | ready =>
      obtain ⟨lifecycle, same⟩ := s.markReady_eq
      rw [same]
      exact unchanged rfl
  | resumed cs accepting => exact grown accepting
  | posted c accepting => exact grown fun _ => accepting
  | finished =>
      rw [finish]
      split
      · exact unchanged rfl
      · show Operated s.queue (List.drop s.queue.commands.length []) s.queue.terminate
        rw [List.drop_nil]
        exact .closed .untouched

/-- A command that waits after a request has waited before, or tells a thread to go on, or answers
the request. -/
theorem Granted.waits {code : Nat} {seq : Int} (granted : Granted s code seq s') {c : QueuedCommand}
    (waits : c ∈ s'.queue.commands) :
    c ∈ s.queue.commands ∨ (∃ state, c.action = .resume state ∧ state ≠ .suspended) ∨
      c.action.seq? = some seq ∧ Wire.Command.promised code = c.action.answer? := by
  cases granted with
  | answered | askedAll | asked | changed | switched => exact .inl waits
  | ready =>
      obtain ⟨lifecycle, same⟩ := s.markReady_eq
      rw [same] at waits
      exact .inl waits
  | resumed cs accepting go =>
      obtain before | new := List.mem_append.mp waits
      · exact .inl before
      · exact .inr (.inl (go c new))
  | posted c' accepting numbered entitled =>
      obtain before | new := List.mem_append.mp waits
      · exact .inl before
      · obtain rfl := List.mem_singleton.mp new
        exact .inr (.inr ⟨numbered, entitled⟩)
  | finished =>
      rw [finish] at waits
      split at waits
      · exact .inl waits
      · cases waits

/-- Whatever a session reacts to, its queue changes by operations of the queue. -/
theorem operated_react (s : Session) (i : Input) :
    Operated s.queue (s.posts i) (s.react i).1.queue := by
  cases i with
  | request code seq payload =>
      rw [react, posts]
      obtain ⟨e, refused⟩ | ⟨-, granted⟩ := s.request_cases code seq payload
      · rw [refused]
        show Operated s.queue (s.queue.commands.drop s.queue.commands.length) s.queue
        rw [List.drop_length]
        exact .untouched
      · exact granted.operated
  | threadStarted who =>
      rw [react, threadStarted]
      split
      · exact .untouched
      · rw [queue_introduce]
        exact .untouched
  | threadExited id => exact operated_threadExited s id
  | event who kind frame => exact operated_event s who kind frame
  | serve i =>
      rw [react]
      cases served : s.serveAt i with
      | none => exact .untouched
      | some s' => exact operated_serveAt served
  | console text stream => exact (Looks.writeToConsole s text stream).serves.operated
  | finish => exact operated_finish s
  | program program => exact .untouched

/-- A run is a sequence of operations of the queue, and the commands posted along it are known. -/
theorem operated_run (s : Session) (inputs : List Input) :
    Operated s.queue (s.posted inputs) (s.run inputs).queue := by
  induction inputs generalizing s with
  | nil => exact .untouched
  | cons i inputs ih => exact (operated_react s i).trans (ih (s.react i).1)

theorem Reachable.sound (h : Reachable s) : s.queue.Sound := by
  obtain ⟨setup, program, inputs, rfl⟩ := h
  exact run_invariant (P := fun s => s.queue.Sound)
    (fun s i sound => sound.operated (operated_react s i)) sound_new inputs

/-- What holds of the commands that requests put into the queue holds of all that wait. -/
theorem Reachable.waiting {P : Action → Prop} (h : Reachable s)
    (goesOn : ∀ state, state ≠ .suspended → P (.resume state))
    (answers : ∀ code seq a, a.seq? = some seq → Wire.Command.promised code = a.answer? → P a) :
    ∀ c ∈ s.queue.commands, P c.action := by
  obtain ⟨setup, program, inputs, rfl⟩ := h
  refine run_invariant (P := fun s => ∀ c ∈ s.queue.commands, P c.action) ?_ ?_ inputs
  · intro s i before c waits
    obtain waited | new := List.mem_append.mp ((operated_react s i).sublist.subset waits)
    · exact before c waited
    · cases i with
      | request code seq payload =>
          obtain ⟨e, refused⟩ | ⟨-, granted⟩ := s.request_cases code seq payload
          · rw [posts, refused] at new
            exact before c (List.mem_of_mem_drop new)
          · obtain waited | ⟨state, resumes, awake⟩ | ⟨numbered, entitled⟩ :=
              granted.waits (List.mem_of_mem_drop new)
            · exact before c waited
            · rw [resumes]
              exact goesOn state awake
            · exact answers code seq c.action numbered entitled
      | threadStarted | threadExited | event | serve | console | finish | program => cases new
  · intro c waits
    cases waits

/-- The queue of a session is one that threads call, with the same commands accepted. -/
theorem queue_of_run (setup : Setup) (program : Program) (inputs : List Input) :
    ∃ calls, (Traffic.of calls).queue = ((start setup program).run inputs).queue ∧
      (Traffic.of calls).accepted = (start setup program).posted inputs :=
  (operated_run (start setup program) inputs).exists_calls

/-- A stopped thread does what it finds when it waits for a command. -/
theorem serve_eq_waitFor (s : Session) (t : Thread) {x : Suspension}
    (stopped : t.suspension = some x) :
    s.serve t =
      match s.queue.waitFor t.id with
      | (.command c, q) =>
        let (s, flow) := { s with queue := q }.execute t x.top true c.action
        some (s.obey t x flow)
      | (.terminated, _) => some (s.leaveEvent (t.resume .running 0) x)
      | (.nothing, _) => none := by
  rw [serve, stopped, CommandQueue.waitFor]
  cases s.queue.terminated with
  | true => rfl
  | false =>
      cases s.queue.takeOne t.id with
      | none => rfl
      | some taken => rfl

end RemoteDebugger.Session
