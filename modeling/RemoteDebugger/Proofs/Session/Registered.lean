import RemoteDebugger.Proofs.Session.Stopping

/-!
# Registered threads

A session knows its threads by their identifiers. Along every run no two registered threads share
one, and the queue is closed exactly when the session has ended. What one thread does in an event,
or serves while it is stopped, leaves the other threads as they are.
-/

namespace RemoteDebugger.Session

/-- No two registered threads share an identifier, and the queue is closed when the session has
ended. -/
structure Orderly (s : Session) : Prop where
  distinct : (s.threads.map Thread.id).Nodup
  closed : s.queue.terminated = s.finished

/-- The same threads are registered, and the session has ended in both or in neither. -/
structure SameRoll (s s' : Session) : Prop where
  ids : s'.threads.map Thread.id = s.threads.map Thread.id
  terminated : s'.queue.terminated = s.queue.terminated
  finished : s'.finished = s.finished

section

variable {s s' s'' : Session}

theorem SameRoll.refl (s : Session) : SameRoll s s := ⟨rfl, rfl, rfl⟩

theorem SameRoll.trans (first : SameRoll s s') (second : SameRoll s' s'') : SameRoll s s'' where
  ids := second.ids.trans first.ids
  terminated := second.terminated.trans first.terminated
  finished := second.finished.trans first.finished

theorem SameRoll.of_serves (h : Serves s s') : SameRoll s s' := by
  rw [h]
  exact ⟨rfl, rfl, rfl⟩

/-- Carrying out commands registers no thread and ends no session, although commands are taken out
of the queue. -/
theorem sameRoll_runPending (s : Session) (t : Thread) (top : FrameRef) :
    SameRoll s (s.runPending t top) := by
  have taken : SameRoll s { s with queue := (s.queue.takeFor t.id).2 } :=
    ⟨rfl, s.queue.terminated_takeFor t.id, rfl⟩
  exact taken.trans (.of_serves (s.runPending_serves t top))

theorem sameRoll_memoize (s : Session) (key : Option SkipKey) (generation : Nat) :
    SameRoll s (s.memoize key generation) := by
  obtain ⟨skips, memoized⟩ := s.memoize_eq key generation
  rw [memoized]
  exact ⟨rfl, rfl, rfl⟩

/-- A stop changes the thread in its place, under the identifier it had. -/
theorem sameRoll_suspend (s : Session) (t : Thread) (reason : StopReason) (top : FrameRef)
    (exception : Option RaisedException) : SameRoll s (s.suspend t reason top exception) := by
  obtain ⟨threads, outbox, suspended⟩ := s.suspend_eq t reason top exception
  refine ⟨(s.map_id_suspend t reason top exception).symm, ?_, ?_⟩
  · rw [suspended]
  · rw [suspended]

/-- An event that is looked at registers no thread. Its own thread has been introduced before. -/
theorem sameRoll_lookAt (s : Session) (t : Thread) (kind : EventKind) (frame : FrameRef) :
    SameRoll s (s.lookAt t kind frame).1 := by
  have relation : LookRelation SameRoll t :=
    { refl := SameRoll.refl
      trans := SameRoll.trans
      remark := fun looks _ => .of_serves looks.serves
      pending := fun s top => s.sameRoll_runPending t top
      memoize := sameRoll_memoize
      suspend := fun s => s.sameRoll_suspend t }
  exact relation.lookAt s kind frame

theorem orderly_start (setup : Setup) (program : Program) : Orderly (start setup program) :=
  ⟨List.nodup_nil, rfl⟩

/-- Order is about who is registered and whether the session has ended, and about nothing else. -/
theorem Orderly.of_sameRoll (h : Orderly s) (same : SameRoll s s') : Orderly s' where
  distinct := by
    rw [same.ids]
    exact h.distinct
  closed := by
    rw [same.terminated, same.finished]
    exact h.closed

/-- A thread is registered only if its identifier is free, so no two come to share one. -/
theorem Orderly.introduce (h : Orderly s) (who : ThreadRef) : Orderly (s.introduce who).1 := by
  refine ⟨s.nodup_introduce who h.distinct, ?_⟩
  obtain ⟨threads, outbox, introduced⟩ := s.introduce_eq who
  rw [introduced]
  exact h.closed

/-- A session that is told to finish has ended, also if it had ended before. -/
@[simp] theorem finished_finish (s : Session) : s.finish.finished = true := by
  rw [Session.finish]
  split
  · assumption
  · rfl

/-- The end of a session closes its queue, and keeps the threads registered. -/
theorem Orderly.finish (h : Orderly s) : Orderly s.finish := by
  rw [Session.finish]
  split
  · exact h
  · refine ⟨?_, rfl⟩
    show ((s.threads.map fun t => t.resume .running 0).map Thread.id).Nodup
    rw [List.map_map]
    exact h.distinct

/-- No request breaks the order. Commands are posted to a queue that is open, which stays open. -/
theorem Granted.orderly {code : Nat} {seq : Int} (granted : Granted s code seq s') (h : Orderly s) :
    Orderly s' := by
  cases granted with
  | answered | resumed | posted | changed | switched => exact ⟨h.distinct, h.closed⟩
  | ready =>
      obtain ⟨lifecycle, same⟩ := s.markReady_eq
      rw [same]
      exact ⟨h.distinct, h.closed⟩
  | askedAll =>
      refine ⟨?_, h.closed⟩
      show ((s.threads.map Thread.asked).map Thread.id).Nodup
      rw [List.map_map]
      exact h.distinct
  | asked t known => exact h.of_sameRoll ⟨s.map_id_putThread t.asked, rfl, rfl⟩
  | finished => exact h.finish

/-- A thread that exits is removed, and the identifiers of the others stay distinct. -/
theorem Orderly.threadExited (h : Orderly s) (id : String) : Orderly (s.threadExited id) := by
  cases ended : s.finished with
  | true =>
      rw [Session.threadExited, if_pos ended]
      exact h
  | false =>
      cases known : s.thread? id with
      | none =>
          rw [threadExited_of_unknown ended known]
          exact ⟨h.distinct, h.closed⟩
      | some t =>
          rw [threadExited_of_known ended known]
          exact ⟨h.distinct.sublist (List.filter_sublist.map _), h.closed⟩

theorem sameRoll_serve {t t' : Thread} (served : s.serve t = some (s', t')) : SameRoll s s' := by
  obtain ⟨x, -, ⟨-, left⟩ | ⟨-, c, q, s₁, flow, taken, executed, obeyed⟩⟩ := serve_eq_some served
  · have looks := s.leaveEvent_looks (t.resume .running 0) x
    rw [left] at looks
    exact .of_serves looks.serves
  · have serves := execute_serves { s with queue := q } t x.top true c.action
    have looks := s₁.obey_looks t x flow
    rw [executed] at serves
    rw [obeyed] at looks
    have without : SameRoll s { s with queue := q } :=
      ⟨rfl, CommandQueue.terminated_takeOne taken, rfl⟩
    exact without.trans (.of_serves (serves.trans looks.serves))

/-- A step at a position may remove a departed thread, which is not registered any more. -/
theorem sameRoll_serveAt {i : Nat} (h : s.serveAt i = some s') : SameRoll s s' := by
  obtain ⟨t, s₁, t', served, ⟨here, rfl⟩ | ⟨-, departed, rfl⟩⟩ := serveAt_eq_some h
  · have same := sameRoll_serve served
    exact ⟨map_set_of_eq here (serve_id served), same.terminated, same.finished⟩
  · have same := sameRoll_serve served
    exact ⟨same.ids, same.terminated, same.finished⟩

/-- An event may introduce its thread, and this is all it changes of the order. -/
theorem Orderly.event (h : Orderly s) (who : ThreadRef) (kind : EventKind) (frame : FrameRef) :
    Orderly (s.event who kind frame).1 := by
  rw [Session.event]
  rcases s.eventSkipping_cases s.breakpoints.skips.contains who kind frame with
    ⟨-, ignored⟩ | passed | looked
  · rwa [ignored]
  · rw [passed]
    exact h.introduce who
  · rw [looked]
    exact (h.introduce who).of_sameRoll (sameRoll_lookAt _ _ kind frame)

/-- Whatever a session reacts to, it stays in order. -/
theorem orderly_react (s : Session) (i : Input) (h : Orderly s) : Orderly (s.react i).1 := by
  cases i with
  | request code seq payload =>
      rw [react]
      rcases s.request_cases code seq payload with ⟨e, refused⟩ | ⟨-, granted⟩
      · rw [refused]
        exact ⟨h.distinct, h.closed⟩
      · exact granted.orderly h
  | threadStarted who =>
      rw [react, threadStarted]
      split
      · exact h
      · exact h.introduce who
  | threadExited id => exact h.threadExited id
  | event who kind frame => exact h.event who kind frame
  | serve i =>
      rw [react]
      cases served : s.serveAt i with
      | none => exact h
      | some s' => exact h.of_sameRoll (sameRoll_serveAt served)
  | console text stream =>
      exact h.of_sameRoll (.of_serves (Looks.writeToConsole s text stream).serves)
  | finish => exact h.finish
  | program program => exact ⟨h.distinct, h.closed⟩

theorem Reachable.orderly {s : Session} (h : Reachable s) : Orderly s := by
  obtain ⟨setup, program, inputs, rfl⟩ := h
  exact run_invariant orderly_react (orderly_start setup program) inputs

end

section

variable {s s' : Session} {id : String}

theorem Serves.thread? (h : Serves s s') (id : String) : s'.thread? id = s.thread? id := by
  rw [Session.thread?, h.threads, Session.thread?]

/-- The look at an event of one thread leaves the other threads as they are. -/
theorem thread?_lookAt_of_ne {t : Thread} (other : id ≠ t.id) (s : Session) (kind : EventKind)
    (frame : FrameRef) : (s.lookAt t kind frame).1.thread? id = s.thread? id := by
  have relation : LookRelation (fun s s' => s'.thread? id = s.thread? id) t :=
    { refl := fun _ => rfl
      trans := fun first second => second.trans first
      remark := fun looks _ => looks.serves.thread? id
      pending := fun s top => (s.runPending_serves t top).thread? id
      memoize := fun s key generation => by
        obtain ⟨skips, memoized⟩ := s.memoize_eq key generation
        rw [memoized]
        rfl
      suspend := fun s reason top exception => thread?_suspend_of_ne other }
  exact relation.lookAt s kind frame

/-- An event of one thread leaves the other threads as they are. -/
theorem thread?_event_of_ne (s : Session) {who : ThreadRef} (other : id ≠ who.id) (kind : EventKind)
    (frame : FrameRef) : (s.event who kind frame).1.thread? id = s.thread? id := by
  have introduced := s.thread?_introduce_of_ne other
  rw [event]
  rcases s.eventSkipping_cases s.breakpoints.skips.contains who kind frame with
    ⟨-, ignored⟩ | passed | looked
  · rw [ignored]
  · rw [passed, introduced]
  · rw [looked, thread?_lookAt_of_ne (s.introduce_id who ▸ other), introduced]

/-- What stopped threads do leaves a thread that is not stopped as it is. -/
theorem thread?_serveAt {i : Nat} (distinct : (s.threads.map Thread.id).Nodup)
    (awake : ∀ t, s.thread? id = some t → t.suspension = none) (h : s.serveAt i = some s') :
    s'.thread? id = s.thread? id := by
  obtain ⟨t, s₁, t', served, ⟨here, rfl⟩ | ⟨-, departed, rfl⟩⟩ := serveAt_eq_some h
  · obtain ⟨x, stopped, -⟩ := serve_eq_some served
    have other : t.id ≠ id := by
      rintro rfl
      rw [awake t (thread?_of_here distinct here)] at stopped
      cases stopped
    exact (find?_set distinct here (serve_id served) id).trans (if_neg other)
  · obtain ⟨q, serves⟩ := serve_serves served
    exact serves.thread? id

/-- A thread that has exited is not known any more, also if it is still stopped inside an event. -/
@[simp]
theorem thread?_threadExited_self {s : Session} (lasting : s.finished = false) (id : String) :
    (s.threadExited id).thread? id = none := by
  cases known : s.thread? id with
  | none =>
      rw [threadExited_of_unknown lasting known]
      exact known
  | some t =>
      rw [threadExited_of_known lasting known]
      exact (find?_exited s.threads id id).trans (if_pos rfl)

/-- The exit of one thread is nothing to the others. -/
@[simp] theorem thread?_threadExited_of_ne (s : Session) {id' : String} (other : id ≠ id') :
    (s.threadExited id').thread? id = s.thread? id := by
  rw [threadExited]
  split
  · rfl
  · dsimp only
    split
    · rfl
    · exact (find?_exited s.threads id' id).trans (if_neg other)

end

end RemoteDebugger.Session
