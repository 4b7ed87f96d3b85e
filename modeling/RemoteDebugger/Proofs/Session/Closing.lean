import RemoteDebugger.Proofs.Session.Serial

/-!
# Calls at the end of a session

The end of a session is made of several steps, and neither the calls that are under way nor the
controller wait for it. `Orderly` says what holds between any two steps, however they fall: how far
the end has come tells what has been closed, and a suspended thread has a call that is inside its
stop. When the last step of the end has been taken, nothing takes it back. No call does anything
from then on unless it is under way already, and each of these can run to its end by itself.

What such a call may still do is to send the notifications that it has begun to send: it does not
look at the session between what it decides and what it says of it. `Stage.mayNotify` tells these
calls apart, and there never come new ones.
-/

namespace RemoteDebugger

namespace Wire.Message

/-- The message is an answer to a request. Notifications have even numbers, and none is an error. -/
def IsAnswer (m : Message) : Prop := m.seq % 2 = 1 ∨ m.command = .error

end Wire.Message

namespace Ending

/-- The queue has been closed. -/
def hasTerminated : Ending → Bool
  | lasting | begun => false
  | _ => true

/-- The host is told not to run the program. -/
def hasSettled : Ending → Bool
  | settled | waking _ | closed => true
  | _ => false

end Ending

namespace Stage

/-- The context that a call keeps suspended. -/
def holds? : Stage → Option Nat
  | raising key _ | telling key _ _ | waiting key _ | obeying key _ _ | resuming key _ _
  | jumping key _ | halting key _ | waking key _ => some key
  | _ => none

/-- A call does not make a thread stay suspended that it lets go on. -/
def Proper : Stage → Prop
  | obeying _ _ a => a ≠ .resume .suspended
  | resuming _ _ state => state ≠ .suspended
  | _ => True

/-- A call that is at this stage when the session ends may still send a notification. The others
ask first whether the session has ended, or have nothing to say. -/
def mayNotify : Stage → Bool
  | waiting .. | waking .. | released .. | leaving .. | returning _ => false
  | obeying _ _ (.resume _) | obeying _ _ (.setNextStatement ..) => true
  | obeying .. => false
  | _ => true

/-- How many steps a call still needs, at most, when the session has ended. -/
@[simp] def work : Stage → Nat
  | returning _ => 0
  | leaving .. | parting => 1
  | released .. | proceeding _ | removing => 2
  | waking .. | going .. | exiting => 3
  | waiting .. | resuming .. => 4
  | telling .. => 5
  | raising .. | halting .. => 6
  | stopping .. | jumping .. => 7
  | deciding _ | obeying .. => 8
  | looking _ => 9
  | entering _ => 10
  | announcing .. => 11
  | arriving _ => 12

theorem proper_found (isEvent : Bool) (key : Nat) : (found isEvent key).Proper := by
  cases isEvent <;> trivial

theorem proper_stopped (key : Nat) (reason : StopReason) : (stopped key reason).Proper := by
  cases reason <;> trivial

@[simp] theorem holds?_stopped (key : Nat) (reason : StopReason) :
    (stopped key reason).holds? = some key := by
  cases reason <;> rfl

theorem mayNotify_of_word {st st' : Stage} {n : Notice} (word : st.word? = some (n, st')) :
    st.mayNotify = true := by
  cases st with
  | announcing | raising | telling | going | jumping | proceeding | parting => rfl
  | _ => cases word

theorem mayNotify_of_mayRemark {st : Stage} (may : st.mayRemark = true) :
    st.mayNotify = true := by
  cases st with
  | looking | deciding => rfl
  | _ => cases may

/-- A call that has found the end of the session, or is past its last word, stays so. -/
theorem Winds.mayNotify {st st' : Stage} {words : List Notice} (h : st.Winds words st')
    (may : st'.mayNotify = true) : st.mayNotify = true := by
  cases h with
  | say word => exact mayNotify_of_word word
  | set sets =>
      cases sets with
      | enter | stop | resume | halt => rfl
      | wake | leave => cases may
  | find | introduce | busy | dismiss | decline | choose | resume | jump | discard | unknown
  | remove => rfl
  | terminated | stay | leave => cases may

/-- A call that stops its thread holds it, and a thread that no call holds is not stopped by what a
call writes. -/
theorem Sets.holds {st st' : Stage} {key : Nat} {x x' : Context} (sets : Sets st key x x' st')
    (proper : st.Proper) (suspended : x'.control.state = .suspended) :
    st'.holds? = some key ∨ x.control.state = .suspended ∧ st.holds? = none := by
  cases sets with
  | stop => exact .inl (holds?_stopped key _)
  | halt => exact .inl rfl
  | enter | leave => exact .inr ⟨suspended, rfl⟩
  | resume depth => exact absurd suspended proper
  | wake => cases suspended

/-- A call writes into the context that it holds, if it holds one. -/
theorem Sets.holds_key {st st' : Stage} {key other : Nat} {x x' : Context}
    (sets : Sets st key x x' st') (holds : st.holds? = some other) : other = key := by
  cases sets with
  | resume | halt | wake => exact (Option.some.inj holds).symm
  | enter | stop | leave => cases holds

end Stage

namespace Activity

def holds? : Activity → Option Nat
  | calling _ st => st.holds?
  | _ => none

def mayNotify : Activity → Bool
  | idle _ => false
  | calling _ st => st.mayNotify
  | printing => true

end Activity

namespace SharedSession

variable {ι : Type}

/-- Every suspended context is held by a call. So none stays suspended once all calls have
returned. -/
def Held (c : SharedSession ι) : Prop :=
  ∀ key, (c.contexts key).control.state = .suspended → ∃ i, (c.activity i).holds? = some key

/-- What holds between any two steps. -/
structure Orderly (c : SharedSession ι) : Prop where
  queue : c.queue.Sound
  terminated : c.ending.hasTerminated = true → c.queue.terminated = true
  settled : c.ending.hasSettled = true → c.lifecycle = .finished
  closes : c.outbox.entries.count .close = if c.ending = .closed then 1 else 0
  /-- No command tells a thread to stay suspended. -/
  posted : ∀ k ∈ c.queue.commands, k.action ≠ .resume .suspended
  proper {i : ι} {id : String} {st : Stage} (held : c.activity i = .calling id st) : st.Proper
  held : Held c

/-- A shared session that nobody has called is in order. -/
theorem orderly_start : Orderly ({} : SharedSession ι) where
  queue := CommandQueue.sound_new
  terminated := nofun
  settled := nofun
  closes := rfl
  posted := nofun
  proper := nofun
  held := nofun

section

variable {c c' : SharedSession ι}

/-- The queue may change as long as it counts rightly, stays closed once it is, and no command tells
a thread to stay suspended. -/
theorem Orderly.queued (h : Orderly c) {q : CommandQueue} (sound : q.Sound)
    (closed : c.queue.terminated = true → q.terminated = true)
    (posted : ∀ k ∈ q.commands, k.action ≠ .resume .suspended) :
    Orderly { c with queue := q } where
  queue := sound
  terminated now := closed (h.terminated now)
  settled := h.settled
  closes := h.closes
  posted := posted
  proper := h.proper
  held := h.held

/-- Whatever is sent keeps the order. Only the end of the stream is counted. -/
theorem Orderly.sent (h : Orderly c) {o : Wire.Outbox}
    (closes : o.entries.count .close = c.outbox.entries.count .close) :
    Orderly { c with outbox := o } where
  queue := h.queue
  terminated := h.terminated
  settled := h.settled
  closes := closes.trans h.closes
  posted := h.posted
  proper := h.proper
  held := h.held

/-- When the connection has been closed, so has the queue. Between the two lie several steps. -/
theorem Orderly.isTerminated (h : Orderly c) (closed : c.ending = .closed) :
    c.queue.terminated = true := by
  apply h.terminated
  rw [closed]
  rfl

@[simp] theorem count_close_notify (o : Wire.Outbox) (command : Wire.Command) (payload : String) :
    (o.notify command payload).entries.count .close = o.entries.count .close := by
  simp [Wire.Outbox.notify]

@[simp] theorem count_close_respond (o : Wire.Outbox) (command : Wire.Command) (seq : Int)
    (payload : String) :
    (o.respond command seq payload).entries.count .close = o.entries.count .close := by
  simp [Wire.Outbox.respond]

theorem Orderly.notify (h : Orderly c) (command : Wire.Command) (payload : String) :
    Orderly (c.notify command payload) := h.sent (count_close_notify ..)

/-- A context that is told to run is not suspended. -/
theorem suspended_of_update {key other : Nat} {x : Context} (awake : x.control.state ≠ .suspended)
    (suspended : (Function.update c.contexts key x other).control.state = .suspended) :
    (c.contexts other).control.state = .suspended := by
  by_cases mine : other = key
  · subst mine
    rw [Function.update_self] at suspended
    exact absurd suspended awake
  · rwa [Function.update_of_ne mine] at suspended

/-- A new context runs, so nobody has to hold it. -/
theorem Orderly.introduce (h : Orderly c) (id : String) : Orderly (c.introduce id) where
  queue := h.queue
  terminated := h.terminated
  settled := h.settled
  closes := h.closes
  posted := h.posted
  proper := h.proper
  held key suspended := h.held key (suspended_of_update (by decide) suspended)

/-- Forgetting a context takes it from no call that holds it. -/
theorem Orderly.remove (h : Orderly c) (id : String) : Orderly (c.remove id) where
  queue := h.queue
  terminated := h.terminated
  settled := h.settled
  closes := h.closes
  posted := h.posted
  proper := h.proper
  held := h.held

variable [DecidableEq ι]

/-- A thread goes on to do something else, and holds what it has held. -/
theorem Orderly.doing (h : Orderly c) {i : ι} {a a' : Activity} (held : c.activity i = a)
    (keeps : ∀ key, a.holds? = some key → a'.holds? = some key)
    (proper : ∀ id st, a' = .calling id st → st.Proper) : Orderly (c.doing i a') where
  queue := h.queue
  terminated := h.terminated
  settled := h.settled
  closes := h.closes
  posted := h.posted
  proper now := by
    rcases calling_of_update now with ⟨-, same⟩ | ⟨-, before⟩
    · exact proper _ _ same
    · exact h.proper before
  held key suspended := by
    obtain ⟨j, holds⟩ := h.held key suspended
    refine ⟨j, ?_⟩
    by_cases mine : j = i
    · subst mine
      rw [activity_doing, Function.update_self]
      rw [held] at holds
      exact keeps key holds
    · rwa [activity_doing, Function.update_of_ne mine]

/-- A call goes on to another stage, and holds what it has held. -/
theorem Orderly.move (h : Orderly c) {i : ι} {id : String} {st st' : Stage}
    (held : c.activity i = .calling id st)
    (keeps : ∀ key, st.holds? = some key → st'.holds? = some key) (proper : st'.Proper) :
    Orderly (c.doing i (.calling id st')) := by
  refine h.doing held keeps fun who st₁ same => ?_
  cases same
  exact proper

/-- A call that goes on in silence keeps the order: it holds what it has held, and a command to go
on has been checked when it was posted. -/
theorem Orderly.goes (h : Orderly c) {i : ι} {id : String} {st st' : Stage}
    (held : c.activity i = .calling id st) (goes : Goes c id st st') :
    Orderly (c.doing i (.calling id st')) := by
  have proper := h.proper held
  cases goes with
  | find => exact h.move held nofun (Stage.proper_found _ _)
  | resume =>
      exact h.move held (fun _ holds => holds) fun same => proper (congrArg Action.resume same)
  | terminated | stay | jump => exact h.move held (fun _ holds => holds) trivial
  | busy | dismiss | pass | decline | choose | plain | proceed | forgo | unknown =>
      exact h.move held nofun trivial

/-- A call that says a word keeps the order, and holds its context until the stop is over. -/
theorem Orderly.say (h : Orderly c) {i : ι} {id : String} {st st' : Stage} {n : Notice}
    (held : c.activity i = .calling id st) (word : st.word? = some (n, st')) :
    Orderly (c.doing i (.calling id st')) := by
  cases st with
  | announcing isEvent key =>
      cases word
      exact h.move held nofun (Stage.proper_found isEvent key)
  | raising | telling | jumping =>
      cases word
      exact h.move held (fun _ holds => holds) trivial
  | going | proceeding | parting =>
      cases word
      exact h.move held nofun trivial
  | _ => cases word

/-- A call that writes into a context keeps the order: a context that comes to be suspended is held
by this very call. -/
theorem Orderly.set (h : Orderly c) {i : ι} {id : String} {st st' : Stage} {key : Nat} {x : Context}
    (held : c.activity i = .calling id st) (sets : st.Sets key (c.contexts key) x st') :
    Orderly ((c.set key x).doing i (.calling id st')) where
  queue := h.queue
  terminated := h.terminated
  settled := h.settled
  closes := h.closes
  posted := h.posted
  proper now := by
    rcases calling_of_update now with ⟨-, same⟩ | ⟨-, before⟩
    · cases same
      cases sets with
      | stop => exact Stage.proper_stopped _ _
      | _ => trivial
    · exact h.proper before
  held other suspended := by
    have kept {j : ι} (holds : (c.activity j).holds? = some other) (apart : j ≠ i) :
        ∃ j, (((c.set key x).doing i (.calling id st')).activity j).holds? = some other :=
      ⟨j, by rwa [activity_doing, Function.update_of_ne apart]⟩
    have mine (holds : st'.holds? = some other) :
        ∃ j, (((c.set key x).doing i (.calling id st')).activity j).holds? = some other :=
      ⟨i, by rw [activity_doing, Function.update_self]; exact holds⟩
    by_cases same : other = key
    · subst same
      rw [contexts_doing, contexts_set, Function.update_self] at suspended
      rcases sets.holds (h.proper held) suspended with holds | ⟨before, free⟩
      · exact mine holds
      · obtain ⟨j, holds⟩ := h.held other before
        refine kept holds ?_
        rintro rfl
        rw [held] at holds
        cases free.symm.trans holds
    · rw [contexts_doing, contexts_set, Function.update_of_ne same] at suspended
      obtain ⟨j, holds⟩ := h.held other suspended
      refine kept holds ?_
      rintro rfl
      rw [held] at holds
      exact same (sets.holds_key holds)

variable {host : SharedSession ι → Report → Prop}

/-- Every step keeps the order, whatever the host reports. -/
theorem Orderly.step (h : Orderly c) (step : Step host c c') : Orderly c' := by
  cases step with
  | call i held r =>
      refine h.doing held nofun fun id st same => ?_
      split at same
      · cases same
      · cases r <;> cases same <;> trivial
  | go i held goes => exact h.goes held goes
  | introduce i held missing =>
      exact (h.introduce _).move held nofun trivial
  | say i held word => exact (h.notify ..).say held word
  | set i held sets => exact h.set held sets
  | remark => exact h.notify ..
  | take i held =>
      refine h.queued (h.queue.tookAll _) (fun closed => ?_) fun k left => ?_
      · rwa [CommandQueue.terminated_takeFor]
      · exact h.posted k (CommandQueue.mem_takeFor (.inr left))
  | obey i held found =>
      obtain ⟨-, taken⟩ := CommandQueue.waitFor_eq_command found
      refine (h.queued (h.queue.took taken) (fun closed => ?_) fun k left => ?_).move held
        (fun _ holds => holds) (h.posted _ (CommandQueue.mem_takeOne taken))
      · rwa [CommandQueue.terminated_takeOne taken]
      · exact h.posted k ((CommandQueue.sublist_takeOne taken).mem left)
  | discard i held =>
      refine (h.queued (h.queue.discarded _) (fun closed => closed) fun k left => ?_).move held
        nofun trivial
      exact h.posted k (List.mem_filter.mp left).1
  | remove i held known =>
      exact (h.remove _).move held nofun trivial
  | print i held payload =>
      exact (h.notify _ _).doing held nofun fun _ _ => Activity.noConfusion
  | back i held => exact h.doing held nofun fun _ _ => Activity.noConfusion
  | answer command payload => exact h.sent (count_close_respond ..)
  | post k accepted awake =>
      refine h.queued (h.queue.posted accepted) ?_ ?_
      · obtain ⟨-, rfl⟩ := CommandQueue.post_eq_ok accepted
        exact fun closed => closed
      · obtain ⟨-, rfl⟩ := CommandQueue.post_eq_ok accepted
        exact List.forall_mem_append.mpr ⟨h.posted, List.forall_mem_singleton.mpr awake⟩
  | ready =>
      refine { h with settled := fun settled => ?_ }
      rw [h.settled settled]
      rfl
  | finish first =>
      have closes := h.closes
      rw [first] at closes
      exact { h with terminated := nofun, settled := nofun, closes := closes }
  | terminate now =>
      have closes := h.closes
      rw [now] at closes
      exact { h with
        queue := h.queue.closed, terminated := fun _ => rfl, settled := nofun, closes := closes
        posted := nofun }
  | settle now =>
      have terminated := h.terminated
      have closes := h.closes
      rw [now] at terminated closes
      exact { h with terminated := terminated, settled := fun _ => rfl, closes := closes }
  | gather now =>
      have terminated := h.terminated
      have settled := h.settled
      have closes := h.closes
      rw [now] at terminated settled closes
      exact { h with terminated := terminated, settled := settled, closes := closes }
  | wake now =>
      have terminated := h.terminated
      have settled := h.settled
      have closes := h.closes
      rw [now] at terminated settled closes
      exact { h with
        terminated := terminated, settled := settled, closes := closes
        held := fun other suspended =>
          h.held other (suspended_of_update (c := c) ControlState.noConfusion suspended) }
  | close now =>
      have terminated := h.terminated
      have settled := h.settled
      have closes := h.closes
      rw [now] at terminated settled closes
      refine { h with terminated := terminated, settled := settled, closes := ?_ }
      show (c.outbox.entries ++ [Wire.Outgoing.close]).count .close = 1
      rw [List.count_append, closes]
      rfl

theorem Steps.orderly (h : Steps host {} c) : Orderly c := by
  induction h with
  | refl => exact orderly_start
  | tail _ step ih => exact ih.step step

/-- The end of a session is not taken back. -/
theorem Step.closed (h : Step host c c') (closed : c.ending = .closed) : c'.ending = .closed := by
  cases h with
  | finish now | terminate now | settle now | gather now | wake now | close now =>
      cases closed.symm.trans now
  | _ => exact closed

/-- A queue that has been closed stays closed. -/
theorem Steps.terminated (h : Steps host c c') (closed : c.queue.terminated = true) :
    c'.queue.terminated = true := by
  induction h with
  | refl => exact closed
  | tail _ step ih => exact step.terminated ih

theorem Steps.closed (h : Steps host c c') (closed : c.ending = .closed) : c'.ending = .closed := by
  induction h with
  | refl => exact closed
  | tail _ step ih => exact step.closed ih

/-- A call that can still notify after a step could do so before. -/
theorem Step.mayNotify (h : Step host c c') (ended : c.finished = true)
    (terminated : c.queue.terminated = true) {i : ι}
    (may : (c'.activity i).mayNotify = true) : (c.activity i).mayNotify = true := by
  cases h.winding ended terminated with
  | quiet _ same =>
      rcases same i with before | ⟨answer, idle⟩
      · rwa [before] at may
      · rw [idle] at may
        cases may
  | call j id held winds activity =>
      rw [activity] at may
      by_cases mine : i = j
      · subst mine
        rw [Function.update_self] at may
        rw [held]
        exact winds.mayNotify may
      · rwa [Function.update_of_ne mine] at may

/-- What a step sends after the end: nothing, an answer, or a notification of a call that may still
send one. -/
inductive Sends (c c' : SharedSession ι) : Prop
  | nothing (same : c'.outbox.entries = c.outbox.entries)
  | answer (m : Wire.Message) (answers : m.IsAnswer)
      (sent : c'.outbox.entries = c.outbox.entries ++ [.message m])
  | notification (i : ι) (may : (c.activity i).mayNotify = true)
      (others : ∀ j, j ≠ i → c'.activity j = c.activity j) (m : Wire.Message)
      (sent : c'.outbox.entries = c.outbox.entries ++ [.message m])

/-- Once the connection has been closed, a step sends an answer, or a notification of a call that
was under way, or nothing. -/
theorem Step.sends (h : Step host c c') (closed : c.ending = .closed) : Sends c c' := by
  have others (c : SharedSession ι) (i : ι) (a : Activity) (j : ι) (other : j ≠ i) :
      (c.doing i a).activity j = c.activity j := by
    rw [activity_doing, Function.update_of_ne other]
  cases h with
  | say i held word =>
      refine .notification i ?_ (others _ i _) _ rfl
      rw [held]
      exact Stage.mayNotify_of_word word
  | remark i held may =>
      refine .notification i ?_ (fun _ _ => rfl) _ rfl
      rw [held]
      exact Stage.mayNotify_of_mayRemark may
  | print i held =>
      refine .notification i ?_ (others _ i _) _ rfl
      rw [held]
      rfl
  | answer command payload numbered => exact .answer ⟨command, _, payload⟩ numbered rfl
  | close now => cases closed.symm.trans now
  | _ => exact .nothing rfl

/-- Steps after the end add messages to the outbox, and a call that can still notify then could do
so before. -/
theorem Steps.sends (h : Steps host c c') (orderly : Orderly c) (closed : c.ending = .closed) :
    (∀ i, (c'.activity i).mayNotify = true → (c.activity i).mayNotify = true) ∧
    ∃ ms : List Wire.Message, c'.outbox.entries = c.outbox.entries ++ ms.map .message ∧
      ∀ m ∈ ms, m.IsAnswer ∨ ∃ i, (c.activity i).mayNotify = true := by
  induction h with
  | refl => exact ⟨fun _ may => may, [], (List.append_nil _).symm, nofun⟩
  | tail steps step ih =>
      rename_i c₁ c₂
      obtain ⟨shrinks, ms, grown, sent⟩ := ih
      have closed₁ : c₁.ending = .closed := Steps.closed steps closed
      have ended : c₁.finished = true := finished_of_ending closed₁ (by simp)
      have terminated : c₁.queue.terminated = true :=
        Steps.terminated steps (orderly.isTerminated closed)
      refine ⟨fun i may => shrinks i (step.mayNotify ended terminated may), ?_⟩
      have more (m : Wire.Message) (new : c₂.outbox.entries = c₁.outbox.entries ++ [.message m])
          (why : m.IsAnswer ∨ ∃ i, (c.activity i).mayNotify = true) :
          ∃ ms : List Wire.Message, c₂.outbox.entries = c.outbox.entries ++ ms.map .message ∧
            ∀ m ∈ ms, m.IsAnswer ∨ ∃ i, (c.activity i).mayNotify = true := by
        refine ⟨ms ++ [m], ?_, List.forall_mem_append.mpr ⟨sent, ?_⟩⟩
        · rw [new, grown, List.append_assoc, List.map_append]
          rfl
        · exact List.forall_mem_singleton.mpr why
      cases step.sends closed₁ with
      | nothing same => exact ⟨ms, same.trans grown, sent⟩
      | answer m answers new => exact more m new (.inl answers)
      | notification i may _ m new => exact more m new (.inr ⟨i, shrinks i may⟩)

/-- A call can take a step towards its end, without help of others. -/
def Advances (host : SharedSession ι → Report → Prop) (c : SharedSession ι) (i : ι) (id : String)
    (st : Stage) : Prop :=
  ∃ c', Step host c c' ∧ ((∃ answer, c'.activity = Function.update c.activity i (.idle answer)) ∨
    ∃ st', st'.work < st.work ∧ c'.activity = Function.update c.activity i (.calling id st'))

section

variable {i : ι} {id : String} {st st' : Stage}

theorem advances_go (held : c.activity i = .calling id st) (goes : Goes c id st st')
    (less : st'.work < st.work) : Advances host c i id st :=
  ⟨_, .go i held goes, .inr ⟨st', less, rfl⟩⟩

theorem advances_set (held : c.activity i = .calling id st) {key : Nat} {x : Context}
    (sets : st.Sets key (c.contexts key) x st') (less : st'.work < st.work) :
    Advances host c i id st :=
  ⟨_, .set i held sets, .inr ⟨st', less, rfl⟩⟩

/-- A call with a word to say can say it, whatever the others do, and then has less left to do. -/
theorem advances_say (held : c.activity i = .calling id st) {n : Notice}
    (word : st.word? = some (n, st')) {command : Wire.Command} {payload : String}
    (reads : Notice.read? command payload = some (id, n)) (less : st'.work < st.work) :
    Advances host c i id st :=
  ⟨_, .say i held word reads, .inr ⟨st', less, rfl⟩⟩

/-- After the end, every call can advance: whatever it asks for, an answer is there. -/
theorem advances (held : c.activity i = .calling id st) (ended : c.finished = true)
    (terminated : c.queue.terminated = true) : Advances host c i id st := by
  have found (isEvent : Bool) (key : Nat) : (Stage.found isEvent key).work ≤ 10 := by
    cases isEvent <;> simp [Stage.found]
  cases st with
  | arriving isEvent =>
      cases known : c.key? id with
      | none => exact ⟨_, .introduce i held known, .inr ⟨_, by simp, rfl⟩⟩
      | some key => exact advances_go held (.find known) (Nat.lt_of_le_of_lt (found _ _) (by simp))
  | announcing isEvent key =>
      exact advances_say held rfl (Notice.read?_threadCreated ⟨id, ""⟩)
        (Nat.lt_of_le_of_lt (found _ _) (by simp))
  | entering key =>
      cases inside : (c.contexts key).inEngine with
      | true => exact advances_go held (.busy inside) (by simp)
      | false => exact advances_set held (.enter inside) (by simp)
  | looking key => exact advances_go held .dismiss (by simp)
  | deciding key => exact advances_go held (.decline false) (by simp)
  | stopping key reason =>
      refine advances_set held .stop ?_
      cases reason <;> simp [Stage.stopped, StopReason.isException]
  | raising key reason =>
      have raised := Notice.read?_exception (.ofMappings []) {} ⟨id, ""⟩ reason 0 "" "" ""
      exact advances_say held rfl raised (by simp)
  | telling key reason exceptional =>
      have suspended := Notice.read?_suspendedThread (.ofMappings []) {} ⟨id, ""⟩ reason 0
      exact advances_say held rfl suspended (by simp)
  | waiting key exceptional => exact advances_go held (.terminated terminated) (by simp)
  | obeying key exceptional a =>
      cases a with
      | resume state => exact advances_go held .resume (by simp)
      | setNextStatement seq line => exact advances_go held .jump (by simp)
      | _ => exact advances_go held (.stay fun _ => Action.noConfusion) (by simp)
  | resuming key exceptional state => exact advances_set held (.resume 0) (by simp)
  | going key exceptional | jumping key exceptional =>
      exact advances_say held rfl (Notice.read?_run id "") (by simp)
  | halting key exceptional => exact advances_set held .halt (by simp)
  | waking key exceptional => exact advances_set held .wake (by simp)
  | released key exceptional =>
      cases exceptional with
      | true => exact advances_go held (.forgo ended) (by simp)
      | false => exact advances_go held .plain (by simp)
  | proceeding key =>
      have reads : Notice.read? .sendExceptionTraceProceeded id = some (id, .proceeded) := rfl
      exact advances_say held rfl reads (by simp)
  | leaving key answer => exact advances_set held .leave (by simp)
  | exiting => exact ⟨_, .discard i held, .inr ⟨_, by simp, rfl⟩⟩
  | removing =>
      cases known : c.key? id with
      | none => exact advances_go held (.unknown known) (by simp)
      | some key => exact ⟨_, .remove i held known, .inr ⟨_, by simp, rfl⟩⟩
  | parting =>
      have reads : Notice.read? .threadKill id = some (id, .killed) := rfl
      exact advances_say held rfl reads (by simp)
  | returning answer => exact ⟨_, .back i held, .inl ⟨answer, rfl⟩⟩

end

/-- A session that has ended has ended for good: what holds after any further steps. -/
structure Terminated (host : SharedSession ι → Report → Prop) (c c' : SharedSession ι) : Prop where
  finished : c'.finished = true
  /-- The host is told not to run the program. -/
  answer : c'.lifecycle.mayRun? = some false
  /-- A thread is suspended at most as long as a call is inside its stop. -/
  awake : ∀ key, (c'.contexts key).control.state = .suspended →
    ∃ i, (c'.activity i).holds? = some key
  /-- Each call that is under way can run to its end by itself, so no thread stays suspended. -/
  leaves : ∀ i, ∃ c'' answer, Steps host c' c'' ∧
    c''.activity = Function.update c'.activity i (.idle answer)
  empty : c'.queue.commands = [] ∧ c'.queue.pending = 0
  refuses : ∀ k, c'.queue.post k = .error .sessionTerminated
  /-- A call that begins now has no effect, and for an event the answer is no. -/
  calls : ∀ i r, c'.call i r = c'.doing i (.idle false)
  /-- The connection has been closed once. -/
  closed : c'.outbox.entries.count .close = 1
  /-- What has been sent since are answers, unless a call was under way that might still notify. -/
  sent : ∃ ms : List Wire.Message, c'.outbox.entries = c.outbox.entries ++ ms.map .message ∧
    ∀ m ∈ ms, m.IsAnswer ∨ ∃ i, (c.activity i).mayNotify = true
  /-- No other call may notify later, and no step notifies but those of such a call. -/
  notifies : (∀ i, (c'.activity i).mayNotify = true → (c.activity i).mayNotify = true) ∧
    ∀ c'', Step host c' c'' → Sends c' c''

end

end SharedSession

end RemoteDebugger
