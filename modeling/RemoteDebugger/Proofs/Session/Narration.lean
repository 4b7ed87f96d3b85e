import RemoteDebugger.Proofs.Session.Serial
import RemoteDebugger.Proofs.Session.Story

/-!
# Calls tell the stories of their threads

The calls about a thread send the notifications about it one at a time, and any other calls and
requests come between them. `Stage.Fits` says which phase the story of the thread is in when a call
about it is at a stage. If the host begins no call about a thread while another one is under way,
every step keeps this, so the story of every thread goes by the rules of `Story`.

The end of a session does not interrupt the calls that are under way. One that has taken a command,
or has looked at the session just before, still tells what comes of it; `Stage.farewell` is the most
that it can tell. Calls that begin later tell nothing.
-/

namespace RemoteDebugger

/-- The phase of a thread that no call is about. -/
def Phase.rest (known : Bool) : Phase := if known then running else absent

theorem StopReason.command_mem_exceptionReasons (reason : StopReason) :
    reason.command ∈ exceptionReasons ↔ reason.isException = true := by
  cases reason <;> simp [exceptionReasons, command, isException]

theorem StopReason.command_ne_setNextStatement {reason : StopReason}
    (h : reason ≠ .setNextStatement) : reason.command ≠ .setNextStatement := by
  cases reason <;> simp_all [command]

namespace Stage

/-- The phase of the story of a thread while a call about the thread is at a stage. A call that has
found the end of the session leaves the story where it is. -/
def Fits (known ended : Bool) : Stage → Phase → Prop
  | arriving _, p | exiting, p | removing, p => p = .rest known
  | announcing .., p => known = true ∧ p = .absent
  | entering _, p | looking _, p | deciding _, p => known = true ∧ p = .running
  | stopping _ reason, p => known = true ∧ p = .running ∧ reason ≠ .setNextStatement
  | raising _ reason, p => known = true ∧ p = .running ∧ reason.isException = true
  | telling _ reason exceptional, p =>
    known = true ∧ p.Tells (.suspended reason.command) (.stopped exceptional)
  | waiting _ exceptional, p | obeying _ exceptional _, p | resuming _ exceptional _, p
  | going _ exceptional, p | jumping _ exceptional, p => known = true ∧ p = .stopped exceptional
  | halting _ exceptional, p => known = true ∧ p = .jumping exceptional
  | waking .., _ => ended = true
  | released _ exceptional, p =>
    ended = true ∨ known = true ∧ p = if exceptional then .leaving else .running
  | proceeding _, p => known = true ∧ p = .leaving
  | leaving .., p | returning _, p => ended = true ∨ p = .rest known
  | parting, p => known = false ∧ p = .running

/-- What a call can still tell of its thread at most when the queue has been closed. One that has
yet to decide may do so for any reason. -/
def farewell (reason : StopReason) : Stage → List Notice
  | arriving _ | announcing .. => [.created]
  | deciding _ =>
    if reason.isException then [.raised, .suspended reason.command]
    else [.suspended reason.command]
  | stopping _ reason =>
    if reason.isException then [.raised, .suspended reason.command]
    else [.suspended reason.command]
  | raising _ reason => [.raised, .suspended reason.command]
  | telling _ reason _ => [.suspended reason.command]
  | obeying _ _ (.resume _) | resuming .. | going .. => [.ran]
  | obeying _ _ (.setNextStatement ..) | jumping .. => [.ran, .suspended .setNextStatement]
  | halting .. => [.suspended .setNextStatement]
  | proceeding _ => [.proceeded]
  | exiting | removing | parting => [.killed]
  | _ => []

/-- The words that a call may still add to the story of its thread when the queue has been
closed. -/
def MaySay (st : Stage) (words : List Notice) : Prop :=
  ∃ reason : StopReason, reason ≠ .setNextStatement ∧ words <+: st.farewell reason

variable {st st' : Stage} {known ended : Bool} {p : Phase}

/-- That the session has ended takes nothing back. -/
theorem Fits.mono {over' : Bool} (h : st.Fits known ended p) (later : ended = true → over' = true) :
    st.Fits known over' p := by
  cases st with
  | waking => exact later h
  | released | leaving | returning => exact h.imp_left later
  | _ => exact h

/-- A call that has found its thread fits a story in which the thread runs. If it is no event, it
only has to return. -/
theorem fits_found (isEvent : Bool) (key : Nat) :
    (found isEvent key).Fits true ended .running := by
  cases isEvent with
  | true => exact ⟨rfl, rfl⟩
  | false => exact .inr rfl

/-- A call that has just stopped its thread fits a story in which the thread runs: the stop has yet
to be told. -/
theorem fits_stopped (key : Nat) {reason : StopReason} (fresh : reason ≠ .setNextStatement) :
    (stopped key reason).Fits true ended .running := by
  rw [stopped]
  split
  · rename_i exceptional
    exact ⟨rfl, rfl, exceptional⟩
  · rename_i plain
    refine ⟨rfl, .stop ?_ (StopReason.command_ne_setNextStatement fresh)⟩
    rwa [StopReason.command_mem_exceptionReasons]

/-- What a call tells of its thread is what the phase allows, and leads to the phase that fits the
next stage. -/
theorem Fits.say {n : Notice} (h : st.Fits known ended p) (word : st.word? = some (n, st')) :
    ∃ p', p.Tells n p' ∧ st'.Fits known ended p' := by
  cases st with
  | announcing isEvent key =>
      cases word
      obtain ⟨rfl, rfl⟩ := h
      exact ⟨.running, .create, fits_found isEvent key⟩
  | raising key reason =>
      cases word
      obtain ⟨rfl, rfl, exceptional⟩ := h
      exact ⟨.raised, .raise, rfl,
        .stopRaised ((StopReason.command_mem_exceptionReasons reason).mpr exceptional)⟩
  | telling key reason exceptional =>
      cases word
      exact ⟨.stopped exceptional, h.2, h.1, rfl⟩
  | going key exceptional =>
      cases word
      obtain ⟨rfl, rfl⟩ := h
      cases exceptional with
      | true => exact ⟨.leaving, .leave, .inr ⟨rfl, rfl⟩⟩
      | false => exact ⟨.running, .go, .inr ⟨rfl, rfl⟩⟩
  | jumping key exceptional =>
      cases word
      obtain ⟨rfl, rfl⟩ := h
      exact ⟨.jumping exceptional, .jump, rfl, rfl⟩
  | proceeding key =>
      cases word
      obtain ⟨rfl, rfl⟩ := h
      exact ⟨.running, .proceed, .inr rfl⟩
  | parting =>
      cases word
      obtain ⟨rfl, rfl⟩ := h
      exact ⟨.absent, .kill, .inr rfl⟩
  | _ => cases word

/-- Writing into the context tells nothing, so the phase stays and fits the next stage. -/
theorem Fits.set {key : Nat} {x x' : Context} (h : st.Fits known ended p)
    (sets : Sets st key x x' st') : st'.Fits known ended p := by
  cases sets with
  | enter | resume => exact h
  | stop =>
      obtain ⟨rfl, rfl, fresh⟩ := h
      exact fits_stopped key fresh
  | halt =>
      obtain ⟨rfl, rfl⟩ := h
      exact ⟨rfl, .jumped⟩
  | wake => exact .inl h
  | leave => exact h

theorem MaySay.nothing (st : Stage) : st.MaySay [] := ⟨.suspend, nofun, List.nil_prefix⟩

/-- What a call may still say after a step it may still say before, with what the step says. -/
theorem MaySay.wind {said words : List Notice} (h : st'.MaySay words) (winds : st.Winds said st') :
    st.MaySay (said ++ words) := by
  obtain ⟨reason, fresh, most⟩ := h
  cases winds with
  | say word =>
      refine ⟨reason, fresh, ?_⟩
      cases st with
      | announcing isEvent key =>
          cases word
          cases isEvent <;> exact List.cons_prefix_cons.mpr ⟨rfl, most⟩
      | raising | telling | going | jumping | proceeding | parting =>
          cases word
          exact List.cons_prefix_cons.mpr ⟨rfl, most⟩
      | _ => cases word
  | set sets =>
      refine ⟨reason, fresh, most.trans ?_⟩
      cases sets with
      | stop =>
          rename_i key x because
          rw [stopped]
          cases because <;> exact List.prefix_rfl
      | enter | wake | leave | resume | halt => exact List.prefix_rfl
  | find =>
      rename_i isEvent key
      refine ⟨reason, fresh, most.trans ?_⟩
      cases isEvent <;> exact List.nil_prefix
  | choose because => exact ⟨_, because, most⟩
  | introduce | resume | jump | discard | remove => exact ⟨reason, fresh, most⟩
  | busy | dismiss | decline | terminated | stay | leave | unknown =>
      exact ⟨reason, fresh, most.trans List.nil_prefix⟩

end Stage

namespace SharedSession

open Wire.Outbox

variable {ι : Type}

/-- The thread is registered. -/
def knows (c : SharedSession ι) (id : String) : Bool := (c.key? id).isSome

/-- The story of a thread may be in this phase: it fits every call about the thread that is under
way, and if there is none, then the session has ended or all has been told. -/
structure At (c : SharedSession ι) (id : String) (p : Phase) : Prop where
  during {i : ι} {st : Stage} (held : c.activity i = .calling id st) :
    st.Fits (c.knows id) c.finished p
  between (none : ∀ i st, c.activity i ≠ .calling id st) :
    c.finished = true ∨ p = .rest (c.knows id)

/-- Every thread has a story, and there is at most one call about it. -/
structure Told (c : SharedSession ι) : Prop where
  even : c.outbox.lastSeq % 2 = 0
  closing : c.queue.terminated = true → c.finished = true
  single {i j : ι} {id : String} {st st' : Stage} (held : c.activity i = .calling id st)
    (also : c.activity j = .calling id st') : i = j
  told (id : String) : ∃ p, Story p (c.outbox.story id) ∧ c.At id p

/-- Before anything has happened, no thread is there and nothing is told. -/
theorem told_start : Told ({} : SharedSession ι) where
  even := rfl
  closing := nofun
  single := nofun
  told _ := ⟨.absent, .nothing, nofun, fun _ => .inr rfl⟩

/-- A thread of the program that does nothing is not in the middle of a call. -/
theorem not_calling_of_idle {c : SharedSession ι} {i : ι} {answer : Bool}
    (held : c.activity i = .idle answer) (id : String) (st : Stage) :
    c.activity i ≠ .calling id st := by
  rw [held]
  exact Activity.noConfusion

section

variable {c c' : SharedSession ι}

/-- A step that is about no thread. -/
theorem Told.apart (h : Told c)
    (calls : ∀ i id st, c'.activity i = .calling id st ↔ c.activity i = .calling id st)
    (knows : ∀ id, c'.knows id = c.knows id) (later : c.finished = true → c'.finished = true)
    (closing : c'.queue.terminated = true → c'.finished = true)
    (hushed : Hushed c.outbox c'.outbox) : Told c' where
  even := (hushed h.even).1
  closing := closing
  single held also := h.single ((calls _ _ _).mp held) ((calls _ _ _).mp also)
  told id := by
    obtain ⟨p, story, at_⟩ := h.told id
    refine ⟨p, ?_, fun held => ?_, fun none => ?_⟩
    · rwa [(hushed h.even).2]
    · rw [knows]
      exact (at_.during ((calls _ _ _).mp held)).mono later
    · rw [knows]
      refine (at_.between fun i st held => ?_).imp_left later
      exact none i st ((calls i id st).mpr held)

/-- A step of the controller's side, or of a call in the middle of a stage. -/
theorem Told.elsewhere (h : Told c) (activity : c'.activity = c.activity)
    (registry : c'.registry = c.registry) (later : c.finished = true → c'.finished = true)
    (closing : c'.queue.terminated = true → c'.finished = true)
    (hushed : Hushed c.outbox c'.outbox) : Told c' := by
  refine h.apart (fun j id st => ?_) (fun id => ?_) later closing hushed
  · rw [activity]
  · rw [knows, key?, registry, knows, key?]

variable [DecidableEq ι]

/-- A step of a call about a thread, with what it tells of the thread. -/
theorem Told.move (h : Told c) {i : ι} {id : String} {st st' : Stage} {words : List Notice}
    (held : c.activity i = .calling id st)
    (activity : c'.activity = Function.update c.activity i (.calling id st'))
    (others : ∀ who, who ≠ id → c'.key? who = c.key? who) (ending : c'.ending = c.ending)
    (closing : c'.queue.terminated = c.queue.terminated)
    (told : Tells id words c.outbox c'.outbox)
    (next : ∀ p w, Story p w → st.Fits (c.knows id) c.finished p →
      ∃ p', Story p' (w ++ words) ∧ st'.Fits (c'.knows id) c.finished p') : Told c' := by
  have same : c'.finished = c.finished := by rw [finished, ending, finished]
  have before {j : ι} {who : String} {st₁ : Stage} (now : c'.activity j = .calling who st₁) :
      ∃ st, c.activity j = .calling who st := by
    rw [activity] at now
    rcases calling_of_update now with ⟨rfl, mine⟩ | ⟨-, earlier⟩
    · cases mine
      exact ⟨st, held⟩
    · exact ⟨st₁, earlier⟩
  refine ⟨(told h.even).1, ?_, fun first second => ?_, fun who => ?_⟩
  · rw [closing, same]
    exact h.closing
  · obtain ⟨_, first⟩ := before first
    obtain ⟨_, second⟩ := before second
    exact h.single first second
  · obtain ⟨p, story, at_⟩ := h.told who
    by_cases mine : who = id
    · subst mine
      obtain ⟨p', story', fits⟩ := next p _ story (at_.during held)
      refine ⟨p', ?_, fun now => ?_, fun none => absurd ?_ (none i st')⟩
      · rwa [(told h.even).2, if_pos rfl]
      · rw [activity] at now
        rcases calling_of_update now with ⟨-, this⟩ | ⟨other, earlier⟩
        · cases this
          rwa [same]
        · exact absurd (h.single earlier held) other
      · rw [activity, Function.update_self]
    · have known : c'.knows who = c.knows who := by rw [knows, others who mine, knows]
      refine ⟨p, ?_, fun {j st₁} now => ?_, fun none => ?_⟩
      · rwa [(told h.even).2, if_neg (Ne.symm mine), List.append_nil]
      · rw [activity] at now
        rw [known, same]
        rcases calling_of_update now with ⟨-, this⟩ | ⟨-, earlier⟩
        · cases this
          exact absurd rfl mine
        · exact at_.during earlier
      · rw [known, same]
        refine at_.between fun j st₁ earlier => none j st₁ ?_
        rw [activity, Function.update_of_ne, earlier]
        rintro rfl
        rw [held] at earlier
        cases earlier
        exact mine rfl

/-- A step of a call that tells nothing. -/
theorem Told.quiet (h : Told c) {i : ι} {id : String} {st st' : Stage}
    (held : c.activity i = .calling id st)
    (activity : c'.activity = Function.update c.activity i (.calling id st'))
    (registry : c'.registry = c.registry) (ending : c'.ending = c.ending)
    (closing : c'.queue.terminated = c.queue.terminated) (outbox : c'.outbox = c.outbox)
    (next : ∀ p, st.Fits (c.knows id) c.finished p → st'.Fits (c.knows id) c.finished p) :
    Told c' := by
  have same (who : String) : c'.key? who = c.key? who := by rw [key?, registry, key?]
  have nothing : Tells id [] c.outbox c'.outbox := by
    rw [outbox]
    exact (Hushed.refl _).tells id
  refine h.move held activity (fun who _ => same who) ending closing nothing
    fun p w story fits => ⟨p, ?_, ?_⟩
  · rwa [List.append_nil]
  · rw [knows, same]
    exact next p fits

/-- The host begins a call about a thread, which no call is about. -/
theorem Told.begin (h : Told c) {i : ι} {answer : Bool} (held : c.activity i = .idle answer)
    (lasting : c.finished = false) {id : String} {st : Stage}
    (free : ∀ j st, c.activity j ≠ .calling id st)
    (fits : ∀ p, p = .rest (c.knows id) → st.Fits (c.knows id) c.finished p) :
    Told (c.doing i (.calling id st)) where
  even := h.even
  closing := h.closing
  single first second := by
    rcases calling_of_update first with ⟨rfl, mine⟩ | ⟨-, earlier⟩ <;>
      rcases calling_of_update second with ⟨rfl, mine'⟩ | ⟨-, earlier'⟩
    · rfl
    · cases mine
      exact absurd earlier' (free _ _)
    · cases mine'
      exact absurd earlier (free _ _)
    · exact h.single earlier earlier'
  told who := by
    obtain ⟨p, story, at_⟩ := h.told who
    refine ⟨p, story, fun now => ?_, fun none => ?_⟩
    · rcases calling_of_update now with ⟨-, mine⟩ | ⟨-, earlier⟩
      · cases mine
        refine fits p ((at_.between free).resolve_left ?_)
        simp [lasting]
      · exact at_.during earlier
    · refine at_.between fun j st₁ earlier => none j st₁ ?_
      rw [activity_doing, Function.update_of_ne, earlier]
      rintro rfl
      rw [held] at earlier
      cases earlier

/-- A call returns. -/
theorem Told.return (h : Told c) {i : ι} {id : String} {answer : Bool}
    (held : c.activity i = .calling id (.returning answer)) :
    Told (c.doing i (.idle answer)) := by
  have before {j : ι} {who : String} {st : Stage}
      (now : (c.doing i (.idle answer)).activity j = .calling who st) :
      c.activity j = .calling who st := by
    rcases calling_of_update now with ⟨-, idle⟩ | ⟨-, earlier⟩
    · cases idle
    · exact earlier
  refine ⟨h.even, h.closing, fun first second => h.single (before first) (before second),
    fun who => ?_⟩
  obtain ⟨p, story, at_⟩ := h.told who
  refine ⟨p, story, fun now => at_.during (before now), fun none => ?_⟩
  by_cases mine : who = id
  · subst mine
    exact at_.during held
  · refine at_.between fun j st earlier => none j st ?_
    rw [activity_doing, Function.update_of_ne, earlier]
    rintro rfl
    rw [held] at earlier
    cases earlier
    exact mine rfl

/-- A thread that makes no call about any thread goes on to do something else that is none. -/
theorem Told.aside (h : Told c) {i : ι} {a : Activity}
    (free : ∀ id st, c.activity i ≠ .calling id st) (free' : ∀ id st, a ≠ .calling id st)
    (activity : c'.activity = Function.update c.activity i a) (registry : c'.registry = c.registry)
    (ending : c'.ending = c.ending) (queue : c'.queue = c.queue)
    (hushed : Hushed c.outbox c'.outbox) : Told c' := by
  have same : c'.finished = c.finished := by rw [finished, ending, finished]
  refine h.apart (fun j id st => ?_) (fun id => ?_) (fun ended => same.trans ended) ?_ hushed
  · rw [activity]
    by_cases mine : j = i
    · subst mine
      rw [Function.update_self]
      exact ⟨fun now => absurd now (free' id st), fun now => absurd now (free id st)⟩
    · rw [Function.update_of_ne mine]
  · rw [knows, key?, registry, knows, key?]
  · rw [queue, same]
    exact h.closing

/-- A call that goes on in silence keeps the stories. What it finds out on the way is right about
them: a known thread runs, and an unknown one is absent. -/
theorem Told.goes (h : Told c) {i : ι} {id : String} {st st' : Stage}
    (held : c.activity i = .calling id st) (goes : Goes c id st st') :
    Told (c.doing i (.calling id st')) := by
  refine h.quiet held rfl rfl rfl rfl rfl fun p fits => ?_
  cases goes with
  | find known =>
      rename_i isEvent key
      have registered : c.knows id = true := by rw [knows, known]; rfl
      obtain rfl : p = .rest (c.knows id) := fits
      rw [registered]
      exact Stage.fits_found isEvent key
  | busy | dismiss | decline =>
      obtain ⟨known, rfl⟩ := fits
      rw [known]
      exact .inr rfl
  | pass | resume | jump | stay => exact fits
  | choose fresh => exact ⟨fits.1, fits.2, fresh⟩
  | terminated closed => exact h.closing closed
  | plain =>
      refine fits.imp_right ?_
      rintro ⟨known, rfl⟩
      rw [known]
      rfl
  | proceed lasting =>
      rcases fits with ended | going
      · rw [lasting] at ended
        cases ended
      · exact going
  | forgo ended => exact .inl ended
  | unknown => exact .inr fits

/-- Every step keeps the stories in their phases, if the host begins no call about a thread while
another one is under way. -/
theorem Told.step (h : Told c) (step : Step sequentialHost c c') : Told c' := by
  cases step with
  | call i held r reports =>
      have free := not_calling_of_idle held
      rw [SharedSession.call]
      split
      · exact h.aside free (fun _ _ => Activity.noConfusion) rfl rfl rfl rfl (Hushed.refl _)
      · rename_i lasting
        rw [Bool.not_eq_true] at lasting
        cases r with
        | started id | exited id | event id =>
            exact h.begin held lasting (reports id _ rfl) fun _ => (fun h => h)
        | printed =>
            exact h.aside free (fun _ _ => Activity.noConfusion) rfl rfl rfl rfl (Hushed.refl _)
  | go i held goes => exact h.goes held goes
  | introduce i held missing =>
      refine h.move held rfl (fun who other => key?_introduce_of_ne other) rfl rfl
        ((Hushed.refl _).tells _) fun p w story fits => ⟨p, ?_, ?_, ?_⟩
      · rwa [List.append_nil]
      · show Option.isSome _ = true
        exact (congrArg Option.isSome (key?_introduce missing)).trans rfl
      · rw [knows, missing] at fits
        exact fits
  | say i held word reads =>
      refine h.move held rfl (fun _ _ => rfl) rfl rfl (tells_notify reads)
        fun p w story fits => ?_
      obtain ⟨p', tells, fits'⟩ := fits.say word
      exact ⟨p', .tell story tells, fits'⟩
  | set i held sets => exact h.quiet held rfl rfl rfl rfl rfl fun p fits => fits.set sets
  | remark i held may aside payload =>
      exact h.elsewhere rfl rfl (fun h => h) h.closing
        (hushed_notify (Notice.read?_aside aside payload))
  | take i held =>
      refine h.elsewhere rfl rfl (fun h => h) (fun closed => h.closing ?_) (Hushed.refl _)
      rwa [← CommandQueue.terminated_takeFor]
  | obey i held found =>
      obtain ⟨-, taken⟩ := CommandQueue.waitFor_eq_command found
      exact h.quiet held rfl rfl rfl (CommandQueue.terminated_takeOne taken) rfl
        fun p fits => fits
  | discard i held => exact h.quiet held rfl rfl rfl rfl rfl fun p fits => fits
  | remove i held known =>
      refine h.move held rfl (fun who other => key?_remove_of_ne other) rfl rfl
        ((Hushed.refl _).tells _) fun p w story fits => ⟨p, ?_, ?_, ?_⟩
      · rwa [List.append_nil]
      · show Option.isSome _ = false
        exact (congrArg Option.isSome (key?_remove c _)).trans rfl
      · rw [knows, known] at fits
        exact fits
  | print i held payload =>
      refine h.aside (fun id st => ?_) (fun _ _ => Activity.noConfusion) rfl rfl rfl rfl
        (hushed_notify rfl)
      rw [held]
      exact Activity.noConfusion
  | back i held => exact h.return held
  | answer command payload numbered =>
      refine h.elsewhere rfl rfl (fun h => h) h.closing (hushed_respond ?_)
      rcases numbered with odd | rfl
      · exact .inl odd
      · exact .inr rfl
  | post k accepted =>
      obtain ⟨-, rfl⟩ := CommandQueue.post_eq_ok accepted
      exact h.elsewhere rfl rfl (fun h => h) h.closing (Hushed.refl _)
  | ready => exact h.elsewhere rfl rfl (fun h => h) h.closing (Hushed.refl _)
  | finish => exact h.elsewhere rfl rfl (fun _ => rfl) (fun _ => rfl) (Hushed.refl _)
  | terminate | settle | gather | wake =>
      exact h.elsewhere rfl rfl (fun _ => rfl) (fun _ => rfl) (Hushed.refl _)
  | close => exact h.elsewhere rfl rfl (fun _ => rfl) (fun _ => rfl) (hushed_close _)

theorem Steps.told (h : Steps sequentialHost {} c) : Told c := by
  induction h with
  | refl => exact told_start
  | tail _ step ih => exact ih.step step

/-- When the queue has been closed, the story of a thread grows at most by what the call that is
under way then may still say. -/
theorem Told.farewell (h : Told c) (closed : c.queue.terminated = true)
    (steps : Steps sequentialHost c c') (id : String) :
    ∃ words, c'.outbox.story id = c.outbox.story id ++ words ∧
      (words = [] ∨ ∃ i st, c.activity i = .calling id st ∧ st.MaySay words) := by
  induction steps using Relation.ReflTransGen.head_induction_on with
  | refl => exact ⟨[], (List.append_nil _).symm, .inl rfl⟩
  | head step rest ih =>
      obtain ⟨words, later, mine⟩ := ih (h.step step) (step.terminated closed)
      cases step.winding (h.closing closed) closed with
      | quiet hushed same =>
          refine ⟨words, by rw [later, (hushed h.even).2], mine.imp_right ?_⟩
          rintro ⟨i, st, now, may⟩
          rcases same i with before | ⟨answer, idle⟩
          · exact ⟨i, st, before ▸ now, may⟩
          · rw [now] at idle
            cases idle
      | call i who held winds activity told =>
          rename_i st st' said
          by_cases about : who = id
          · subst about
            refine ⟨said ++ words, ?_, .inr ⟨i, st, held, ?_⟩⟩
            · rw [later, (told h.even).2, if_pos rfl, List.append_assoc]
            · rcases mine with rfl | ⟨j, st₁, now, may⟩
              · exact (Stage.MaySay.nothing st').wind winds
              · rw [activity] at now
                rcases calling_of_update now with ⟨-, this⟩ | ⟨other, earlier⟩
                · cases this
                  exact may.wind winds
                · exact absurd (h.single earlier held) other
          · refine ⟨words, ?_, mine.imp_right ?_⟩
            · rw [later, (told h.even).2, if_neg about, List.append_nil]
            · rintro ⟨j, st₁, now, may⟩
              rw [activity] at now
              rcases calling_of_update now with ⟨-, this⟩ | ⟨-, earlier⟩
              · cases this
                exact absurd rfl about
              · exact ⟨j, st₁, earlier, may⟩

/-- The notifications about a thread keep to the protocol. What messages are interleaved with them
does not matter. -/
structure KeepsProtocol (c : SharedSession ι) (id : String) : Prop where
  /-- They tell a story by the rules of `Story`. It is where the call about the thread is, and if
  there is none, then every stop has been told to its end, unless the session has ended. -/
  story : ∃ p, Story p (c.outbox.story id) ∧ c.At id p
  /-- Those that every stop has can be completed to whole lives of threads. -/
  lives : ∃ rest, (c.outbox.story id).filterMap Notice.turn? ++ rest ∈ Story.lifecycle
  /-- After the end of the session there are no more, whatever steps follow, but those that the call
  under way at the end may still send. -/
  ended : c.queue.terminated = true → ∀ c', Steps sequentialHost c c' →
    ∃ words, c'.outbox.story id = c.outbox.story id ++ words ∧
      (words = [] ∨ ∃ i st, c.activity i = .calling id st ∧ st.MaySay words)

end

/-- If the host makes the calls about each thread sequentially, the notifications about every thread
keep to the protocol, in whatever order the calls about different threads, the requests and the end
of the session take their steps. Every session whose host does so is among these: it is shown when
nothing comes between the steps of a call. -/
theorem notifications_keep_protocol :
    (∀ (ι : Type) [DecidableEq ι] (c : SharedSession ι), Steps sequentialHost {} c →
      ∀ id, KeepsProtocol c id) ∧
    ∀ setup program inputs, Session.Sequential (Session.start setup program) inputs →
      ∃ c known gone, Steps sequentialHost {} c ∧
        Shows c ((Session.start setup program).run inputs) known gone := by
  constructor
  · intro ι _ c steps id
    have told := steps.told
    obtain ⟨p, story, at_⟩ := told.told id
    exact ⟨⟨p, story, at_⟩, story.turns_complete, fun closed c' later =>
      told.farewell closed later id⟩
  · intro setup program inputs sequential
    exact sequential.shown ⟨setup, program, [], rfl⟩ .refl (.start setup program)

/-- The thread that is told to go on does so, and exits. -/
def stopForException : List Input := Session.toldToGoOn ++ [.serve 0, .threadExited "1"]

/-- When the thread has taken the command, the session ends: the call is still under way. A session
that goes on after such a stop is shown. -/
theorem obeying_keeps_protocol :
    (∃ c : SharedSession Nat, Steps sequentialHost {} c ∧ c.queue.terminated = true ∧
      KeepsProtocol c "1") ∧
    Session.Sequential (Session.start {} Session.oneLine) stopForException ∧
    ∃ c known gone, Steps sequentialHost {} c ∧
      Shows c ((Session.start {} Session.oneLine).run stopForException) known gone := by
  obtain ⟨c, obeying, -, -, -, steps, -, step, -, lasting, -⟩ := exists_obeying
  have ended := (steps.tail step).trans (finish_steps lasting)
  have sequential : Session.Sequential (Session.start {} Session.oneLine) stopForException :=
    ⟨rfl, by decide +kernel, by decide +kernel, by decide +kernel, by decide +kernel, trivial⟩
  exact ⟨⟨_, ended, rfl, notifications_keep_protocol.1 Nat _ ended "1"⟩, sequential,
    notifications_keep_protocol.2 {} Session.oneLine stopForException sequential⟩

/-- The story of the thread that is told to go on, before it does so. -/
theorem story_toldToGoOn {o : Wire.Outbox}
    (h : o = ((Session.start {} Session.oneLine).run Session.toldToGoOn).outbox) :
    o.lastSeq % 2 = 0 ∧
      o.story "1" = [.created, .raised, .suspended .stepCaughtException] := by
  let stop := Payload.suspendedThread (.ofMappings []) Session.oneLine Session.mainThread
    .caughtException 0
  have sent : o = (((({} : Wire.Outbox).notify .threadCreate
      (Payload.threadCreated Session.mainThread)).notify .sendExceptionTrace
      (Wire.joinFields ["1", "Boom", "no", stop])).notify .threadSuspend stop) := by
    rw [h]
    decide +kernel
  have created := Notice.read?_threadCreated Session.mainThread
  have raised := Notice.read?_exception (.ofMappings []) Session.oneLine Session.mainThread
    .caughtException 0 "1" "Boom" "no"
  have suspended := Notice.read?_suspendedThread (.ofMappings []) Session.oneLine
    Session.mainThread .caughtException 0
  have told := (tells_notify (o := {}) created).trans
    ((tells_notify raised).trans (tells_notify suspended))
  rw [sent]
  exact ⟨(told rfl).1, (told rfl).2 "1"⟩

/-- The end of a session leaves what is under way as it is. A thread that has been told to go on may
announce this after all else has been done, and if the session ends when it has just announced this,
then the end of its exception is never announced, although the thread was running by then. -/
theorem notices_around_finish : ∃ c known gone, Steps sequentialHost {} c ∧
    Shows c ((Session.start {} Session.oneLine).run Session.toldToGoOn) known gone ∧
    (∃ c₁ c₂ : SharedSession Nat, Steps sequentialHost c c₁ ∧ c₁.ending = .closed ∧
      Steps sequentialHost c₁ c₂ ∧ c₂.outbox.story "1" = c₁.outbox.story "1" ++ [.ran]) ∧
    ∃ (c₁ c₂ : SharedSession Nat) (key : Nat), Steps sequentialHost c c₁ ∧ c₁.finished = false ∧
      c₁.outbox.story "1" = [.created, .raised, .suspended .stepCaughtException, .ran] ∧
      Steps sequentialHost c₁ c₂ ∧ c₂.ending = .closed ∧ c₂.activity key = .idle true ∧
      c₂.outbox.story "1" = c₁.outbox.story "1" := by
  obtain ⟨c, obeying, known, gone, key, steps, shown, step, held, lasting, sent⟩ := exists_obeying
  obtain ⟨even, story⟩ := story_toldToGoOn sent
  have ran := Notice.read?_run "1" "106"
  refine ⟨c, known, gone, steps, shown, ?_, ?_⟩
  · obtain ⟨c', more, -, -, told⟩ := exists_released (c := obeying.ended) held
    refine ⟨obeying.ended, c', .head step (finish_steps lasting), rfl, more, ?_⟩
    rw [told]
    exact (tells_notify (o := obeying.ended.outbox) ran even).2 "1"
  · obtain ⟨c', more, released, same, told⟩ := exists_released held
    obtain ⟨even', grown⟩ := tells_notify (o := obeying.outbox) ran even
    rw [← told] at even' grown
    have still : c'.ending = .lasting := same.trans lasting
    have ended : c'.ended.finished = true := rfl
    obtain ⟨c'', left, idle, ending, silent⟩ := exists_left (c := c'.ended) released ended
    refine ⟨c', c'', key, .head step more, ?_, ?_, (finish_steps still).trans left, ending, idle,
      ?_⟩
    · simp [finished, still]
    · rw [grown, story]
      rfl
    · rw [silent]
      exact (hushed_close c'.outbox even').2 "1"

end SharedSession

end RemoteDebugger
