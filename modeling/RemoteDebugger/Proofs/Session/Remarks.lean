import RemoteDebugger.Proofs.Session.Effect
import RemoteDebugger.Proofs.Thread.Queue

/-!
# Remarks

Most of what a session sends says nothing about whether its threads run: answers to requests, text
for the console, failures of conditions, and the signatures of calls. One outbox grows to another by
remarks if only such messages are appended. Commands and decisions send nothing else, so the story
that the other notifications tell is told by the few operations that stop a thread or let it go on.
-/

namespace RemoteDebugger

namespace Wire

/-- The notification tells nothing about how threads go on. -/
def Command.isAside : Command → Bool
  | .writeToConsole | .getBreakpointException | .signatureCallTrace => true
  | _ => false

namespace Outbox

/-- An outbox grows by remarks: asides, and answers under certain numbers. -/
inductive Remarks (answers : Int → Prop) (o : Outbox) : Outbox → Prop
  | nothing : Remarks answers o o
  | answer {o' : Outbox} (before : Remarks answers o o') (c : Command) {seq : Int}
      (payload : String) (h : answers seq) (carries : c.Carries payload) :
      Remarks answers o (o'.respond c seq payload)
  | aside {o' : Outbox} (before : Remarks answers o o') {c : Command} (payload : String)
      (h : c.isAside = true) (carries : c.Carries payload) : Remarks answers o (o'.notify c payload)

variable {answers : Int → Prop} {o o' o'' : Outbox}

/-- Remarks after remarks are remarks. The numbers answered in both parts come from the same set. -/
theorem Remarks.trans (first : Remarks answers o o') (second : Remarks answers o' o'') :
    Remarks answers o o'' := by
  induction second with
  | nothing => exact first
  | answer _ c payload h carries ih => exact .answer ih c payload h carries
  | aside _ payload h carries ih => exact .aside ih payload h carries

@[simp] theorem messages_notify (o : Outbox) (c : Command) (payload : String) :
    (o.notify c payload).messages = o.messages ++ [⟨c, o.lastSeq + 2, payload⟩] := by
  simp [notify, messages, Outgoing.message?]

@[simp] theorem messages_respond (o : Outbox) (c : Command) (seq : Int) (payload : String) :
    (o.respond c seq payload).messages = o.messages ++ [⟨c, seq, payload⟩] := by
  simp [respond, messages, Outgoing.message?]

/-- The end of the stream is no message. -/
@[simp] theorem messages_close (o : Outbox) : o.close.messages = o.messages := by
  simp [close, messages, Outgoing.message?]

/-- Nothing that has been sent is taken back. -/
theorem Remarks.messages (h : Remarks answers o o') : o.messages <+: o'.messages := by
  induction h with
  | nothing => exact List.prefix_rfl
  | answer _ c payload _ _ ih =>
      rw [messages_respond]
      exact ih.trans (List.prefix_append _ _)
  | aside _ payload _ _ ih =>
      rw [messages_notify]
      exact ih.trans (List.prefix_append _ _)

end Outbox

end Wire

/-- The commands that wait are answered under certain numbers only. -/
def CommandQueue.Answers (answers : Int → Prop) (q : CommandQueue) : Prop :=
  ∀ c ∈ q.commands, ∀ n, c.action.seq? = some n → answers n

namespace Session

open Wire.Outbox

variable {answers : Int → Prop}

/-- What a command sends is a remark, if the number of its request is among those that may be
answered. -/
theorem execute_remarks (s : Session) (t : Thread) (top : FrameRef) (suspended : Bool) {a : Action}
    (h : ∀ n, a.seq? = some n → answers n) :
    Remarks answers s.outbox (s.execute t top suspended a).1.outbox := by
  rcases s.execute_outbox t top suspended a with
    ⟨-, same⟩ | ⟨seq, c, payload, numbered, -, carries, sent⟩
  · rw [same]
    exact .nothing
  · rw [sent]
    exact .answer .nothing c payload (h seq numbered) carries

/-- What several commands send are remarks, if the numbers of all their requests may be answered.
Not each of them need be answered. -/
theorem executeAll_remarks (s : Session) (t : Thread) (top : FrameRef)
    {commands : List QueuedCommand}
    (h : ∀ c ∈ commands, ∀ n, c.action.seq? = some n → answers n) :
    Remarks answers s.outbox (s.executeAll t top commands).outbox := by
  induction commands generalizing s with
  | nil => exact .nothing
  | cons c commands ih =>
      have first := s.execute_remarks t top false (h c List.mem_cons_self)
      exact first.trans (ih _ fun c' later => h c' (List.mem_cons_of_mem _ later))

/-- A running thread sends nothing but remarks while it carries out its commands. It never announces
that it stops or goes on. -/
theorem runPending_remarks {s : Session} (h : s.queue.Answers answers) (t : Thread)
    (top : FrameRef) : Remarks answers s.outbox (s.runPending t top).outbox := by
  rw [runPending_eq]
  refine executeAll_remarks { s with queue := (s.queue.takeFor t.id).2 } t top ?_
  exact fun c taken => h c (CommandQueue.mem_takeFor (.inl taken))

/-- Text on the console is an aside, whichever stream it goes to. -/
theorem writeToConsole_remarks (s : Session) (text : String) (stream : Nat) :
    Remarks answers s.outbox (s.writeToConsole text stream).outbox := by
  rw [writeToConsole]
  split
  · exact .nothing
  · exact .aside .nothing _ rfl (.inr (Payload.lineFeed_notMem_consoleOutput _ _ _))

/-- A log point sends asides only: the text, or the error of its expression. -/
theorem logPoint_remarks (s : Session) (frame : FrameRef) (expression : String) :
    Remarks answers s.outbox (s.logPoint frame expression).outbox := by
  rw [logPoint]
  split
  · rename_i v h _
    have silent : (s.logText h v).1.outbox = s.outbox := by
      cases v <;> rfl
    exact silent ▸ writeToConsole_remarks _ _ _
  · exact writeToConsole_remarks _ _ _

/-- A breakpoint that does not stop its thread may still send a text or an error, and these are
asides. -/
theorem checkBreakpoint_remarks (s : Session) (t : Thread) (frame : FrameRef) (b : Breakpoint) :
    Remarks answers s.outbox (s.checkBreakpoint t frame b).1.outbox := by
  rw [checkBreakpoint]
  split
  · split
    · exact .nothing
    · split
      · exact s.logPoint_remarks frame _
      · exact .nothing
    · exact .aside .nothing _ rfl (.inr (Wire.lineFeed_notMem_joinFields _))
  · exact .nothing

/-- All the breakpoints of a line together send asides only. The stop that one of them decides on is
announced later, when the decision is applied. -/
theorem checkBreakpoints_remarks (s : Session) (t : Thread) (frame : FrameRef)
    (breakpoints : List Breakpoint) :
    Remarks answers s.outbox (s.checkBreakpoints t frame breakpoints).1.outbox := by
  induction breakpoints generalizing s with
  | nil => exact .nothing
  | cons b rest ih =>
      have first : Remarks answers _ _ := s.checkBreakpoint_remarks t frame b
      rw [checkBreakpoints]
      split
      · rename_i checked
        simpa only [checked] using first
      · rename_i checked
        rw [checked] at first
        exact first.trans (ih _)

/-- What a session sends while it decides about an event are remarks. -/
theorem decide_remarks (s : Session) (t : Thread) (kind : EventKind) (frame : FrameRef)
    (file : String) (snapshot : Snapshot) :
    Remarks answers s.outbox (s.decide t kind frame file snapshot).1.outbox := by
  cases kind with
  | line =>
      have checks : Remarks answers _ _ := s.checkBreakpoints_remarks t frame
        (snapshot.at_ file (s.program.frame frame).line)
      rw [decide, decideLine]
      dsimp only
      split
      · exact .nothing
      · split
        · rename_i checked
          simpa only [checked] using checks
        · rename_i checked
          rw [checked] at checks
          split <;> exact checks
  | call | ret | exception => exact .nothing

/-- The signature of a call is an aside. -/
theorem recordCall_remarks (s : Session) (kind : EventKind) (frame : FrameRef) (file : String) :
    Remarks answers s.outbox (s.recordCall kind frame file).outbox := by
  rw [recordCall.eq_def]
  split
  · split
    · exact .aside .nothing _ rfl (.inr (Payload.lineFeed_notMem_callSignature _))
    · exact .nothing
  · exact .nothing

/-- A relation between sessions that every part of the look at an event of a thread keeps. -/
structure LookRelation (R : Session → Session → Prop) (t : Thread) : Prop where
  refl (s : Session) : R s s
  trans {s s' s'' : Session} : R s s' → R s' s'' → R s s''
  /-- A call is recorded, or a decision is made. -/
  remark {s s' : Session} : Looks s s' → Remarks (fun _ => False) s.outbox s'.outbox → R s s'
  pending (s : Session) (top : FrameRef) : R s (s.runPending t top)
  memoize (s : Session) (key : Option SkipKey) (generation : Nat) : R s (s.memoize key generation)
  suspend (s : Session) (reason : StopReason) (top : FrameRef)
    (exception : Option RaisedException) :
    R s (s.suspend t reason top exception)

/-- A decision is applied by parts of the look at an event, so that what they keep is kept, whatever
the decision is. -/
theorem LookRelation.apply {R : Session → Session → Prop} {t : Thread} (h : LookRelation R t)
    (s : Session) (kind : EventKind) (key : Option SkipKey) (generation : Nat)
    (decision : Decision) :
    R s (s.apply t kind key generation decision).1 := by
  cases decision with
  | noInterest =>
      rw [Session.apply]
      split
      · exact h.refl s
      · exact h.memoize s key generation
  | continue_ => exact h.refl s
  | suspend reason top =>
      obtain ⟨exception, applied, -⟩ := s.apply_suspend t kind key generation reason top
      rw [applied]
      exact h.suspend s reason top exception

/-- What every part keeps, the whole look at an event keeps. -/
theorem LookRelation.lookAt {R : Session → Session → Prop} {t : Thread} (h : LookRelation R t)
    (s : Session) (kind : EventKind) (frame : FrameRef) : R s (s.lookAt t kind frame).1 := by
  rw [Session.lookAt]
  dsimp only
  split
  · split
    · exact h.refl s
    · exact h.memoize s _ _
  · split
    · exact h.refl s
    · have recorded := h.remark (s.recordCall_looks kind frame (s.fileOf frame))
        (s.recordCall_remarks kind frame _)
      refine h.trans recorded (h.trans (h.pending _ frame) ?_)
      exact h.trans (h.remark (decide_looks ..) (decide_remarks ..)) (h.apply ..)

end Session

end RemoteDebugger
