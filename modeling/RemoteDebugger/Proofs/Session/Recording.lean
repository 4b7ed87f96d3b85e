import Mathlib.Data.List.Forall2
import Mathlib.Data.List.Induction
import RemoteDebugger.Proofs.Session.Turnover
import RemoteDebugger.Proofs.Session.Waiting
import RemoteDebugger.Proofs.Source.Project
import RemoteDebugger.Proofs.Value.Bindings

/-!
# Recorded calls

A call of a file in the scope of the recorder is recorded when the session looks at its event,
whatever comes of the event. The session does not look where its memo answers, so which calls are
recorded depends on the past: a call that is passed over is not recorded, but an earlier call at the
same place was, since the breakpoints were last changed. The invariant behind this is that every
memoized call in the scope of the recorder has been recorded.
-/

namespace RemoteDebugger

/-- The type that is recorded for an argument is that of the first local of its name. -/
inductive TypeRecorded (locals : Bindings) (arg : String) : String → Prop
  | bound {i : Nat} {v : Value} (first : locals.FirstAt i arg v) :
      TypeRecorded locals arg v.typeText
  | unbound (free : ∀ v, (arg, v) ∉ locals) : TypeRecorded locals arg "unknown"

/-- The signature tells the arguments of a frame in order of declaration, each with its type. -/
structure IsSignatureOf (f : Frame) (file : String) (c : CallSignature) : Prop where
  file : c.file = file
  name : c.name = f.function
  args : List.Forall₂ (fun arg entry => entry.1 = arg ∧ TypeRecorded f.locals arg entry.2)
    f.args c.args

section

variable {locals : Bindings} {arg type : String} {f : Frame} {file : String} {c : CallSignature}

/-- The recorded type of an argument is the type of the first local of its name. An argument without
a value is recorded as unknown. -/
theorem typeRecorded_iff :
    TypeRecorded locals arg type ↔ ((locals.find? arg).map Value.typeText).getD "unknown" =
      type := by
  constructor
  · intro recorded
    cases recorded with
    | bound first =>
        rw [Bindings.find?_eq_some_iff.mpr ⟨_, first⟩, Option.map_some, Option.getD_some]
    | unbound free =>
        cases found : locals.find? arg with
        | none => rfl
        | some v =>
            obtain ⟨i, first⟩ := Bindings.firstAt_of_find? found
            exact absurd (List.mem_of_getElem? first.1) (free v)
  · rintro rfl
    cases found : locals.find? arg with
    | none =>
        refine .unbound fun v here => ?_
        obtain ⟨w, other⟩ := Bindings.find?_of_mem here
        rw [found] at other
        cases other
    | some v =>
        obtain ⟨i, first⟩ := Bindings.firstAt_of_find? found
        exact .bound first

/-- The arguments that are recorded are those of the frame with their types, and no others. -/
theorem args_ofFrame_eq_iff {entries : List (String × String)} :
    (CallSignature.ofFrame f file).args = entries ↔
      List.Forall₂ (fun arg entry => entry.1 = arg ∧ TypeRecorded f.locals arg entry.2)
        f.args entries := by
  rw [CallSignature.ofFrame, ← List.forall₂_eq_eq_eq, List.forall₂_map_left_iff]
  refine iff_of_eq (congrArg (List.Forall₂ · _ _) ?_)
  funext arg entry
  rw [typeRecorded_iff, Prod.ext_iff]
  exact propext (and_congr_left fun _ => eq_comm)

/-- A frame has one signature, and it is the one that is recorded. -/
theorem isSignatureOf_iff : IsSignatureOf f file c ↔ CallSignature.ofFrame f file = c := by
  constructor
  · intro signature
    obtain ⟨file', name, entries⟩ := c
    obtain rfl : file' = file := signature.file
    obtain rfl : name = f.function := signature.name
    have told : (CallSignature.ofFrame f file').args = entries :=
      args_ofFrame_eq_iff.mpr signature.args
    rw [← told]
    rfl
  · rintro rfl
    exact ⟨rfl, rfl, args_ofFrame_eq_iff.mp rfl⟩

end

namespace Wire

/-- No request is answered with a call signature, so that every one in the outbox records a call. -/
theorem Command.promised_ne_signatureCallTrace (code : Nat) :
    promised code ≠ some .signatureCallTrace := by
  intro h
  obtain ⟨c, -, same⟩ := Option.bind_eq_some_iff.mp h
  cases c <;> cases same

namespace Outbox

def signatures (o : Outbox) : List String :=
  (o.messages.filter fun m => m.command = .signatureCallTrace).map Message.payload

variable {c : Command}

@[simp] theorem signatures_notify_signature (o : Outbox) (payload : String) :
    (o.notify .signatureCallTrace payload).signatures = o.signatures ++ [payload] := by
  rw [signatures, messages_notify, List.filter_append, List.map_append]
  rfl

theorem signatures_notify_other (other : c ≠ .signatureCallTrace) (o : Outbox) (payload : String) :
    (o.notify c payload).signatures = o.signatures := by
  rw [signatures, messages_notify, List.filter_append, List.map_append]
  simp [other, signatures]

theorem signatures_respond (other : c ≠ .signatureCallTrace) (o : Outbox) (seq : Int)
    (payload : String) : (o.respond c seq payload).signatures = o.signatures := by
  rw [signatures, messages_respond, List.filter_append, List.map_append]
  simp [other, signatures]

end Outbox

end Wire

/-- No command that waits is answered with a call signature. -/
def CommandQueue.SignsNothing (q : CommandQueue) : Prop :=
  ∀ c ∈ q.commands, c.action.answer? ≠ some .signatureCallTrace

namespace Session

variable {s s' : Session} {t : Thread} {frame : FrameRef} {who : ThreadRef}

/-- None of the commands that wait will be answered with a call signature. -/
theorem Reachable.signsNothing (h : Reachable s) : s.queue.SignsNothing := by
  refine h.waiting (P := fun a => a.answer? ≠ some .signatureCallTrace) nofun ?_
  intro code seq a numbered entitled
  rw [← entitled]
  exact Wire.Command.promised_ne_signatureCallTrace code

/-- What commands are answered adds no signature, if none of them is entitled to one. -/
@[simp] theorem signatures_executeAll (s : Session) (t : Thread) (top : FrameRef)
    {commands : List QueuedCommand}
    (h : ∀ c ∈ commands, c.action.answer? ≠ some .signatureCallTrace) :
    (s.executeAll t top commands).outbox.signatures = s.outbox.signatures := by
  induction commands generalizing s with
  | nil => rfl
  | cons c commands ih =>
      have first : (s.execute t top false c.action).1.outbox.signatures = s.outbox.signatures := by
        obtain ⟨-, same⟩ | ⟨seq, command, payload, -, entitled, -, sent⟩ :=
          s.execute_outbox t top false c.action
        · rw [same]
        · rw [sent]
          refine Wire.Outbox.signatures_respond ?_ _ seq payload
          rintro rfl
          exact h c List.mem_cons_self (entitled.resolve_left nofun)
      exact (ih _ fun c' later => h c' (List.mem_cons_of_mem _ later)).trans first

/-- The commands that a running thread carries out record no call. -/
@[simp] theorem signatures_runPending (h : s.queue.SignsNothing) (t : Thread) (top : FrameRef) :
    (s.runPending t top).outbox.signatures = s.outbox.signatures := by
  rw [runPending_eq]
  refine signatures_executeAll { s with queue := (s.queue.takeFor t.id).2 } t top ?_
  exact fun c taken => h c (CommandQueue.mem_takeFor (.inl taken))

@[simp] theorem signatures_introduce (s : Session) (who : ThreadRef) :
    (s.introduce who).1.outbox.signatures = s.outbox.signatures := by
  cases known : s.thread? who.id with
  | some t => simp [known]
  | none =>
      rw [introduce_of_new known]
      have other : Wire.Command.threadCreate ≠ .signatureCallTrace := nofun
      exact Wire.Outbox.signatures_notify_other other s.outbox _

def InScope (s : Session) (file : String) : Prop :=
  ∃ roots, s.recordedRoots = some roots ∧ (roots = [] ∨ Source.isUnder roots file = true)

/-- During the event of a call one signature is sent, that of the frame. -/
def Records (s : Session) (who : ThreadRef) (frame : FrameRef) : Prop :=
  ∃ c, IsSignatureOf (s.program.frame frame) (s.fileOf frame) c ∧
    (s.event who .call frame).1.outbox.signatures =
      s.outbox.signatures ++ [Payload.callSignature c]

/-- A call in scope is recorded with the signature that the frame shows now. Whether it was recorded
before is not asked here. -/
theorem recordCall_of_inScope {file : String} (scope : s.InScope file) (frame : FrameRef) :
    s.recordCall .call frame file = s.notify .signatureCallTrace
      (Payload.callSignature (.ofFrame (s.program.frame frame) file)) := by
  obtain ⟨roots, recorded, inside⟩ := scope
  have found : CallSignature.record? roots (s.program.frame frame) file =
      some (.ofFrame (s.program.frame frame) file) := if_pos (by simpa using inside)
  simp only [recordCall, recorded, found]

/-- A call stops no thread. -/
theorem decideCall_cases (t : Thread) (file : String) (snapshot : Snapshot) :
    decideCall t file snapshot = .continue_ ∨ decideCall t file snapshot = .noInterest :=
  ite_eq_or_eq _ _ _

/-- After the commands that waited for its thread, nothing is sent about a call. -/
theorem outbox_lookAt_call (traced : s.filter.isExcluded (s.fileOf frame) = false)
    (unfiltered : t.control.state.isStepping = true →
      s.filter.isStepFiltered (s.fileOf frame) = false) :
    (s.lookAt t .call frame).1.outbox = (s.prepared t .call frame).outbox := by
  have decided : s.decided t .call frame =
      (s.prepared t .call frame, decideCall t (s.fileOf frame) s.breakpoints.snapshot) := rfl
  rw [lookAt_of_traced traced unfiltered, decided]
  obtain goes_on | uninteresting := decideCall_cases t (s.fileOf frame) s.breakpoints.snapshot
  · rw [goes_on]
    rfl
  · rw [uninteresting, apply]
    split
    · rfl
    · obtain ⟨skips, memoized⟩ := (s.prepared t .call frame).memoize_eq (s.skipKey? .call frame)
        s.breakpoints.snapshot.generation
      rw [memoized]

/-- The look at a call in scope sends the signature of its frame, and no other. -/
theorem signatures_lookAt (signs : s.queue.SignsNothing) (scope : s.InScope (s.fileOf frame))
    (traced : s.filter.isExcluded (s.fileOf frame) = false)
    (unfiltered : t.control.state.isStepping = true →
      s.filter.isStepFiltered (s.fileOf frame) = false) :
    (s.lookAt t .call frame).1.outbox.signatures = s.outbox.signatures ++
      [Payload.callSignature (.ofFrame (s.program.frame frame) (s.fileOf frame))] := by
  rw [outbox_lookAt_call traced unfiltered, prepared, recordCall_of_inScope scope]
  refine Eq.trans ?_ (Wire.Outbox.signatures_notify_signature s.outbox _)
  exact signatures_runPending (s := s.notify .signatureCallTrace _) signs t frame

/-- A call that is looked at is recorded, if the filters let it pass and its file is in scope.
Nothing else that the look sends is a record. -/
theorem records_of_looked (signs : s.queue.SignsNothing) (scope : s.InScope (s.fileOf frame))
    (traced : s.filter.isExcluded (s.fileOf frame) = false)
    (unfiltered : (s.introduce who).2.control.state.isStepping = true →
      s.filter.isStepFiltered (s.fileOf frame) = false)
    (looked : s.event who .call frame = (s.introduce who).1.lookAt
      (s.introduce who).2 .call frame) :
    s.Records who frame := by
  obtain ⟨threads, outbox, introduced⟩ := s.introduce_eq who
  have file : (s.introduce who).1.fileOf frame = s.fileOf frame := by rw [introduced]; rfl
  have program : (s.introduce who).1.program = s.program := by rw [introduced]
  have filter : (s.introduce who).1.filter = s.filter := by rw [introduced]
  have signs' : (s.introduce who).1.queue.SignsNothing := by rwa [introduced]
  have scope' : (s.introduce who).1.InScope ((s.introduce who).1.fileOf frame) := by
    rw [file, introduced]
    exact scope
  rw [← filter, ← file] at traced unfiltered
  have sent := signatures_lookAt signs' scope' traced unfiltered
  refine ⟨_, isSignatureOf_iff.mpr rfl, ?_⟩
  rw [looked, sent, signatures_introduce, program, file]

/-- The memo passes a call over: nothing is asked of its thread, no command waits, and the place is
memoized. -/
structure PassesOver (s : Session) (who : ThreadRef) (frame : FrameRef) : Prop where
  steady : ∀ t, s.thread? who.id = some t →
    t.control.state.isStepping = false ∧ t.suspendRequested = false
  idle : s.queue.hasPending = false
  memoized : s.breakpoints.skips.contains
    ⟨s.fileOf frame, (s.program.frame frame).line, .call⟩ = true

/-- A call is skipped exactly if its place is memoized and nothing makes the thread heed it: no
step, no request to stop, no pending command. -/
theorem isSkipped_call_iff (skip : SkipKey → Bool) :
    s.isSkipped skip t .call frame = true ↔
      (t.control.state.isStepping = false ∧ t.suspendRequested = false) ∧
        s.queue.hasPending = false ∧
        skip ⟨s.fileOf frame, (s.program.frame frame).line, .call⟩ = true := by
  simp only [isSkipped, skipKey?, EventKind.skipScope, Option.map_some, Option.any_some,
    Bool.and_eq_true, Bool.not_eq_true', Bool.or_eq_false_iff]
  tauto

/-- Whether a call is skipped can be told from the session before, in which its thread may not be
known yet. -/
theorem isSkipped_introduce_iff :
    (s.introduce who).1.isSkipped s.breakpoints.skips.contains (s.introduce who).2 .call frame =
      true ↔
      s.PassesOver who frame := by
  obtain ⟨threads, outbox, introduced⟩ := s.introduce_eq who
  have queue : (s.introduce who).1.queue = s.queue := by rw [introduced]
  have program : (s.introduce who).1.program = s.program := by rw [introduced]
  have file : (s.introduce who).1.fileOf frame = s.fileOf frame := by rw [introduced]; rfl
  rw [isSkipped_call_iff, queue, program, file]
  cases known : s.thread? who.id with
  | some t =>
      rw [introduce_of_known known]
      constructor
      · rintro ⟨steady, idle, memoized⟩
        refine ⟨fun u registered => ?_, idle, memoized⟩
        obtain rfl := Option.some.inj (known.symm.trans registered)
        exact steady
      · intro passes
        exact ⟨passes.steady t known, passes.idle, passes.memoized⟩
  | none =>
      rw [introduce_of_new known]
      constructor
      · rintro ⟨-, idle, memoized⟩
        refine ⟨fun u registered => ?_, idle, memoized⟩
        rw [known] at registered
        cases registered
      · intro passes
        exact ⟨⟨rfl, rfl⟩, passes.idle, passes.memoized⟩

/-- A call that is passed over introduces its thread and does nothing else. -/
theorem event_of_passesOver (lasting : s.finished = false) (passes : s.PassesOver who frame) :
    s.event who .call frame = ((s.introduce who).1, .done false) := by
  have skipped := isSkipped_introduce_iff.mpr passes
  rw [event, eventSkipping]
  simp only [lasting, skipped, Bool.or_true, Bool.false_eq_true, if_false, if_true]

/-- A call at the place has been recorded, and the generation of breakpoints was the present one. -/
def HasRecorded (s₀ : Session) (past : List Input) (k : SkipKey) : Prop :=
  ∃ before who frame after, past = before ++ .event who .call frame :: after ∧
    (s₀.run before).skipKey? .call frame = some k ∧
    (s₀.run before).breakpoints.snapshot.generation =
      (s₀.run past).breakpoints.snapshot.generation ∧
    (s₀.run before).Records who frame

/-- What has been recorded stays so after one more input, as long as the generation of the
breakpoints is the same. -/
theorem HasRecorded.later {s₀ : Session} {past : List Input} {k : SkipKey}
    (h : HasRecorded s₀ past k)
    {i : Input} (same : (s₀.run (past ++ [i])).breakpoints.snapshot.generation =
      (s₀.run past).breakpoints.snapshot.generation) : HasRecorded s₀ (past ++ [i]) k := by
  obtain ⟨before, who, frame, after, rfl, place, generation, records⟩ := h
  refine ⟨before, who, frame, after ++ [i], ?_, place, generation.trans same.symm, records⟩
  rw [List.append_assoc, List.cons_append]

/-- What a reaction does to the memo: it leaves it and all that it depends on as they are, or clears
it, or adds the place of an event that has been looked at. -/
inductive Memoizes (s : Session) (i : Input) (s' : Session) : Prop
  | kept (breakpoints : s'.breakpoints = s.breakpoints) (filter : s'.filter = s.filter)
  | cleared (f : Snapshot → Snapshot) (breakpoints : s'.breakpoints = s.breakpoints.update f)
  | added {who : ThreadRef} {kind : EventKind} {frame : FrameRef} {k : SkipKey}
      (event : i = .event who kind frame) (place : s.skipKey? kind frame = some k)
      (steady : (s.introduce who).2.control.state.isStepping = false)
      (looked : s.event who kind frame = (s.introduce who).1.lookAt (s.introduce who).2 kind frame)
      (breakpoints : s'.breakpoints = s.breakpoints.memoize k s.breakpoints.snapshot.generation)
      (filter : s'.filter = s.filter)

/-- A request memoizes nothing. One that changes the breakpoints begins a new generation. -/
theorem Granted.memoizes {code : Nat} {seq : Int} {i : Input} (granted : Granted s code seq s') :
    Memoizes s i s' := by
  cases granted with
  | answered | askedAll | asked | resumed | posted => exact .kept rfl rfl
  | ready =>
      obtain ⟨lifecycle, same⟩ := s.markReady_eq
      rw [same]
      exact .kept rfl rfl
  | finished =>
      rw [finish]
      split
      · exact .kept rfl rfl
      · exact .kept rfl rfl
  | changed f => exact .cleared f rfl
  | switched enabled => exact .cleared id rfl

/-- The only thing an event can memoize is its own place, and only when it is looked at. -/
theorem event_memoizes (s : Session) (who : ThreadRef) (kind : EventKind) (frame : FrameRef) :
    Memoizes s (.event who kind frame) (s.event who kind frame).1 := by
  obtain ⟨threads, outbox, introduced⟩ := s.introduce_eq who
  have breakpoints : (s.introduce who).1.breakpoints = s.breakpoints := by rw [introduced]
  have filter : (s.introduce who).1.filter = s.filter := by rw [introduced]
  have key : (s.introduce who).1.skipKey? kind frame = s.skipKey? kind frame := by
    rw [introduced]
    rfl
  obtain ⟨-, ignored⟩ | passed | looked :=
    s.eventSkipping_cases s.breakpoints.skips.contains who kind frame
  · rw [event, ignored]
    exact .kept rfl rfl
  · rw [event, passed]
    exact .kept breakpoints filter
  · obtain ⟨threads', q, skips, serves⟩ :=
      (s.introduce who).1.lookAt_eq (s.introduce who).2 kind frame
    have filtered := serves.filter.trans filter
    obtain kept | ⟨k, place, steady, -, memoized⟩ :=
      (s.introduce who).1.lookAt_breakpoints (s.introduce who).2 kind frame
    · rw [event, looked]
      exact .kept (kept.trans breakpoints) filtered
    · rw [breakpoints] at memoized
      refine .added rfl (key.symm.trans place) steady looked ?_ ?_
      · rw [event, looked, memoized]
      · rw [event, looked, filtered]

/-- Whatever a session reacts to, its memo is kept or cleared, or the place of an event that has
been looked at is added to it. -/
theorem react_memoizes (s : Session) (i : Input) : Memoizes s i (s.react i).1 := by
  cases i with
  | request code seq payload =>
      obtain ⟨e, refused⟩ | ⟨-, granted⟩ := s.request_cases code seq payload
      · rw [react, refused]
        exact .kept rfl rfl
      · exact granted.memoizes
  | threadStarted who =>
      obtain ⟨threads, outbox, introduced⟩ := s.introduce_eq who
      rw [react, threadStarted]
      split
      · exact .kept rfl rfl
      · rw [introduced]
        exact .kept rfl rfl
  | threadExited id =>
      rw [react, threadExited]
      split
      · exact .kept rfl rfl
      · dsimp only
        split
        · exact .kept rfl rfl
        · exact .kept rfl rfl
  | event who kind frame => exact s.event_memoizes who kind frame
  | serve i =>
      rw [react]
      cases served : s.serveAt i with
      | none => exact .kept rfl rfl
      | some s' =>
          obtain ⟨threads, departed, q, serves⟩ := serveAt_eq served
          exact .kept serves.breakpoints serves.filter
  | console text stream =>
      have serves := (Looks.writeToConsole s text stream).serves
      exact .kept serves.breakpoints serves.filter
  | finish => exact (Granted.finished rfl rfl : Granted s 104 0 s.finish).memoizes
  | program program => exact .kept rfl rfl

/-- Every memoized call that is to be recorded has been recorded. -/
def MemoRecorded (s₀ : Session) (past : List Input) : Prop :=
  ∀ k : SkipKey, k.scope = .call → (s₀.run past).breakpoints.skips.contains k = true →
    (s₀.run past).InScope k.file → (s₀.run past).filter.isExcluded k.file = false →
      HasRecorded s₀ past k

/-- The event that memoizes a call records it. -/
theorem records_of_added {k : SkipKey} (signs : s.queue.SignsNothing) (scope : s.InScope k.file)
    (traced : s.filter.isExcluded k.file = false)
    (place : s.skipKey? .call frame = some k)
    (steady : (s.introduce who).2.control.state.isStepping = false)
    (looked : s.event who .call frame = (s.introduce who).1.lookAt
      (s.introduce who).2 .call frame) :
    s.Records who frame := by
  obtain rfl := Option.some.inj place
  refine records_of_looked signs scope traced (fun stepping => ?_) looked
  rw [steady] at stepping
  cases stepping

/-- The next reaction keeps what is memoized, clears it, or adds a call that it records. -/
theorem MemoRecorded.concat {s₀ : Session} {past : List Input} (h : MemoRecorded s₀ past)
    (signs : (s₀.run past).queue.SignsNothing) (i : Input) : MemoRecorded s₀ (past ++ [i]) := by
  intro k call memoized scope traced
  have now := s₀.run_concat past i
  have before : (s₀.run past).InScope k.file := by
    rw [now, InScope, recordedRoots_react] at scope
    exact scope
  rw [now] at memoized traced
  cases (s₀.run past).react_memoizes i with
  | kept breakpoints filter =>
      rw [breakpoints] at memoized
      rw [filter] at traced
      exact (h k call memoized before traced).later (by rw [now, breakpoints])
  | cleared f breakpoints =>
      rw [breakpoints, BreakpointRegistry.skips_update, SkipCache.contains_reset] at memoized
      cases memoized
  | @added who kind frame k' event place steady looked breakpoints filter =>
      have generation : (s₀.run (past ++ [i])).breakpoints.snapshot.generation =
          (s₀.run past).breakpoints.snapshot.generation := by
        rw [now, breakpoints, BreakpointRegistry.snapshot_memoize]
      rw [breakpoints] at memoized
      rw [filter] at traced
      obtain known | ⟨-, rfl⟩ := (SkipCache.contains_insert _ _ _ _).mp memoized
      · exact (h k call known before traced).later generation
      · -- Only a call has a place of this scope.
        obtain rfl : kind = .call := by
          obtain ⟨scope, kinds, rfl⟩ := Option.map_eq_some_iff.mp place
          obtain rfl := call
          cases kind <;> cases kinds
          rfl
        exact ⟨past, who, frame, [], by rw [event], place, generation.symm,
          records_of_added signs before traced place steady looked⟩

/-- Along every run, a memoized call in scope has been recorded under the present breakpoints. -/
theorem memoRecorded_run (setup : Setup) (program : Program) (past : List Input) :
    MemoRecorded (start setup program) past := by
  induction past using List.reverseRecOn with
  | nil =>
      intro k call memoized
      cases memoized
  | append_singleton past i ih =>
      exact ih.concat (Reachable.signsNothing ⟨setup, program, past, rfl⟩) i

/-- A call that a session with these settings is to record. -/
structure ToRecord (config : Config) (s : Session) (who : ThreadRef) (frame : FrameRef) : Prop where
  records : config.recordCallSignatures = true
  scope : config.projectRoots = [] ∨
    Source.isUnder (config.projectRoots.map Source.normalize) (s.fileOf frame) = true
  lasting : s.finished = false
  outside : ∀ t, s.thread? who.id = some t → t.inEngine = false
  traced : s.filter.isExcluded (s.fileOf frame) = false
  unfiltered : ∀ t, s.thread? who.id = some t → t.control.state.isStepping = true →
    s.filter.isStepFiltered (s.fileOf frame) = false

/-- What becomes of the next call after a run: it is recorded, or it is passed over and one like it
has been recorded. -/
structure AccountsFor (s₀ : Session) (past : List Input) (who : ThreadRef) (frame : FrameRef) :
    Prop where
  /-- One signature is sent, unless the memo passes the call over. -/
  recorded : ¬ (s₀.run past).PassesOver who frame → (s₀.run past).Records who frame
  /-- Then none is sent. -/
  passed : (s₀.run past).PassesOver who frame →
    ((s₀.run past).event who .call frame).2 = .done false ∧
      ((s₀.run past).event who .call frame).1.outbox.signatures = (s₀.run past).outbox.signatures
  /-- But a call at the place was recorded since the breakpoints were last changed. -/
  earlier : (s₀.run past).PassesOver who frame → HasRecorded s₀ past
    ⟨(s₀.run past).fileOf frame, ((s₀.run past).program.frame frame).line, .call⟩
  /-- The content of a signature is settled by the frame. -/
  content : ∀ c c', IsSignatureOf ((s₀.run past).program.frame frame)
    ((s₀.run past).fileOf frame) c →
    IsSignatureOf ((s₀.run past).program.frame frame) ((s₀.run past).fileOf frame) c' → c = c'

theorem recordedRoots_run (setup : Setup) (program : Program) (past : List Input) :
    ((start setup program).run past).recordedRoots = (start setup program).recordedRoots :=
  run_invariant (P := fun s => s.recordedRoots = (start setup program).recordedRoots)
    (fun s i same => (s.recordedRoots_react i).trans same) rfl past

/-- A call that is to be recorded is recorded with one signature during its event, unless the memo
passes it over; then an earlier call at its place was. -/
theorem calls_are_recorded (setup : Setup) (program : Program) (past : List Input) {who : ThreadRef}
    {frame : FrameRef} (h : ToRecord setup.config ((start setup program).run past) who frame) :
    AccountsFor (start setup program) past who frame := by
  have signs := Reachable.signsNothing ⟨setup, program, past, rfl⟩
  have scope : ((start setup program).run past).InScope
      (((start setup program).run past).fileOf frame) := by
    refine ⟨setup.config.projectRoots.map Source.normalize, ?_, ?_⟩
    · rw [recordedRoots_run]
      exact if_pos h.records
    · rw [List.map_eq_nil_iff]
      exact h.scope
  refine { recorded := ?_, passed := ?_, earlier := ?_, content := ?_ }
  · intro seen
    refine records_of_looked signs scope h.traced ?_ ?_
    · intro stepping
      obtain ⟨t, known, steps⟩ := isStepping_introduce stepping
      exact h.unfiltered t known steps
    · refine event_eq_lookAt h.lasting (inEngine_introduce h.outside) ?_
      rw [Bool.eq_false_iff]
      exact fun skipped => seen (isSkipped_introduce_iff.mp skipped)
  · intro passes
    rw [event_of_passesOver h.lasting passes]
    exact ⟨rfl, signatures_introduce _ who⟩
  · intro passes
    exact memoRecorded_run setup program past _ rfl passes.memoized scope h.traced
  · intro c c' first second
    exact (isSignatureOf_iff.mp first).symm.trans (isSignatureOf_iff.mp second)

def recording : Setup := { config := { recordCallSignatures := true } }

def recordedOnce : Session := (start recording oneLine).run [.event mainThread .call 0]

/-- The second call meets all the conditions of the first, so it is the memo alone that sets it
apart. -/
theorem toRecord_again : ToRecord recording.config recordedOnce mainThread 0 := by
  have known : recordedOnce.thread? mainThread.id = some { ref := mainThread } := by decide +kernel
  refine ⟨rfl, .inl rfl, rfl, ?_, by decide +kernel, ?_⟩
  · intro t registered
    obtain rfl := Option.some.inj (known.symm.trans registered)
    rfl
  · intro t registered stepping
    obtain rfl := Option.some.inj (known.symm.trans registered)
    cases stepping

/-- The second call is passed over, and the first one accounts for it. -/
theorem second_call_is_passed_over :
    ToRecord recording.config recordedOnce mainThread 0 ∧ recordedOnce.PassesOver mainThread 0 ∧
      AccountsFor (start recording oneLine) [.event mainThread .call 0] mainThread 0 := by
  refine ⟨toRecord_again, isSkipped_introduce_iff.mp (by decide +kernel), ?_⟩
  exact calls_are_recorded recording oneLine [.event mainThread .call 0] toRecord_again

/-- The first call at a place is recorded and the second is not, so the signatures that are sent
depend on the places that were seen before. -/
theorem second_call_is_not_recorded :
    (start recording oneLine).Records mainThread 0 ∧
      ToRecord recording.config recordedOnce mainThread 0 ∧
        ¬ recordedOnce.Records mainThread 0 := by
  refine ⟨⟨_, isSignatureOf_iff.mpr rfl, by decide +kernel⟩, toRecord_again, ?_⟩
  rintro ⟨c, -, sent⟩
  have silent : (recordedOnce.event mainThread .call 0).1.outbox.signatures =
      recordedOnce.outbox.signatures := by
    decide +kernel
  rw [silent] at sent
  simp at sent

end Session

end RemoteDebugger
