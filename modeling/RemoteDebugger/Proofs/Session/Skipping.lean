import RemoteDebugger.Proofs.Session.Decision
import RemoteDebugger.Proofs.Session.Grant
import RemoteDebugger.Proofs.Session.Place

/-!
# Skipping what is memoized

The memo of a session is sound along every run: a memoized place is one that no breakpoint of the
present snapshot concerns, or lies in a file that is excluded now. From this invariant follow the
two statements that justify the memo. A session without it reacts in the same way to everything, and
no line with a breakpoint that hits is ever passed over.
-/

namespace RemoteDebugger.Session

/-- The memo of the session is sound for its file filter. What this says of a place depends on the
kind of event it was memoized for. -/
def MemoSound (s : Session) : Prop := s.breakpoints.Sound s.filter

theorem memoSound_start (setup : Setup) (program : Program) : MemoSound (start setup program) :=
  BreakpointRegistry.sound_empty _

theorem Serves.memoSound {s s' : Session} (h : Serves s s') (sound : MemoSound s) :
    MemoSound s' := by
  rw [MemoSound, h.breakpoints, h.filter]
  exact sound

/-- A request that changes the breakpoints or the exclusion of files empties the memo with it. The
others leave both alone. -/
theorem Granted.memoSound {s s' : Session} {code : Nat} {seq : Int} (h : Granted s code seq s')
    (sound : MemoSound s) : MemoSound s' := by
  cases h with
  | answered | askedAll | asked | resumed | posted => exact sound
  | ready =>
      obtain ⟨lifecycle, same⟩ := s.markReady_eq
      rw [same]
      exact sound
  | finished =>
      rw [finish]
      split <;> exact sound
  | changed f => exact BreakpointRegistry.sound_update s.breakpoints f s.filter
  | switched enabled => exact BreakpointRegistry.sound_update s.breakpoints id _

/-- A request that fails changes nothing, and one that is granted keeps the memo sound. -/
theorem memoSound_request {s : Session} (sound : MemoSound s) (code : Nat) (seq : Int)
    (payload : String) : MemoSound (s.request code seq payload) := by
  rcases s.request_cases code seq payload with ⟨e, refused⟩ | ⟨-, granted⟩
  · rw [refused]
    exact sound
  · exact granted.memoSound sound

theorem memoSound_introduce {s : Session} (sound : MemoSound s) (who : ThreadRef) :
    MemoSound (s.introduce who).1 := by
  obtain ⟨threads, outbox, introduced⟩ := s.introduce_eq who
  rw [introduced]
  exact sound

/-- The commands that wait for a running thread leave the line of its event as it was. -/
theorem line_runPending (s : Session) (t : Thread) (kind : EventKind) (frame : FrameRef)
    (file : String) :
    (((s.recordCall kind frame file).runPending t frame).program.frame frame).line =
      (s.program.frame frame).line := by
  have same := (s.recordCall kind frame file).runPending_sameFrames t frame
  rw [(s.recordCall_looks kind frame file).program] at same
  exact same.line frame

/-- To memoize is to add the place to the memo of the given generation, or nothing if there is no
place to add. -/
theorem memoize_breakpoints (s : Session) (key : Option SkipKey) (generation : Nat) :
    (s.memoize key generation).breakpoints = s.breakpoints ∨
      ∃ k, key = some k ∧
        (s.memoize key generation).breakpoints = s.breakpoints.memoize k generation := by
  cases key with
  | none => exact .inl rfl
  | some k => exact .inr ⟨k, rfl, rfl⟩

@[simp]
theorem suspend_breakpoints (s : Session) (t : Thread) (reason : StopReason) (top : FrameRef)
    (exception : Option RaisedException) :
    (s.suspend t reason top exception).breakpoints = s.breakpoints := by
  cases exception <;> rfl

/-- Of the decisions only the one without interest memoizes, and only for a thread that is not
stepping. -/
theorem apply_breakpoints (s : Session) (t : Thread) (kind : EventKind) (key : Option SkipKey)
    (generation : Nat) (decision : Decision) :
    (s.apply t kind key generation decision).1.breakpoints = s.breakpoints ∨
      ∃ k, key = some k ∧ decision = .noInterest ∧ t.control.state.isStepping = false ∧
        (s.apply t kind key generation decision).1.breakpoints =
          s.breakpoints.memoize k generation := by
  cases decision with
  | continue_ => exact .inl rfl
  | suspend reason top => exact .inl (s.suspend_breakpoints t reason top _)
  | noInterest =>
      rw [apply]
      cases steps : t.control.state.isStepping with
      | true => exact .inl rfl
      | false =>
          rcases s.memoize_breakpoints key generation with kept | ⟨k, place, memoized⟩
          · exact .inl kept
          · exact .inr ⟨k, place, rfl, rfl, memoized⟩

/-- The look at an event memoizes its place or nothing, and the place only for a thread that is not
stepping, and only if its file is excluded or the event is of no interest. -/
theorem lookAt_breakpoints (s : Session) (t : Thread) (kind : EventKind) (frame : FrameRef) :
    (s.lookAt t kind frame).1.breakpoints = s.breakpoints ∨
      ∃ k : SkipKey, s.skipKey? kind frame = some k ∧ t.control.state.isStepping = false ∧
        (s.filter.isExcluded k.file = true ∨
          s.filter.isExcluded k.file = false ∧ k.Dismissed s.breakpoints.snapshot) ∧
        (s.lookAt t kind frame).1.breakpoints =
          s.breakpoints.memoize k s.breakpoints.snapshot.generation := by
  rw [lookAt]
  dsimp only
  split
  · rename_i excluded
    split
    · exact .inl rfl
    · rename_i steady
      rcases s.memoize_breakpoints (s.skipKey? kind frame) s.breakpoints.snapshot.generation with
        kept | ⟨k, place, memoized⟩
      · exact .inl kept
      · refine .inr ⟨k, place, by simpa using steady, .inl ?_, memoized⟩
        obtain ⟨scope, -, rfl⟩ := Option.map_eq_some_iff.mp place
        exact excluded
  · rename_i traced
    split
    · exact .inl rfl
    · have line := s.line_runPending t kind frame (s.fileOf frame)
      have kept : ((s.recordCall kind frame (s.fileOf frame)).runPending t frame).breakpoints =
          s.breakpoints :=
        (runPending_serves _ t frame).breakpoints.trans
          (s.recordCall_looks kind frame (s.fileOf frame)).serves.breakpoints
      generalize (s.recordCall kind frame (s.fileOf frame)).runPending t frame = s₁ at line kept ⊢
      have looks := s₁.decide_looks t kind frame (s.fileOf frame) s.breakpoints.snapshot
      cases decided : s₁.decide t kind frame (s.fileOf frame) s.breakpoints.snapshot with
      | mk s₂ decision =>
          rw [decided] at looks
          have kept := looks.serves.breakpoints.trans kept
          rcases s₂.apply_breakpoints t kind (s.skipKey? kind frame)
            s.breakpoints.snapshot.generation decision with same | ⟨k, place, rfl, steady, memoized⟩
          · exact .inl (same.trans kept)
          · rw [kept] at memoized
            refine .inr ⟨k, place, steady, .inr ?_, memoized⟩
            obtain ⟨scope, kinds, rfl⟩ := Option.map_eq_some_iff.mp place
            refine ⟨by simpa using traced, ?_⟩
            exact ⟨s₁, t, kind, frame, steady, kinds, line, congrArg Prod.snd decided⟩

/-- A look at an event memoizes its place only if this is right in the snapshot it has decided by,
and between the two nothing changes the breakpoints. -/
theorem memoSound_lookAt {s : Session} (sound : MemoSound s) (t : Thread) (kind : EventKind)
    (frame : FrameRef) : MemoSound (s.lookAt t kind frame).1 := by
  obtain ⟨threads, q, skips, looked⟩ := s.lookAt_eq t kind frame
  rw [MemoSound, looked.filter]
  rcases s.lookAt_breakpoints t kind frame with kept | ⟨k, -, -, spared, memoized⟩
  · rw [kept]
    exact sound
  · rw [memoized]
    apply sound.memoize
    intro
    rcases spared with excluded | ⟨-, dismissed⟩
    · exact .inr excluded
    · exact .inl dismissed.idle

/-- An event keeps the memo sound, whatever places may be skipped on the way. -/
theorem memoSound_eventSkipping {s : Session} (sound : MemoSound s) (skip : SkipKey → Bool)
    (who : ThreadRef) (kind : EventKind) (frame : FrameRef) :
    MemoSound (s.eventSkipping skip who kind frame).1 := by
  have introduced := memoSound_introduce sound who
  rcases s.eventSkipping_cases skip who kind frame with ⟨-, ignored⟩ | passed | looked
  · rwa [ignored]
  · rwa [passed]
  · rw [looked]
    exact memoSound_lookAt introduced _ kind frame

theorem memoSound_threadExited {s : Session} (sound : MemoSound s) (id : String) :
    MemoSound (s.threadExited id) := by
  rw [threadExited]
  split
  · exact sound
  · dsimp only
    split <;> exact sound

/-- Whatever a session reacts to, its memo stays sound. -/
theorem memoSound_react (s : Session) (i : Input) (sound : MemoSound s) :
    MemoSound (s.react i).1 := by
  cases i with
  | request code seq payload => exact memoSound_request sound code seq payload
  | threadStarted who =>
      simp only [react, threadStarted]
      split
      · exact sound
      · exact memoSound_introduce sound who
  | threadExited id => exact memoSound_threadExited sound id
  | event who kind frame => exact memoSound_eventSkipping sound _ who kind frame
  | serve i =>
      rw [react]
      cases served : s.serveAt i with
      | none => exact sound
      | some s' =>
          obtain ⟨threads, departed, q, serves⟩ := serveAt_eq served
          exact serves.memoSound sound
  | console text stream => exact (Looks.writeToConsole s text stream).serves.memoSound sound
  | finish => exact (Granted.finished rfl rfl : Granted s 104 0 s.finish).memoSound sound
  | program program => exact sound

/-- The memo of a session is sound after every run. -/
theorem memoSound_run (setup : Setup) (program : Program) (inputs : List Input) :
    MemoSound ((start setup program).run inputs) :=
  run_invariant memoSound_react (memoSound_start setup program) inputs

/-- No request decides anew which calls are recorded. -/
theorem Granted.recordedRoots {s s' : Session} {code : Nat} {seq : Int}
    (h : Granted s code seq s') :
    s'.recordedRoots = s.recordedRoots := by
  cases h with
  | answered | askedAll | asked | resumed | posted | changed | switched => rfl
  | ready =>
      obtain ⟨lifecycle, same⟩ := s.markReady_eq
      rw [same]
  | finished =>
      rw [finish]
      split <;> rfl

/-- Which calls are recorded is settled when the session starts. -/
@[simp] theorem recordedRoots_react (s : Session) (i : Input) :
    (s.react i).1.recordedRoots = s.recordedRoots := by
  cases i with
  | request code seq payload =>
      rcases s.request_cases code seq payload with ⟨e, refused⟩ | ⟨-, granted⟩
      · rw [react, refused]
        rfl
      · exact granted.recordedRoots
  | threadStarted who =>
      obtain ⟨threads, outbox, introduced⟩ := s.introduce_eq who
      simp only [react, threadStarted, introduced]
      split <;> rfl
  | threadExited id =>
      simp only [react, threadExited]
      split
      · rfl
      · split <;> rfl
  | event who kind frame =>
      obtain ⟨threads, q, skips, reported⟩ :=
        s.eventSkipping_eq s.breakpoints.skips.contains who kind frame
      rw [react, event, reported]
  | serve i =>
      rw [react]
      cases served : s.serveAt i with
      | none => rfl
      | some s' =>
          obtain ⟨threads, departed, q, serves⟩ := serveAt_eq served
          rw [Option.getD_some, serves]
  | console text stream =>
      rw [react, Looks.writeToConsole s text stream]
  | finish => exact (Granted.finished rfl rfl : Granted s 104 0 s.finish).recordedRoots
  | program program => rfl

/-- What keeps the memo out of sight: it is sound, and no calls are recorded. -/
structure Transparent (s : Session) : Prop where
  sound : MemoSound s
  unrecorded : s.recordedRoots = none

theorem Transparent.react {s : Session} (h : Transparent s) (i : Input) :
    Transparent (s.react i).1 :=
  ⟨memoSound_react s i h.sound, (s.recordedRoots_react i).trans h.unrecorded⟩

/-- The introduction of a thread leaves the memo as it is, so it stays out of sight. -/
theorem Transparent.introduce {s : Session} (h : Transparent s) (who : ThreadRef) :
    Transparent (s.introduce who).1 := by
  refine ⟨memoSound_introduce h.sound who, ?_⟩
  obtain ⟨threads, outbox, introduced⟩ := s.introduce_eq who
  rw [introduced]
  exact h.unrecorded

/-- To look at an event that is skipped would find nothing and change nothing. -/
theorem lookAt_of_isSkipped {s : Session} {t : Thread} {kind : EventKind} {frame : FrameRef}
    (h : Transparent s)
    (skipped : s.isSkipped s.breakpoints.skips.contains t kind frame = true) :
    s.lookAt t kind frame = (s, .done false) := by
  simp only [isSkipped, Bool.and_eq_true, Bool.not_eq_true', Bool.or_eq_false_iff,
    Option.any_eq_true] at skipped
  obtain ⟨⟨steady, unpending, unasked⟩, key, place, memoized⟩ := skipped
  have again : s.memoize (s.skipKey? kind frame) s.breakpoints.snapshot.generation = s := by
    rw [place, memoize, BreakpointRegistry.memoize_of_contains memoized]
  by_cases excluded : s.filter.isExcluded (s.fileOf frame) = true
  · simp [lookAt, excluded, steady, again]
  · obtain ⟨scope, kinds, rfl⟩ := Option.map_eq_some_iff.mp place
    have idle : SkipKey.Idle ⟨s.fileOf frame, (s.program.frame frame).line, scope⟩
        s.breakpoints.snapshot := (h.sound _ memoized).resolve_right excluded
    have unrecorded : s.recordCall kind frame (s.fileOf frame) = s := by
      cases kind <;> simp [recordCall, h.unrecorded]
    simp [lookAt, excluded, steady, unrecorded, runPending_of_not_pending unpending,
      decide_of_idle kinds steady unasked idle, apply, again]

/-- An event comes to the same with the memo and without it: the same session afterwards and the
same outcome. -/
theorem eventSkipping_eq_in_full {s : Session} (h : Transparent s) (who : ThreadRef)
    (kind : EventKind) (frame : FrameRef) :
    s.event who kind frame = s.eventSkipping (fun _ => false) who kind frame := by
  obtain ⟨threads, outbox, introduced⟩ := s.introduce_eq who
  have same : s.breakpoints = (s.introduce who).1.breakpoints := by rw [introduced]
  have transparent := h.introduce who
  rw [event, same]
  generalize opened : s.introduce who = r at transparent
  obtain ⟨s₁, t⟩ := r
  rw [eventSkipping, eventSkipping, opened]
  dsimp only at transparent ⊢
  have never : s₁.isSkipped (fun _ => false) t kind frame = false := by
    simp [isSkipped]
  rw [never, Bool.or_false]
  cases skipped : s₁.isSkipped s₁.breakpoints.skips.contains t kind frame with
  | false => rw [Bool.or_false]
  | true => simp [lookAt_of_isSkipped transparent skipped]

/-- React as `react` does, but look at every event, whatever is memoized. -/
def reactInFull (s : Session) : Input → Session × Option Outcome
  | .event who kind frame =>
    let (s, outcome) := s.eventSkipping (fun _ => false) who kind frame
    (s, some outcome)
  | i => s.react i

/-- Where the memo is out of sight, no input has different consequences with it and without it. -/
theorem react_eq_reactInFull {s : Session} (h : Transparent s) (i : Input) :
    s.react i = s.reactInFull i := by
  cases i with
  | event who kind frame => rw [react, reactInFull, eventSkipping_eq_in_full h]
  | request | threadStarted | threadExited | serve | console | finish | program => rfl

/-- The two sessions go through the same states with the same outcomes, step by step and not only in
the end. -/
theorem history_eq_in_full {s : Session} (h : Transparent s) (inputs : List Input) :
    history react s inputs = history reactInFull s inputs := by
  induction inputs generalizing s with
  | nil => rfl
  | cons i inputs ih =>
      rw [history, history, ← react_eq_reactInFull h, ih (h.react i)]

/-- Where no calls are recorded, a session whose memo never answers goes through the same states
with the same outcomes, whatever it reacts to: the memo is only an optimisation. -/
theorem skips_are_transparent (setup : Setup)
    (unrecorded : setup.config.recordCallSignatures = false)
    (program : Program) (inputs : List Input) :
    history react (start setup program) inputs =
      history reactInFull (start setup program) inputs := by
  refine history_eq_in_full ⟨memoSound_start setup program, ?_⟩ inputs
  simp [start, unrecorded]

/-- The second event at a line is skipped, and would have had the same outcome. -/
theorem second_event_at_a_line :
    (((start {} oneLine).run [.event mainThread .line 0]).breakpoints.skips.contains
      ⟨"/app/main.x", 3, .line⟩ = true) ∧
    history react (start {} oneLine) [.event mainThread .line 0, .event mainThread .line 0] =
      history reactInFull (start {} oneLine)
        [.event mainThread .line 0, .event mainThread .line 0] :=
  ⟨by decide +kernel, skips_are_transparent {} rfl oneLine _⟩

end RemoteDebugger.Session
