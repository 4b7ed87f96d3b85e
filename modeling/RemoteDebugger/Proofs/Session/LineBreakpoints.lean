import Mathlib.Data.List.Forall2
import RemoteDebugger.Proofs.Session.Decision
import RemoteDebugger.Proofs.Session.Remarks

/-!
# Breakpoints at a line

The breakpoints at a line are checked in order up to the first that stops the thread, and each of
those that are checked gives rise to at most one notification: a condition that fails is reported,
and a log point that hits prints its value or why there is none. What a log point evaluates changes
nothing that the next breakpoints depend on, so each of them means the same as if it were alone at
the line.
-/

namespace RemoteDebugger

/-- A notification before it has a number. -/
abbrev Wire.Unnumbered := Wire.Command × String

def Wire.Outbox.notifyAll (o : Wire.Outbox) (notices : List Wire.Unnumbered) : Wire.Outbox :=
  notices.foldl (fun o n => o.notify n.1 n.2) o

@[simp]
theorem Wire.Outbox.notifyAll_append (o : Wire.Outbox) (first second : List Wire.Unnumbered) :
    o.notifyAll (first ++ second) = (o.notifyAll first).notifyAll second :=
  List.foldl_append

namespace Session

variable {s s' : Session} {t : Thread} {frame : FrameRef} {b : Breakpoint} {e : Error}

section

variable (s : Session) (frame : FrameRef) (b : Breakpoint)

/-- The breakpoint is bound to no function, or to the one of the frame. -/
def Applicable : Prop :=
  ∀ function, b.function = some function → function = (s.program.frame frame).function

/-- The breakpoint applies to the frame, and its condition holds if it has one. -/
def Hits : Prop :=
  s.Applicable frame b ∧ ∀ c, b.condition = some c →
    ∃ v h, s.runtime.evaluate s.program frame c = .ok (v, h) ∧ v.isTruthy h = true

/-- The breakpoint applies to the frame, and evaluating its condition fails. -/
def Fails (c : String) (e : Error) : Prop :=
  s.Applicable frame b ∧ b.condition = some c ∧ s.runtime.evaluate s.program frame c = .error e

/-- The thread stops for the breakpoint: it hits and does not just print, or it fails and failing
ones are to stop. -/
def Stops : Prop :=
  (s.Hits frame b ∧ b.expression = none) ∨
    ((∃ c e, s.Fails frame b c e) ∧ s.config.suspendOnBreakpointError = true)

/-- How a log point shows a value: a text as it is, and another value by its resolver, once the
resolvers have made some decisions. -/
def shown (resolvers : Registry) (h : Heap) (v : Value) : String :=
  match v with
  | .str text => text
  | v =>
    match ((Registry.render h v { length := s.config.maxVariableText }).run resolvers).1 with
    | .ok text => text
    | .error _ => Registry.noText v

/-- The notifications that a breakpoint gives rise to. -/
inductive Reports (s : Session) (t : Thread) (frame : FrameRef) (b : Breakpoint) :
    List Wire.Unnumbered → Prop
  /-- A condition that fails is reported with the thread. -/
  | failed {c : String} {e : Error} (fails : s.Fails frame b c e) :
      Reports s t frame b [(.getBreakpointException, Wire.joinFields [t.id, c, e.message])]
  /-- A log point that hits prints its value on the first stream. -/
  | printed {expression : String} {v : Value} {h : Heap} (hits : s.Hits frame b)
      (prints : b.expression = some expression)
      (value : s.runtime.evaluate s.program frame expression = .ok (v, h)) (resolvers : Registry) :
      Reports s t frame b [(.writeToConsole,
        Payload.consoleOutput (s.shown resolvers h v ++ "\n") 1 s.config.maxConsoleText)]
  /-- A log point that hits and has no value prints why on the second stream. -/
  | complained {expression : String} {e : Error} (hits : s.Hits frame b)
      (prints : b.expression = some expression)
      (fault : s.runtime.evaluate s.program frame expression = .error e) :
      Reports s t frame b [(.writeToConsole,
        Payload.consoleOutput (e.message ++ "\n") 2 s.config.maxConsoleText)]
  /-- Any other breakpoint is silent. -/
  | silent (holds : ∀ c e, ¬ s.Fails frame b c e) (plain : s.Hits frame b → b.expression = none) :
      Reports s t frame b []

end

/-- The test of the engine is the condition on the function: none is required, or the one of the
frame. -/
theorem appliesTo_iff : b.appliesTo (s.program.frame frame).function = true ↔
    s.Applicable frame b := by
  rw [Breakpoint.appliesTo, Applicable]
  cases b.function with
  | none => exact ⟨fun _ => nofun, fun _ => rfl⟩
  | some function =>
      rw [Option.all_some, beq_iff_eq]
      exact ⟨fun same _ bound => Option.some.inj bound ▸ same, fun h => h function rfl⟩

/-- A breakpoint hits if it applies and its condition is found to hold. Without a condition the
second part is always true. -/
theorem hits_iff :
    s.Hits frame b ↔ s.Applicable frame b ∧ s.conditionHolds frame b = .ok true := by
  rw [Hits, and_congr_right_iff]
  intro _
  rw [conditionHolds.eq_def]
  cases b.condition with
  | none => exact ⟨fun _ => rfl, nofun⟩
  | some c =>
      dsimp only
      constructor
      · intro holds
        obtain ⟨v, h, value, truthy⟩ := holds c rfl
        rw [value, Except.map, truthy]
      · intro holds c' same
        cases same
        cases value : s.runtime.evaluate s.program frame c with
        | error e =>
            rw [value] at holds
            cases holds
        | ok r =>
            rw [value, Except.map] at holds
            exact ⟨r.1, r.2, rfl, Except.ok.inj holds⟩

/-- A breakpoint fails if it applies and its condition cannot be evaluated. One without a condition
never fails. -/
theorem fails_iff :
    (∃ c, s.Fails frame b c e) ↔ s.Applicable frame b ∧ s.conditionHolds frame b = .error e := by
  rw [conditionHolds.eq_def]
  constructor
  · rintro ⟨c, applies, condition, fault⟩
    rw [condition]
    dsimp only
    rw [fault]
    exact ⟨applies, rfl⟩
  · rintro ⟨applies, fault⟩
    split at fault
    · cases fault
    · rename_i c condition
      refine ⟨c, applies, condition, ?_⟩
      cases value : s.runtime.evaluate s.program frame c with
      | error e' =>
          rw [value] at fault
          rw [Except.error.inj fault]
      | ok r =>
          rw [value] at fault
          cases fault

/-- In a session that goes on, text for the console is sent at once, cut as the settings say. -/
@[simp] theorem writeToConsole_outbox (going : s.finished = false) (text : String) (stream : Nat) :
    (s.writeToConsole text stream).outbox = s.outbox.notify .writeToConsole
      (Payload.consoleOutput text stream s.config.maxConsoleText) := by
  rw [writeToConsole, going, if_neg Bool.false_ne_true]
  rfl

theorem logText_eq (s : Session) (h : Heap) (v : Value) :
    (s.logText h v).2 = s.shown s.resolvers h v := by
  cases v <;> rfl

@[simp] theorem logText_outbox (s : Session) (h : Heap) (v : Value) :
    (s.logText h v).1.outbox = s.outbox := by
  cases v <;> rfl

/-- A log point reports one notification, the text or the error of its expression, and the session
sends exactly this one. -/
theorem logPoint_reports (going : s.finished = false) (hits : s.Hits frame b) {expression : String}
    (prints : b.expression = some expression) :
    ∃ notices, Reports s t frame b notices ∧
      (s.logPoint frame expression).outbox = s.outbox.notifyAll notices := by
  cases value : s.runtime.evaluate s.program frame expression with
  | ok r =>
      obtain ⟨v, h⟩ := r
      have serves := (s.logText_looks h v).serves
      refine ⟨_, .printed hits prints value s.resolvers, ?_⟩
      rw [logPoint, value]
      dsimp only
      rw [writeToConsole_outbox (serves.finished.trans going), logText_outbox, logText_eq,
        serves.config]
      rfl
  | error e =>
      refine ⟨_, .complained hits prints value, ?_⟩
      rw [logPoint, value]
      exact writeToConsole_outbox going _ 2

/-- A breakpoint that does not fail and has nothing to print is silent. -/
theorem Reports.of_not_hits (holds : ∀ c e, ¬ s.Fails frame b c e) (misses : ¬ s.Hits frame b) :
    Reports s t frame b [] := .silent holds fun hits => absurd hits misses

/-- A breakpoint that does not fail, and prints whenever it hits, stops nobody. -/
theorem not_stops (holds : ∀ c e, ¬ s.Fails frame b c e)
    (passes : s.Hits frame b → b.expression ≠ none) : ¬ s.Stops frame b := by
  rintro (⟨hits, plain⟩ | ⟨⟨c, e, fails⟩, -⟩)
  · exact passes hits plain
  · exact holds c e fails

/-- What the check of one breakpoint sends, and whether the thread stops for it. -/
theorem checkBreakpoint_reports (going : s.finished = false) (t : Thread) (frame : FrameRef)
    (b : Breakpoint) : ∃ notices, Reports s t frame b notices ∧
      (s.checkBreakpoint t frame b).1.outbox = s.outbox.notifyAll notices ∧
      (s.Stops frame b ∧ (s.checkBreakpoint t frame b).2 = some (.breakpoint b.id) ∨
        ¬ s.Stops frame b ∧ (s.checkBreakpoint t frame b).2 = none) := by
  rw [checkBreakpoint]
  split
  · rename_i function
    have applies := appliesTo_iff.mp function
    have holds_of {hit : Bool} (ok : s.conditionHolds frame b = .ok hit) (c : String) (e : Error) :
        ¬ s.Fails frame b c e := by
      intro fails
      rw [(fails_iff.mp ⟨c, fails⟩).2] at ok
      cases ok
    split
    · rename_i no
      have misses : ¬ s.Hits frame b := by
        intro hits
        rw [(hits_iff.mp hits).2] at no
        cases no
      exact ⟨[], .of_not_hits (holds_of no) misses, rfl,
        .inr ⟨not_stops (holds_of no) fun hits => absurd hits misses, rfl⟩⟩
    · rename_i yes
      have hits := hits_iff.mpr ⟨applies, yes⟩
      split
      · rename_i expression prints
        obtain ⟨notices, reports, sent⟩ := logPoint_reports (t := t) going hits prints
        have passes : s.Hits frame b → b.expression ≠ none := by simp [prints]
        exact ⟨notices, reports, sent, .inr ⟨not_stops (holds_of yes) passes, rfl⟩⟩
      · rename_i plain
        exact ⟨[], .silent (holds_of yes) fun _ => plain, rfl, .inl ⟨.inl ⟨hits, plain⟩, rfl⟩⟩
    · rename_i e fault
      obtain ⟨c, fails⟩ := fails_iff.mpr ⟨applies, fault⟩
      have text : b.condition.getD "" = c := by rw [fails.2.1, Option.getD_some]
      refine ⟨_, .failed fails, by rw [text]; rfl, ?_⟩
      dsimp only
      split
      · rename_i suspends
        exact .inl ⟨.inr ⟨⟨c, e, fails⟩, suspends⟩, rfl⟩
      · rename_i goes_on
        refine .inr ⟨?_, rfl⟩
        rintro (⟨hits, -⟩ | ⟨-, suspends⟩)
        · rw [(hits_iff.mp hits).2] at fault
          cases fault
        · exact goes_on suspends
  · rename_i elsewhere
    have misses : ¬ s.Hits frame b := fun hits => elsewhere (appliesTo_iff.mpr hits.1)
    have holds (c : String) (e : Error) : ¬ s.Fails frame b c e :=
      fun fails => elsewhere (appliesTo_iff.mpr fails.1)
    exact ⟨[], .of_not_hits holds misses, rfl,
      .inr ⟨not_stops holds fun hits => absurd hits misses, rfl⟩⟩

theorem Looks.stops_iff (looks : Looks s s') (frame : FrameRef) (b : Breakpoint) :
    s'.Stops frame b ↔ s.Stops frame b := by
  rw [looks]
  exact Iff.rfl

/-- What a breakpoint reports depends on the program and the settings, which looking at others
leaves alone. -/
theorem Looks.reports (looks : Looks s s') {notices : List Wire.Unnumbered}
    (h : Reports s' t frame b notices) : Reports s t frame b notices := by
  rw [looks] at h
  cases h with
  | failed fails => exact .failed fails
  | printed hits prints value resolvers => exact .printed (s := s) hits prints value resolvers
  | complained hits prints fault => exact .complained hits prints fault
  | silent holds plain => exact .silent holds plain

/-- The breakpoints that are checked, up to the first that stops the thread, and why it stops. -/
inductive Checks (s : Session) (frame : FrameRef) :
    List Breakpoint → List Breakpoint → Option StopReason → Prop
  | passed {breakpoints : List Breakpoint} (harmless : ∀ b ∈ breakpoints, ¬ s.Stops frame b) :
      Checks s frame breakpoints breakpoints none
  | stopped {before : List Breakpoint} {b : Breakpoint}
      (harmless : ∀ b' ∈ before, ¬ s.Stops frame b') (stops : s.Stops frame b)
      (after : List Breakpoint) :
      Checks s frame (before ++ b :: after) (before ++ [b]) (some (.breakpoint b.id))

/-- Which breakpoints are checked, and what they decide, is not changed by what was looked at
before. -/
theorem Looks.checks (looks : Looks s s') {breakpoints checked : List Breakpoint}
    {reason : Option StopReason} (h : Checks s' frame breakpoints checked reason) :
    Checks s frame breakpoints checked reason := by
  cases h with
  | passed harmless =>
      exact .passed fun b member stops => harmless b member ((looks.stops_iff frame b).mpr stops)
  | stopped harmless stops after =>
      exact .stopped (fun b member stops => harmless b member ((looks.stops_iff frame b).mpr stops))
        ((looks.stops_iff frame _).mp stops) after

/-- A breakpoint that does not stop its thread is checked and passed over, and the rest are checked
as if it were not there. -/
theorem Checks.cons {breakpoints checked : List Breakpoint} {reason : Option StopReason}
    (passes : ¬ s.Stops frame b) (h : Checks s frame breakpoints checked reason) :
    Checks s frame (b :: breakpoints) (b :: checked) reason := by
  cases h with
  | passed harmless => exact .passed (List.forall_mem_cons.mpr ⟨passes, harmless⟩)
  | stopped harmless stops after =>
      exact .stopped (List.forall_mem_cons.mpr ⟨passes, harmless⟩) stops after

/-- The breakpoints at a line are checked in order, no further than to the first that stops the
thread, which is the one it stops for. Each of those that are checked reports for itself. -/
theorem checkBreakpoints_inOrder (going : s.finished = false) (t : Thread) (frame : FrameRef)
    (breakpoints : List Breakpoint) : ∃ checked notices,
      Checks s frame breakpoints checked (s.checkBreakpoints t frame breakpoints).2 ∧
      List.Forall₂ (Reports s t frame) checked notices ∧
      (s.checkBreakpoints t frame breakpoints).1.outbox = s.outbox.notifyAll notices.flatten := by
  induction breakpoints generalizing s with
  | nil => exact ⟨[], [], .passed nofun, .nil, rfl⟩
  | cons b rest ih =>
      obtain ⟨first, reports, sent, result⟩ := checkBreakpoint_reports going t frame b
      have looks := s.checkBreakpoint_looks t frame b
      rw [checkBreakpoints]
      cases checked : s.checkBreakpoint t frame b with
      | mk s₁ reason =>
          rw [checked] at sent result looks
          rcases result with ⟨stops, same⟩ | ⟨passes, same⟩
          · obtain rfl : reason = some (.breakpoint b.id) := same
            have order : Checks s frame (b :: rest) [b] (some (.breakpoint b.id)) :=
              @Checks.stopped s frame [] b nofun stops rest
            refine ⟨[b], [first], order, .cons reports .nil, ?_⟩
            rw [List.flatten_singleton]
            exact sent
          · obtain rfl : reason = none := same
            obtain ⟨others, notices, order, all, sent'⟩ := ih (looks.serves.finished.trans going)
            refine ⟨b :: others, first :: notices, (looks.checks order).cons passes,
              .cons reports (all.imp fun _ _ => looks.reports), ?_⟩
            rw [List.flatten_cons, Wire.Outbox.notifyAll_append, ← sent]
            exact sent'

/-- A session that goes on when a condition fails, with a runtime that cannot evaluate one of the
texts. -/
def lenient : Session :=
  start
    { config := { suspendOnBreakpointError := false }
      runtime := .ofEvaluator fun p _ text =>
        if text = "missing" then .error (.nameNotFound text)
          else .ok (.bool (text != "idle"), p.heap) }
    {}

/-- Breakpoints of every kind at one line; the last one comes after the one that stops the
thread. -/
def crowdedLine : List Breakpoint :=
  let location : Source.Location := ⟨"/app/main.x", 3⟩
  [{ id := 1, location := location, function := some "other" },
    { id := 2, location := location, condition := some "idle" },
    { id := 3, location := location, condition := some "missing" },
    { id := 4, location := location, expression := some "ready" },
    { id := 5, location := location, expression := some "missing" },
    { id := 6, location := location, condition := some "ready" },
    { id := 7, location := location, condition := some "missing" }]

/-- Of the breakpoints before the deciding one, three have something to report, and the one after it
is not reached. -/
theorem crowdedLine_inOrder :
    (lenient.checkBreakpoints { ref := ⟨"t", "main"⟩ } 0 crowdedLine).2 = some (.breakpoint 6) ∧
      (lenient.checkBreakpoints { ref := ⟨"t", "main"⟩ } 0 crowdedLine).1.outbox.messages.length =
        3 ∧
      ∃ checked notices,
        Checks lenient 0 crowdedLine checked
          (lenient.checkBreakpoints { ref := ⟨"t", "main"⟩ } 0 crowdedLine).2 ∧
        List.Forall₂ (Reports lenient { ref := ⟨"t", "main"⟩ } 0) checked notices ∧
        (lenient.checkBreakpoints { ref := ⟨"t", "main"⟩ } 0 crowdedLine).1.outbox =
          lenient.outbox.notifyAll notices.flatten :=
  ⟨by decide +kernel, by decide +kernel, checkBreakpoints_inOrder rfl _ 0 crowdedLine⟩

end Session

end RemoteDebugger
