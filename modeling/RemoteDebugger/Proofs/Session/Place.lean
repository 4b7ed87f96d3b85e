import RemoteDebugger.Proofs.Session.Effect

/-!
# Frames stay where they are

A command that a running thread carries out can assign a variable, but it moves no frame: only the
values of locals and the heap differ afterwards. The place of an event is therefore the same before
and after the commands that wait for its thread.
-/

namespace RemoteDebugger

namespace Program

/-- A frame stands on the stack of its caller. The recursion of a stack is hidden behind this
equation and the next. -/
theorem stack_of_called {p : Program} {f c : FrameRef} (h : p.caller? f = some c) :
    p.stack f = f :: p.stack c := by
  rw [stack]
  split
  · rename_i c' called
    obtain rfl := Option.some.inj (called.symm.trans h)
    rfl
  · rename_i outermost
    rw [h] at outermost
    cases outermost

/-- A frame without a caller is alone on its stack. -/
theorem stack_of_outermost {p : Program} {f : FrameRef} (h : p.caller? f = none) :
    p.stack f = [f] := by
  rw [stack]
  split
  · rename_i c called
    rw [h] at called
    cases called
  · rfl

/-- The frames of two programs are the same but for the values of their locals. -/
def SameFrames (p q : Program) : Prop :=
  ∀ r, { q.frame r with locals := (p.frame r).locals } = p.frame r

namespace SameFrames

variable {p q r : Program}

theorem refl (p : Program) : SameFrames p p := fun _ => rfl

theorem of_frames (h : q.frames = p.frames) : SameFrames p q := by
  intro f
  simp [frame, h]

theorem trans (first : SameFrames p q) (second : SameFrames q r) : SameFrames p r := by
  intro f
  rw [← first f, ← second f]

theorem file (h : SameFrames p q) (f : FrameRef) : (q.frame f).file = (p.frame f).file := by
  rw [← h f]

theorem line (h : SameFrames p q) (f : FrameRef) : (q.frame f).line = (p.frame f).line := by
  rw [← h f]

theorem function (h : SameFrames p q) (f : FrameRef) :
    (q.frame f).function = (p.frame f).function := by
  rw [← h f]

theorem symm (h : SameFrames p q) : SameFrames q p := by
  intro f
  rw [← h f]

theorem caller? (h : SameFrames p q) (f : FrameRef) : q.caller? f = p.caller? f := by
  rw [Program.caller?, Program.caller?, ← h f]

/-- Programs with the same frames have the same stacks. -/
theorem stack (h : SameFrames p q) (f : FrameRef) : q.stack f = p.stack f := by
  induction f using Nat.strongRecOn with
  | ind f ih =>
      cases called : p.caller? f with
      | some c =>
          have called' := (h.caller? f).trans called
          rw [stack_of_called called, stack_of_called called', ih c (caller?_lt called)]
      | none =>
          have outermost := (h.caller? f).trans called
          rw [stack_of_outermost called, stack_of_outermost outermost]

theorem depth (h : SameFrames p q) (f : FrameRef) : q.depth f = p.depth f := by
  rw [Program.depth, Program.depth, h.stack]

end SameFrames

/-- Storing a local leaves the frames, their files and their lines in place. Only the values may
differ. -/
theorem setLocal_sameFrames {p q : Program} {r : FrameRef} {name : String} {value : Value}
    (h : p.setLocal r name value = .ok q) : SameFrames p q := by
  rw [setLocal] at h
  split at h
  · obtain rfl := Except.ok.inj h
    intro f
    rw [frame, frame, modifyFrame]
    simp only [Array.getD_eq_getD_getElem?, Array.getElem?_modify]
    split
    · subst f
      cases p.frames[r]? <;> rfl
    · rfl
  · cases h

end Program

/-- A change of a variable may reach into the heap or into a local. In neither case does it move a
frame. -/
theorem View.change_sameFrames (w : View) (path : List String) (expression : String) :
    (w.change path expression).Ensures fun found => w.program.SameFrames found.2 := by
  rw [change]
  split
  · exact .failed _
  · refine .after fun value => ?_
    split
    · refine .after fun h => .bind (Q := w.program.SameFrames) (.lift fun q assigned => ?_) ?_
      · have same := Program.setLocal_sameFrames (p := { w.program with heap := h }) assigned
        exact (Program.SameFrames.of_frames rfl).trans same
      · exact fun q same => .found same
    · refine .after fun parent => ?_
      split
      · exact .failed _
      · exact .after fun _ => .after fun _ => .after fun _ => .after fun _ =>
          .found (Program.SameFrames.of_frames rfl)

namespace Session

/-- A view of a frame is a view of the program the session is about, not of a copy from before. -/
theorem view_program {s : Session} {top : FrameRef} {selector : FrameSelector} {w : View}
    (h : s.view top selector = .ok w) : w.program = s.program := by
  rw [view] at h
  cases found : selector.find s.program top with
  | error e => simp [found, Except.map] at h
  | ok r =>
      rw [found] at h
      rw [← Except.ok.inj h]

/-- A change of a variable moves no frame, so every place that a step compares with is where it was.
-/
theorem changeVariable_sameFrames (s : Session) (seq : Int) (top : FrameRef)
    (selector : FrameSelector) (path : List String) (expression : String) :
    s.program.SameFrames (s.changeVariable seq top selector path expression).program := by
  rw [changeVariable]
  split
  rename_i looked
  split
  · refine inspect_ensures (P := fun found => s.program.SameFrames found.1) ?_ looked
    refine .bind (Q := fun w => w.program = s.program) (.lift fun _ => view_program) ?_
    intro w same
    refine .bind (w.change_sameFrames path expression) fun found assigned => ?_
    exact .after fun _ => .after fun _ => .found (same ▸ assigned)
  · obtain ⟨rfl, -⟩ := Prod.ext_iff.mp looked
    exact Program.SameFrames.refl _

/-- A command of a running thread moves no frame. Only a jump does, which a running thread
refuses. -/
theorem execute_sameFrames (s : Session) (t : Thread) (top : FrameRef) (a : Action) :
    s.program.SameFrames (s.execute t top false a).1.program := by
  cases a with
  | changeVariable seq frame path expression =>
      exact s.changeVariable_sameFrames seq top frame path expression
  | resume | setNextStatement => exact Program.SameFrames.refl _
  | getVariable | getFrame | evaluate | completions | customOperation =>
      simp only [execute, (answer_looks _ _ _ _ _ _).program, Program.SameFrames.refl]
  | exceptionTrace | reloadCode =>
      simp only [execute]
      split <;> exact Program.SameFrames.refl _

/-- The commands that a thread carries out in passing move no frame. A jump among them is refused,
as the thread has not stopped. -/
theorem executeAll_sameFrames (s : Session) (t : Thread) (top : FrameRef)
    (commands : List QueuedCommand) :
    s.program.SameFrames (s.executeAll t top commands).program := by
  induction commands generalizing s with
  | nil => exact Program.SameFrames.refl _
  | cons c commands ih => exact (s.execute_sameFrames t top c.action).trans (ih _)

/-- The commands that wait for a running thread move no frame. -/
theorem runPending_sameFrames (s : Session) (t : Thread) (top : FrameRef) :
    s.program.SameFrames (s.runPending t top).program :=
  executeAll_sameFrames _ t top _

end Session

end RemoteDebugger
