import RemoteDebugger.Proofs.Program.Slot
import RemoteDebugger.Proofs.Session.Place

/-!
# Assignments

An assignment evaluates an expression and gives its value to a local variable of a frame or to a
child of a value. It is refused as a whole or carried out as a whole. If it is refused then the
program is what it was, even if evaluating the expression has added to the heap. If it is carried
out then one local variable or one slot has the value, and nothing else is different.
-/

namespace RemoteDebugger

namespace Program

/-- The second program is the first one after a local variable of a frame has got a value. -/
structure AssignsLocal (p : Program) (r : FrameRef) (name : String) (v : Value) (q : Program) :
    Prop where
  locals : (p.frame r).locals.Assigns name v (q.frame r).locals
  rest : { q.frame r with locals := (p.frame r).locals } = p.frame r
  others : ∀ f ≠ r, q.frame f = p.frame f
  size : q.frames.size = p.frames.size
  heap : q.heap = p.heap

/-- A change of one frame is seen in this frame only. Outside the program there is nothing to
change. -/
@[simp] theorem frame_modifyFrame {p : Program} {r : FrameRef} (inside : r < p.frames.size)
    (change : Frame → Frame)
    (f : FrameRef) : (p.modifyFrame r change).frame f = if f = r then change (p.frame f)
      else p.frame f := by
  simp only [frame, modifyFrame, Array.getD_eq_getD_getElem?, Array.getElem?_modify]
  by_cases same : f = r
  · subst same
    simp [inside]
  · simp [same, Ne.symm same]

/-- A local of a frame that can be changed takes the value, and the other locals keep theirs. -/
theorem assignsLocal_setLocal {p : Program} {r : FrameRef} (inside : r < p.frames.size)
    (editable : (p.frame r).editable = true) (name : String) (v : Value) :
    ∃ q, p.setLocal r name v = .ok q ∧ p.AssignsLocal r name v q := by
  refine ⟨_, if_pos editable, ?_⟩
  have here := frame_modifyFrame inside fun f => { f with locals := f.locals.insert name v }
  constructor
  case locals =>
    rw [here, if_pos rfl]
    exact Bindings.assigns_insert _ name v
  case rest => rw [here, if_pos rfl]
  case others =>
    intro f other
    rw [here, if_neg other]
  case size => exact Array.size_modify
  case heap => rfl

end Program

namespace View

/-- An expression has a value in the frame, and evaluating it has changed no container. -/
structure Values (w : View) (expression : String) (v : Value) (h : Heap) : Prop where
  value : w.runtime.evaluate w.program w.frame expression = .ok (v, h)
  grown : w.program.heap.Grows h

/-- What a path from a local variable leads to in a heap. -/
def locate (w : View) (r : Registry) (h : Heap) (path : List String) :
    Except Error (Option Value) :=
  (((w.resolve .frame path).run h).run.run r).1.map Prod.fst

/-- Why an assignment to a path fails. -/
inductive Refuses (w : View) (r : Registry) (expression : String) : List String → Error → Prop
  | noName : Refuses w r expression [] (.invalidPayload "variable path" "")
  | noValue {path : List String} {e : Error} (given : path ≠ [])
      (failed : w.runtime.evaluate w.program w.frame expression = .error e) :
        Refuses w r expression path e
  | readOnly {name : String} {v : Value} {h : Heap} (values : w.Values expression v h)
      (fixed : w.here.editable = false) :
        Refuses w r expression [name] (.unsupported "set local variable")
  | noParent {parentPath : List String} {name : String} {v : Value} {h : Heap} {e : Error}
      (values : w.Values expression v h) (inner : parentPath ≠ [])
      (lost : w.locate r h parentPath = .error e) : Refuses w r expression (parentPath ++ [name]) e
  | noSlot {parentPath : List String} {name : String} {v parent : Value} {h : Heap}
      (values : w.Values expression v h) (inner : parentPath ≠ [])
      (located : w.locate r h parentPath = .ok (some parent))
      (missing : ∀ slot, ¬ h.Denotes name parent slot) :
      Refuses w r expression (parentPath ++ [name]) (Heap.assignmentFault parent name)

/-- What an assignment to a path does to the program: one slot is written, and everything else
stays. -/
inductive Assigns (w : View) (r : Registry) (expression : String) : List String → Program → Prop
  | toLocal {name : String} {v : Value} {h : Heap} {q : Program} (values : w.Values expression v h)
      (editable : w.here.editable = true)
      (assigned : Program.AssignsLocal { w.program with heap := h } w.frame name v q) :
      Assigns w r expression [name] q
  | toChild {parentPath : List String} {name : String} {v parent : Value} {h : Heap} {slot : Slot}
      {q : Program}
      (values : w.Values expression v h) (inner : parentPath ≠ [])
      (located : w.locate r h parentPath = .ok (some parent))
      (denotes : ∀ other, h.Denotes name parent other ↔ other = slot)
      (writes : h.Writes slot v q.heap) (frames : q.frames = w.program.frames)
      /- The value is found under the name, if the keys of a dictionary have kept their texts. They
      have if none of them holds the dictionary. -/
      (found : h.KeepsNames q.heap parent →
        (Registry.builtin.find parent).resolve q.heap parent name = .ok v)
      (keeps : (∀ d, parent = .dict d → ∀ e ∈ h.dicts.get d, ¬ Value.Reaches h e.1 parent) →
        h.KeepsNames q.heap parent) :
      Assigns w r expression (parentPath ++ [name]) q

/-- Assign a value to a child of what a path has led to. -/
def assignInto (w : View) (parentPath : List String) (name : String) (v : Value) :
    Option Value → Inspect (Value × Program)
  | none => throw (.invalidPayload "variable path" (".".intercalate parentPath))
  | some parent => do
    set (← (← get).assignChild parent name v)
    pure (v, { w.program with heap := ← get })

/-- Assign a value to a local variable or to a child of what a path leads to. -/
def assign (w : View) (name : String) (v : Value) : List String → Inspect (Value × Program)
  | [] => do pure (v, ← { w.program with heap := ← get }.setLocal w.frame name v)
  | parentPath => w.resolve .frame parentPath >>= w.assignInto parentPath name v

/-- A variable below the top is a child of a container, which is looked for first. -/
theorem assign_of_ne_nil {w : View} {name : String} {v : Value} {parentPath : List String}
    (inner : parentPath ≠ []) :
    w.assign name v parentPath = w.resolve .frame parentPath >>= w.assignInto parentPath
      name v := by
  cases parentPath with
  | nil => exact absurd rfl inner
  | cons first rest => rfl

/-- The expression is evaluated before the path is followed. If it fails, the path does not
matter. -/
theorem change_concat (w : View) (parentPath : List String) (name expression : String) :
    w.change (parentPath ++ [name]) expression =
      w.evaluate expression >>= (w.assign name · parentPath) := by
  rw [change, List.getLast?_concat, List.dropLast_concat]
  cases parentPath <;> rfl

section

variable {w : View} {r : Registry} {parentPath : List String} {name : String} {v parent : Value}
  {h : Heap}
  {e : Error}

/-- Evaluating the new value leaves the decisions of the resolvers alone. -/
theorem run_evaluate (w : View) (expression : String) (r : Registry) :
    ((w.evaluate expression).run w.program.heap).run.run r =
      (w.runtime.evaluate w.program w.frame expression, r) := by
  change ((liftM (w.runtime.evaluate w.program w.frame expression) >>= fun found =>
    set found.2 >>= fun _ => pure found.1 : Inspect Value).run w.program.heap).run.run r = _
  cases w.runtime.evaluate w.program w.frame expression <;> rfl

/-- A local is assigned in the program that holds the heap of the evaluation. -/
theorem run_assign_nil (w : View) (name : String) (v : Value) (h : Heap) (r : Registry) :
    ((w.assign name v []).run h).run.run r =
      (({ w.program with heap := h }.setLocal w.frame name v).map fun q => ((v, q), h), r) := by
  rw [assign, Inspect.run_bind]
  change ((liftM ({ w.program with heap := h }.setLocal w.frame name v) >>= fun q => pure (v, q) :
    Inspect (Value × Program)).run h).run.run r = _
  cases { w.program with heap := h }.setLocal w.frame name v <;> rfl

/-- Once the container has been found, the child is replaced in the heap or the assignment fails.
Either way the decisions made on the way are kept. -/
theorem run_assign_of_located {r' : Registry} (inner : parentPath ≠ [])
    (looked : ((w.resolve .frame parentPath).run h).run.run r = (.ok (some parent, h), r')) :
    ((w.assign name v parentPath).run h).run.run r =
      ((h.assignChild parent name v).map fun h' => ((v, { w.program with heap := h' }), h'),
        r') := by
  rw [assign_of_ne_nil inner, Inspect.run_bind, looked]
  change ((liftM (h.assignChild parent name v) >>= fun h' => set h' >>= fun _ =>
    pure (v, { w.program with heap := h' }) : Inspect (Value × Program)).run h).run.run r' = _
  cases h.assignChild parent name v <;> rfl

/-- An assignment is refused, or it finds the program after the assignment. -/
inductive Outcome (w : View) (r : Registry) (expression : String) (path : List String) :
    Except Error ((Value × Program) × Heap) → Prop
  | refused {e : Error} (refuses : w.Refuses r expression path e) :
      Outcome w r expression path (.error e)
  | carriedOut {v : Value} {q : Program} (assigns : w.Assigns r expression path q) :
      Outcome w r expression path (.ok ((v, q), q.heap))

variable (entries : r.entries = Registry.builtin.entries)
  (closed : w.program.IsClosed) {expression : String}
  (values : w.Values expression v h)

include values in
/-- Assigning a local comes out as it should: the variable has the value, or the assignment fails
for a reason that is told. -/
theorem outcome_assign_local (inside : w.frame < w.program.frames.size) :
    w.Outcome r expression [name] (((w.assign name v []).run h).run.run r).1 := by
  rw [run_assign_nil]
  cases editable : w.here.editable with
  | true =>
      obtain ⟨q, assigned, assigns⟩ :=
        Program.assignsLocal_setLocal (p := { w.program with heap := h }) inside editable name v
      rw [assigned]
      have same : q.heap = h := assigns.heap
      change w.Outcome r expression [name] (.ok ((v, q), h))
      rw [← same]
      exact .carriedOut (.toLocal values editable assigns)
  | false =>
      have refused : { w.program with heap := h }.setLocal w.frame name v =
          .error (.unsupported "set local variable") := if_neg (ne_true_of_eq_false editable)
      rw [refused]
      exact .refused (.readOnly values editable)

include entries closed values in
/-- Assigning a child comes out as it should, whatever the containers on the path are. Finding the
container may already fail. -/
theorem outcome_assign_child (inner : parentPath ≠ []) :
    w.Outcome r expression (parentPath ++ [name])
      (((w.assign name v parentPath).run h).run.run r).1 := by
  have reads := w.reads_resolve closed values.grown inner
  cases looked : ((w.resolve .frame parentPath).run h).run.run r with
  | mk result r' =>
      cases result with
      | error e =>
          rw [assign_of_ne_nil inner, Inspect.run_bind, looked]
          refine .refused (.noParent values inner ?_)
          rw [locate, looked]
          rfl
      | ok found =>
          -- the path has left the heap as it was, and leads to a container that was there before
          -- evaluation
          obtain ⟨_, h'⟩ := found
          obtain ⟨rfl, -, parent, rfl, held⟩ := reads _ _ _ _ entries looked
          have located : w.locate r h' parentPath = .ok (some parent) := by
            rw [locate, looked]
            rfl
          rw [run_assign_of_located inner looked]
          by_cases denoted : ∃ slot, h'.Denotes name parent slot
          · obtain ⟨slot, denotes⟩ := denoted
            obtain ⟨h'', assigned, writes⟩ :=
              Heap.assignChild_of_denotes (values.grown.holds held) denotes v
            have only (other : Slot) : h'.Denotes name parent other ↔ other = slot :=
              ⟨denotes.unique, fun same => same ▸ denotes⟩
            rw [assigned]
            exact .carriedOut (.toChild values inner located only writes rfl
              (writes.resolve denotes)
              (writes.keepsNames denotes))
          · have missing := not_exists.mp denoted
            rw [Heap.assignChild_of_not_denotes missing]
            exact .refused (.noSlot values inner located missing)

end

/-- Every assignment is refused or carried out. -/
theorem outcome_change {w : View} {r : Registry} (entries : r.entries = Registry.builtin.entries)
    (quiet : w.runtime.evaluate.ChangesNothing) (closed : w.program.IsClosed)
    (inside : w.frame < w.program.frames.size) (path : List String) (expression : String) :
    w.Outcome r expression path (((w.change path expression).run w.program.heap).run.run r).1 := by
  obtain rfl | ⟨parentPath, name, rfl⟩ := List.eq_nil_or_concat' path
  · exact .refused .noName
  · rw [change_concat, Inspect.run_bind, run_evaluate]
    cases evaluated : w.runtime.evaluate w.program w.frame expression with
    | error e =>
        exact .refused (.noValue (List.append_ne_nil_of_right_ne_nil _ (List.cons_ne_nil _ _))
          evaluated)
    | ok found =>
        obtain ⟨v, h⟩ := found
        have values : w.Values expression v h := ⟨evaluated, quiet _ _ _ _ _ evaluated⟩
        by_cases single : parentPath = []
        · subst single
          exact outcome_assign_local values inside
        · exact outcome_assign_child entries closed values single

end View

namespace Program

/-- The frames on a stack are no later than its top, since callers come first. -/
theorem le_of_mem_stack {p : Program} {top r : FrameRef} (member : r ∈ p.stack top) : r ≤ top := by
  induction top using Nat.strongRecOn with
  | ind top ih =>
      cases called : p.caller? top with
      | none =>
          rw [stack_of_outermost called] at member
          exact Nat.le_of_eq (List.mem_singleton.mp member)
      | some c =>
          rw [stack_of_called called] at member
          have below := caller?_lt called
          obtain rfl | deeper := List.mem_cons.mp member
          · exact Nat.le_refl _
          · exact Nat.le_trans (ih c below deeper) (Nat.le_of_lt below)

end Program

/-- A selected frame is one of the stack of the thread, and so no later than its top. -/
theorem FrameSelector.find_le {p : Program} {top r : FrameRef} {selector : FrameSelector}
    (found : selector.find p top = .ok r) : r ≤ top := by
  cases selector with
  | top => exact Nat.le_of_eq (Except.ok.inj found).symm
  | id n =>
      rw [find] at found
      split at found
      next here =>
        obtain rfl := Except.ok.inj found
        exact Program.le_of_mem_stack (List.mem_of_find?_eq_some here)
      next => cases found

namespace Session

/-- How a session reacts to the request to assign an expression to a path in a frame. -/
inductive Reacts (s : Session) (seq : Int) (top : FrameRef) (selector : FrameSelector)
    (path : List String) (expression : String) (s' : Session) : Prop
  | noFrame {e : Error} (missing : selector.find s.program top = .error e)
      (unchanged : s'.program = s.program)
      (answer : s'.outbox = s.outbox.respond .error seq e.message)
  | refused {w : View} {e : Error} (frame : s.view top selector = .ok w)
      (refuses : w.Refuses s.resolvers expression path e) (unchanged : s'.program = s.program)
      (answer : s'.outbox = s.outbox.respond .error seq e.message)
  | carriedOut {w : View} {payload : String} (frame : s.view top selector = .ok w)
      (assigns : w.Assigns s.resolvers expression path s'.program)
      (answer : s'.outbox = s.outbox.respond .result seq payload)

def showAssigned (s : Session) (path : List String) (changed : Value × Program) :
    Inspect (Program × String) := do
  set changed.2.heap
  pure (changed.2, ← s.showVariables [(path.getLast?.getD "", changed.1)])

/-- Assign in a selected frame and show the value. -/
def assignment (s : Session) (top : FrameRef) (selector : FrameSelector) (path : List String)
    (expression : String) : Inspect (Program × String) := do
  (← s.view top selector).change path expression >>= s.showAssigned path

/-- The program and the answer after an assignment has been tried. -/
def conclude (seq : Int) (tried : Session × Except Error (Program × String)) : Session :=
  match tried.2 with
  | .ok (program, payload) => ({ tried.1 with program := program }).respond .result seq payload
  | .error e => tried.1.respondError seq e

section

variable {s : Session} {top : FrameRef} {selector : FrameSelector} {path : List String}
  {expression : String}
  {w : View} {e : Error} {v : Value} {q : Program} {h : Heap} {r : Registry}

/-- Without the frame there is no assignment, and nothing has been decided or stored. -/
theorem run_assignment_of_noFrame (missing : selector.find s.program top = .error e)
    (path : List String) (expression : String) :
    ((s.assignment top selector path expression).run h).run.run r = (.error e, r) := by
  rw [assignment, Inspect.run_bind, view, missing]
  rfl

/-- In a frame that is found, an assignment is the change of a variable followed by showing it. -/
theorem run_assignment_of_view (viewed : s.view top selector = .ok w) :
    ((s.assignment top selector path expression).run h).run.run r =
      ((w.change path expression >>= s.showAssigned path).run h).run.run r := by
  have selected : ((liftM (.ok w : Except Error View) : Inspect View).run h).run.run r =
      (.ok (w, h), r) := rfl
  rw [assignment, viewed, Inspect.run_bind, selected]

theorem run_assignment_of_error {r' : Registry} (viewed : s.view top selector = .ok w)
    (refused : ((w.change path expression).run h).run.run r = (.error e, r')) :
    ((s.assignment top selector path expression).run h).run.run r = (.error e, r') := by
  rw [run_assignment_of_view viewed, Inspect.run_bind, refused]

/-- A change that has succeeded is shown, and showing it does not fail. What is added to the heap by
showing is not kept. -/
theorem run_assignment_of_ok {h' : Heap} {r' : Registry} (viewed : s.view top selector = .ok w)
    (changed : ((w.change path expression).run h).run.run r = (.ok ((v, q), h'), r')) :
    ∃ payload r'', ((s.assignment top selector path expression).run h).run.run r =
      (.ok ((q, payload), q.heap), r'') := by
  rw [run_assignment_of_view viewed, Inspect.run_bind, changed]
  exact ⟨_, _, rfl⟩

/-- The request is the assignment with its answer. The decisions of the resolvers are kept in any
case, the program only if the assignment succeeds. -/
theorem changeVariable_eq (s : Session) (seq : Int) (top : FrameRef) (selector : FrameSelector)
    (path : List String) (expression : String) :
    s.changeVariable seq top selector path expression =
      conclude seq (s.inspect (s.assignment top selector path expression)) := by
  rw [changeVariable, conclude]
  rfl

/-- An assignment that fails is answered with its error, and the program is as it was. -/
theorem changeVariable_of_error {r' : Registry} (seq : Int)
    (refused : ((s.assignment top selector path expression).run s.program.heap).run.run
      s.resolvers =
      (.error e, r')) :
    s.changeVariable seq top selector path expression =
      { s with resolvers := r' }.respondError seq e := by
  rw [changeVariable_eq, inspect, refused]
  rfl

/-- An assignment that succeeds is answered with the new value, and the program is the changed
one. -/
theorem changeVariable_of_ok {payload : String} {r' : Registry} (seq : Int)
    (changed : ((s.assignment top selector path expression).run s.program.heap).run.run
      s.resolvers =
      (.ok ((q, payload), h), r')) :
    s.changeVariable seq top selector path expression =
      { s with resolvers := r', program := q }.respond .result seq payload := by
  rw [changeVariable_eq, inspect, changed]
  rfl

end

/-- A request to assign is refused with its cause, and then the program is as before, or it is
carried out, and then one local variable or one slot has the new value and can be read back. -/
theorem assignment_is_all_or_nothing {s : Session} {top : FrameRef}
    (builtin : s.resolvers.entries = Registry.builtin.entries)
    (quiet : s.runtime.evaluate.ChangesNothing)
    (closed : s.program.IsClosed) (inside : top < s.program.frames.size) (seq : Int)
    (selector : FrameSelector) (path : List String) (expression : String) :
    s.Reacts seq top selector path expression
      (s.changeVariable seq top selector path expression) := by
  cases found : selector.find s.program top with
  | error e =>
      rw [changeVariable_of_error seq (run_assignment_of_noFrame found path expression)]
      exact .noFrame found rfl rfl
  | ok f =>
      have viewed : s.view top selector = .ok ⟨s.program, s.runtime, f⟩ := by
        rw [view, found]
        rfl
      have outcome := View.outcome_change (w := ⟨s.program, s.runtime, f⟩) builtin quiet closed
        (Nat.lt_of_le_of_lt (FrameSelector.find_le found) inside) path expression
      cases changed : ((View.change ⟨s.program, s.runtime, f⟩ path expression).run
        s.program.heap).run.run
          s.resolvers with
      | mk result r' =>
          rw [changed] at outcome
          cases outcome with
          | refused refuses =>
              rw [changeVariable_of_error seq (run_assignment_of_error viewed changed)]
              exact .refused viewed refuses rfl rfl
          | carriedOut assigns =>
              obtain ⟨payload, r'', assigned⟩ := run_assignment_of_ok viewed changed
              rw [changeVariable_of_ok seq assigned]
              exact .carriedOut viewed assigns rfl

/-- A program whose only variable is a dictionary that holds itself. -/
def prices : Program where
  heap := { dicts := ⟨#[[(.str "tea", .int 3), (.str "all", .dict 0)]]⟩ }
  frames := #[{ id := 1, function := "main", file := "/app/main.py", line := 3,
                locals := [("prices", .dict 0)] }]

/-- A value in the dictionary is assigned on a path that goes through the dictionary twice. -/
theorem tea_is_assigned :
    (start {} prices).Reacts 9 0 .top ["prices", "'all'", "'tea'"] "2 + 2"
        ((start {} prices).changeVariable 9 0 .top ["prices", "'all'", "'tea'"] "2 + 2") ∧
      ((start {} prices).changeVariable 9 0 .top ["prices", "'all'",
        "'tea'"] "2 + 2").program.heap.dicts.get 0 =
        [(.str "tea", .int 4), (.str "all", .dict 0)] := by
  have closed : (start {} prices).program.IsClosed := ⟨⟨by decide, by decide⟩, by decide⟩
  exact ⟨assignment_is_all_or_nothing rfl Expr.evaluate_changesNothing closed
    (by decide) 9 .top _ _, rfl⟩

end Session

end RemoteDebugger
