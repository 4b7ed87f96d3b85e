import RemoteDebugger.Program.Runtime

/-!
# Evaluation step by step

An expression with two operands is evaluated from left to right: what it comes to is what its
operator makes of the values of its operands, in the heap that the second one leaves. The heap only
ever grows, because the one thing that evaluation adds to it is the list that two lists are joined
to.
-/

namespace RemoteDebugger

/-- The containers of the first store are in the second one, in their places and with their
contents. -/
def Store.Grows {α : Type} (s t : Store α) : Prop := s.cells.toList <+: t.cells.toList

namespace Store.Grows

variable {α : Type} {s t u : Store α}

theorem refl (s : Store α) : s.Grows s := List.prefix_refl _

theorem trans (first : s.Grows t) (second : t.Grows u) : s.Grows u :=
  List.IsPrefix.trans first second

theorem alloc (s : Store α) (content : α) : s.Grows (s.alloc content).2 :=
  ⟨[content], Array.toList_push.symm⟩

theorem size_le (grows : s.Grows t) : s.cells.size ≤ t.cells.size := List.IsPrefix.length_le grows

/-- A container that was there has its contents after the store has grown. -/
theorem get_eq [Inhabited α] (grows : s.Grows t) {r : Ref} (here : r < s.cells.size) :
    t.get r = s.get r := by
  obtain ⟨more, same⟩ := grows
  have found : t.cells[r]? = s.cells[r]? := by
    rw [← Array.getElem?_toList, ← Array.getElem?_toList, ← same]
    exact List.getElem?_append_left here
  rw [get, get, Array.getD_eq_getD_getElem?, Array.getD_eq_getD_getElem?, found]

end Store.Grows

/-- The containers of the first heap are in the second one, with their contents. -/
structure Heap.Grows (h h' : Heap) : Prop where
  lists : h.lists.Grows h'.lists
  tuples : h.tuples.Grows h'.tuples
  sets : h.sets.Grows h'.sets
  dicts : h.dicts.Grows h'.dicts
  objects : h.objects.Grows h'.objects

namespace Heap.Grows

variable {h h' h'' : Heap}

theorem refl (h : Heap) : h.Grows h := ⟨.refl _, .refl _, .refl _, .refl _, .refl _⟩

/-- A heap that grows twice has grown. -/
theorem trans (first : h.Grows h') (second : h'.Grows h'') : h.Grows h'' where
  lists := first.lists.trans second.lists
  tuples := first.tuples.trans second.tuples
  sets := first.sets.trans second.sets
  dicts := first.dicts.trans second.dicts
  objects := first.objects.trans second.objects

end Heap.Grows

/-- The heap after evaluating a text has all that was in it before. -/
def Evaluator.ChangesNothing (evaluate : Evaluator) : Prop :=
  ∀ p r text v h, evaluate p r text = .ok (v, h) → p.heap.Grows h

namespace Expr

section

variable {α β : Type} {x : Eval α} {next : α → Eval β} {f : Frame} {lhs rhs : Expr} {a b : Value}
  {h h₁ h₂ : Heap}

theorem run_bind_of_ok {v : α} (ran : x.run h = .ok (v, h₁)) :
    (x >>= next).run h = (next v).run h₁ := by
  rw [StateT.run_bind, ran]
  rfl

/-- What two operands are made into, if `next` makes it of their values. -/
theorem run_operands {next : Value → Value → Eval Value} (left : (eval f lhs).run h = .ok (a, h₁))
    (right : (eval f rhs).run h₁ = .ok (b, h₂)) :
    (do
      let a ← eval f lhs
      let b ← eval f rhs
      next a b : Eval Value).run h = (next a b).run h₂ :=
  (run_bind_of_ok left).trans (run_bind_of_ok right)

/-- The operators that need both operands. -/
def IsStrict (op : BinaryOp) : Prop := op ≠ .and ∧ op ≠ .or

instance (op : BinaryOp) : Decidable (IsStrict op) := inferInstanceAs (Decidable (_ ∧ _))

/-- A strict operator is applied to the values of both operands, in the heap that evaluating them
has left. -/
theorem run_binary {op : BinaryOp} (strict : IsStrict op) (left : (eval f lhs).run h = .ok (a, h₁))
    (right : (eval f rhs).run h₁ = .ok (b, h₂)) :
    (eval f (.binary op lhs rhs)).run h = (applyBinary op a b).run h₂ := by
  cases op with
  | and => exact absurd rfl strict.1
  | or => exact absurd rfl strict.2
  | _ =>
      simp only [eval]
      exact run_operands left right

theorem run_index (left : (eval f lhs).run h = .ok (a, h₁))
    (right : (eval f rhs).run h₁ = .ok (b, h₂)) :
    (eval f (.index lhs rhs)).run h = (subscript a b).run h₂ := by
  simp only [eval]
  exact run_operands left right

theorem run_unary {op : UnaryOp} (operand : (eval f lhs).run h = .ok (a, h₁)) :
    (eval f (.unary op lhs)).run h = (applyUnary op a).run h₁ := by
  simp only [eval]
  exact run_bind_of_ok operand

end

/-- A computation that leaves all containers as they are if it ends. -/
def Quiet {α : Type} (x : Eval α) : Prop := ∀ h v h', x.run h = .ok (v, h') → h.Grows h'

namespace Quiet

variable {α β : Type} {x : Eval α} {next : α → Eval β}

theorem pure (v : α) : Quiet (Pure.pure v : Eval α) := by
  intro h w h' ran
  cases ran
  exact .refl h

theorem throw (e : Error) : Quiet (MonadExcept.throw e : Eval α) := by
  intro h v h' ran
  cases ran

theorem get : Quiet (MonadState.get : Eval Heap) := by
  intro h v h' ran
  cases ran
  exact .refl h

/-- Computations one after the other are quiet if each of them is, whatever the first has found. -/
theorem bind (first : Quiet x) (rest : ∀ v, Quiet (next v)) : Quiet (x >>= next) := by
  intro h w h' ran
  rw [StateT.run_bind] at ran
  cases middle : x.run h with
  | error e =>
      rw [middle] at ran
      cases ran
  | ok found =>
      rw [middle] at ran
      exact (first h found.1 found.2 middle).trans (rest found.1 found.2 w h' ran)

end Quiet

/-- Taking an attribute changes nothing, whether it is there or not. -/
theorem quiet_attributeOf (base : Value) (id : String) : Quiet (attributeOf base id) := by
  rw [attributeOf.eq_def]
  split
  · refine .bind .get fun h => ?_
    split
    · exact .pure _
    · exact .throw _
  · exact .throw _

theorem quiet_element (items : List Value) (i : Int64) : Quiet (element items i) := by
  rw [element]
  split
  · exact .pure _
  · exact .throw _

/-- Taking an element changes nothing. No value computes its elements on demand. -/
theorem quiet_subscript (base key : Value) : Quiet (subscript base key) := by
  refine .bind .get fun h => ?_
  split
  · exact quiet_element _ _
  · exact quiet_element _ _
  · exact quiet_element _ _
  · split
    · exact .pure _
    · exact .throw _
  · exact .throw _

/-- The functions that can be called change nothing, whatever their arguments are. -/
theorem quiet_callBuiltin (function : String) (args : List Value) :
    Quiet (callBuiltin function args) := by
  refine .bind .get fun h => ?_
  split
  · split
    · split
      · split
        · exact .pure _
        · exact .throw _
      · split
        · exact .pure _
        · exact .pure _
    · exact .throw _
  · exact .throw _

theorem quiet_ofInt (n : Int) : Quiet (ofInt n) := by
  rw [ofInt]
  split
  · exact .pure _
  · exact .throw _

theorem quiet_applyUnary (op : UnaryOp) (v : Value) : Quiet (applyUnary op v) := by
  cases op with
  | not => exact .bind .get fun h => .pure _
  | neg =>
      rw [applyUnary.eq_def]
      dsimp only
      split
      · exact .pure _
      · split
        · exact quiet_ofInt _
        · exact .throw _

/-- Comparing changes nothing, whether the operands can be compared or not. -/
theorem quiet_compareValues (a b : Value) : Quiet (compareValues a b) := by
  rw [compareValues.eq_def]
  split
  · exact .pure _
  · split
    · exact .pure _
    · exact .throw _

theorem quiet_integerArithmetic (op : BinaryOp) (a b : Int) (mismatch : EvalFault) :
    Quiet (integerArithmetic op a b mismatch) := by
  cases op with
  | add | sub | mul => exact quiet_ofInt _
  | div =>
      rw [integerArithmetic]
      split
      · exact .throw _
      · exact .pure _
  | mod =>
      rw [integerArithmetic]
      split
      · exact .throw _
      · split
        · exact .throw _
        · exact quiet_ofInt _
  | _ => exact .throw _

theorem quiet_floatArithmetic (op : BinaryOp) (a b : Float) (mismatch : EvalFault) :
    Quiet (floatArithmetic op a b mismatch) := by
  cases op with
  | add | sub | mul => exact .pure _
  | div | mod =>
      rw [floatArithmetic]
      split
      · exact .throw _
      · exact .pure _
  | _ => exact .throw _

/-- Joining lists is what makes a heap grow. -/
theorem quiet_arithmetic (op : BinaryOp) (a b : Value) : Quiet (arithmetic op a b) := by
  rw [arithmetic.eq_def]
  dsimp only
  split
  · exact .pure _
  · intro h v h' ran
    cases ran
    exact { Heap.Grows.refl h with lists := .alloc h.lists _ }
  · split
    · exact quiet_integerArithmetic _ _ _ _
    · split
      · exact quiet_floatArithmetic _ _ _ _
      · exact .throw _

/-- No operator changes a container. The concatenation of lists makes a new one. -/
theorem quiet_applyBinary (op : BinaryOp) (a b : Value) : Quiet (applyBinary op a b) := by
  rw [applyBinary.eq_def]
  split
  · exact .bind .get fun h => .pure _
  · exact .bind .get fun h => .pure _
  · split
    · exact .bind (quiet_compareValues a b) fun o => .pure _
    · exact quiet_arithmetic _ a b

/-- An operator between quiet operands is quiet, also one that may leave out the right operand. -/
theorem quiet_binary {f : Frame} {lhs rhs : Expr} (op : BinaryOp) (left : Quiet (eval f lhs))
    (right : Quiet (eval f rhs)) : Quiet (eval f (.binary op lhs rhs)) := by
  have strict : Quiet (do
      let a ← eval f lhs
      let b ← eval f rhs
      applyBinary op a b : Eval Value) :=
    .bind left fun a => .bind right fun b => quiet_applyBinary op a b
  have lazily (first : Bool → Value → Eval Value) (either : ∀ t a, Quiet (first t a)) : Quiet (do
      let a ← eval f lhs
      first (a.isTruthy (← MonadState.get)) a : Eval Value) :=
    .bind left fun a => .bind .get fun h => either _ a
  cases op with
  | and =>
      simp only [eval]
      exact lazily (fun t a => if t then eval f rhs else Pure.pure a) fun t a => by
        cases t with
        | true => exact right
        | false => exact .pure a
  | or =>
      simp only [eval]
      exact lazily (fun t a => if t then Pure.pure a else eval f rhs) fun t a => by
        cases t with
        | true => exact .pure a
        | false => exact right
  | _ =>
      simp only [eval]
      exact strict

mutual

/-- Evaluation adds to the heap at most. -/
theorem quiet_eval (f : Frame) (e : Expr) : Quiet (eval f e) := by
  cases e with
  | literal l =>
      simp only [eval]
      exact .pure _
  | name id =>
      simp only [eval]
      split
      · exact .pure _
      · exact .throw _
  | attr base id =>
      simp only [eval]
      exact .bind (quiet_eval f base) fun v => quiet_attributeOf v id
  | index base position =>
      simp only [eval]
      exact .bind (quiet_eval f base) fun v => .bind (quiet_eval f position) fun k =>
        quiet_subscript v k
  | call callee args =>
      cases callee with
      | name function =>
          simp only [eval]
          exact .bind (quiet_evalAll f args) fun vs => quiet_callBuiltin function vs
      | _ =>
          simp only [eval]
          exact .throw _
  | unary op operand =>
      simp only [eval]
      exact .bind (quiet_eval f operand) fun v => quiet_applyUnary op v
  | binary op lhs rhs => exact quiet_binary op (quiet_eval f lhs) (quiet_eval f rhs)

theorem quiet_evalAll (f : Frame) (args : List Expr) : Quiet (evalAll f args) := by
  cases args with
  | nil =>
      simp only [evalAll]
      exact .pure _
  | cons e rest =>
      simp only [evalAll]
      exact .bind (quiet_eval f e) fun v => .bind (quiet_evalAll f rest) fun vs => .pure _

end

/-- The built-in evaluator changes no container. -/
theorem evaluate_changesNothing : Evaluator.ChangesNothing evaluate := by
  intro p r text v h evaluated
  rw [evaluate] at evaluated
  split at evaluated
  · cases evaluated
  · exact quiet_eval (p.frame r) _ p.heap v h evaluated

end Expr

end RemoteDebugger
