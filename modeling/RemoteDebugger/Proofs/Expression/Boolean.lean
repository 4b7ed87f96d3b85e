import RemoteDebugger.Proofs.Expression.Arithmetic

/-!
# Booleans among integers

A Boolean operand counts as zero or one. Arithmetic and order see no difference between a Boolean
and this integer: both fail, or both have the same result. Equality sees one, because it has no case
for a Boolean and a floating point number: they are never equal, although an integer and a floating
point number may be. So `True == 1.0` is false, while `1 == 1.0`, `True <= 1.0` and `True >= 1.0`
are true.
-/

namespace RemoteDebugger.Expr

/-- Both fail, or both end with the same value and the same heap. -/
def SameOutcome {α : Type} (r s : Except Error α) : Prop :=
  (∃ e e', r = .error e ∧ s = .error e') ∨ ∃ found, r = .ok found ∧ s = .ok found

/-- Two computations that fail in the same heaps, and otherwise have the same outcome. -/
def Alike {α : Type} (x y : Eval α) : Prop := ∀ h, SameOutcome (x.run h) (y.run h)

namespace Alike

variable {α β : Type} {x y : Eval α}

theorem refl (x : Eval α) : Alike x x := by
  intro h
  cases ran : x.run h with
  | error e => exact .inl ⟨e, e, rfl, rfl⟩
  | ok found => exact .inr ⟨found, rfl, rfl⟩

theorem failed (e e' : EvalFault) : Alike (fault e : Eval α) (fault e') :=
  fun _ => .inl ⟨.evaluation e, .evaluation e', rfl, rfl⟩

/-- Computations that are alike stay so, whatever is done with their results. -/
theorem bind (alike : Alike x y) (next : α → Eval β) : Alike (x >>= next) (y >>= next) := by
  intro h
  rw [StateT.run_bind, StateT.run_bind]
  obtain ⟨e, e', left, right⟩ | ⟨found, left, right⟩ := alike h
  · rw [left, right]
    exact .inl ⟨e, e', rfl, rfl⟩
  · rw [left, right]
    exact refl (next found.1) found.2

end Alike

/-- Two values that arithmetic and order take for one number, or that both are no numbers. -/
structure SameNumber (a b : Value) : Prop where
  asInt : asInt? a = asInt? b
  asFloat : asFloat? a = asFloat? b

/-- One of two operands is a number. -/
def SomeNumber (a b : Value) : Prop := asFloat? a ≠ none ∨ asFloat? b ≠ none

def compareNumbers (a b : Value) : Eval (Option Ordering) :=
  match asFloat? a, asFloat? b with
  | some x, some y => pure (compareFloat x y)
  | _, _ => fault (.unsupportedOperands "comparison" a.typeText b.typeText)

/-- Arithmetic on two operands as numbers: on integers if both are, and otherwise in floating
point. -/
def numberArithmetic (op : BinaryOp) (a b : Value) : Eval Value :=
  let mismatch := EvalFault.unsupportedOperands "operator" a.typeText b.typeText
  match asInt? a, asInt? b with
  | some x, some y => integerArithmetic op x y mismatch
  | _, _ =>
    match asFloat? a, asFloat? b with
    | some x, some y => floatArithmetic op x y mismatch
    | _, _ => fault mismatch

section

variable {a a' b b' : Value} {op : BinaryOp}

theorem SameNumber.refl (a : Value) : SameNumber a a := ⟨rfl, rfl⟩

theorem compareValues_eq (number : SomeNumber a b) : compareValues a b = compareNumbers a b := by
  rw [compareValues.eq_def]
  split
  · obtain none | none := number <;> exact absurd rfl none
  · rfl

/-- With a number among its operands, arithmetic is that of numbers: texts and lists are joined only
with their like. -/
theorem arithmetic_eq (number : SomeNumber a b) (op : BinaryOp) :
    arithmetic op a b = numberArithmetic op a b := by
  rw [arithmetic.eq_def]
  dsimp only
  split
  · obtain none | none := number <;> exact absurd rfl none
  · obtain none | none := number <;> exact absurd rfl none
  · rfl

/-- Comparing numbers does not tell apart operands that are the same as numbers. -/
theorem alike_compareNumbers (left : SameNumber a a') (right : SameNumber b b') :
    Alike (compareNumbers a b) (compareNumbers a' b') := by
  rw [compareNumbers, compareNumbers, left.asFloat, right.asFloat]
  split
  · exact .refl _
  · exact .failed _ _

theorem alike_integerArithmetic (op : BinaryOp) (x y : Int) (mismatch mismatch' : EvalFault) :
    Alike (integerArithmetic op x y mismatch) (integerArithmetic op x y mismatch') := by
  cases op with
  | add | sub | mul | div | mod => exact .refl _
  | _ => exact .failed mismatch mismatch'

theorem alike_floatArithmetic (op : BinaryOp) (x y : Float) (mismatch mismatch' : EvalFault) :
    Alike (floatArithmetic op x y mismatch) (floatArithmetic op x y mismatch') := by
  cases op with
  | add | sub | mul | div | mod => exact .refl _
  | _ => exact .failed mismatch mismatch'

/-- Arithmetic does not tell apart operands that are the same as numbers. What it says of those that
are none may differ. -/
theorem alike_numberArithmetic (left : SameNumber a a') (right : SameNumber b b') (op : BinaryOp) :
    Alike (numberArithmetic op a b) (numberArithmetic op a' b') := by
  rw [numberArithmetic, numberArithmetic, left.asInt, right.asInt, left.asFloat, right.asFloat]
  split
  · exact alike_integerArithmetic op _ _ _ _
  · split
    · exact alike_floatArithmetic op _ _ _ _
    · exact .failed _ _

def isEquality (op : BinaryOp) : Bool := op == .eq || op == .ne

/-- Apart from equality, operators take their operands for the numbers that they are. -/
theorem alike_applyBinary (other : isEquality op = false) (left : SameNumber a a')
    (right : SameNumber b b') (number : SomeNumber a b) (number' : SomeNumber a' b') :
    Alike (applyBinary op a b) (applyBinary op a' b') := by
  have ordered : Alike (compareValues a b) (compareValues a' b') := by
    rw [compareValues_eq number, compareValues_eq number']
    exact alike_compareNumbers left right
  have calculated : Alike (arithmetic op a b) (arithmetic op a' b') := by
    rw [arithmetic_eq number, arithmetic_eq number']
    exact alike_numberArithmetic left right op
  cases op with
  | eq | ne => cases other
  | lt | le | gt | ge => exact ordered.bind _
  | _ => exact calculated

end

/-- The integer that a Boolean counts as. -/
def wordOf (b : Bool) : Int64 := if b then 1 else 0

/-- The value is a floating point number that is equal to the integer which the Boolean counts
as. -/
def EqualsAsFloat (b : Bool) (v : Value) : Prop :=
  ∃ x, v = .float x ∧ (Float.ofInt (wordOf b).toInt == x) = true

section

variable (b : Bool) (v : Value)

theorem sameNumber_bool : SameNumber (.bool b) (.int (wordOf b)) := by
  constructor <;> cases b <;> rfl

/-- A Boolean is equal to what its integer is equal to, except for the floating point number that is
equal to this integer. -/
theorem equals_bool_iff (h : Heap) :
    (Value.bool b).equals h v = (Value.int (wordOf b)).equals h v ↔ ¬ EqualsAsFloat b v := by
  cases v with
  | float x =>
      change false = (Float.ofInt (wordOf b).toInt == x) ↔ _
      constructor
      · rintro unequal ⟨y, same, equal⟩
        cases same
        rw [equal] at unequal
        cases unequal
      · intro unequal
        exact (Bool.eq_false_iff.mpr fun equal => unequal ⟨x, rfl, equal⟩).symm
  | bool c =>
      refine iff_of_true ?_ nofun
      cases b <;> cases c <;> rfl
  | _ => exact iff_of_true rfl nofun

/-- Equality does not depend on the order of a number and another value. -/
theorem equals_comm (h : Heap) {a : Value} {n : Int64} (counts : CountsAs a n) :
    v.equals h a = a.equals h v := by
  cases counts with
  | int =>
      cases v with
      | int m => exact Bool.beq_comm
      | _ => rfl
  | no | yes =>
      cases v with
      | bool c => cases c <;> rfl
      | _ => rfl

theorem countsAs_bool : CountsAs (.bool b) (wordOf b) := by
  cases b with
  | false => exact .no
  | true => exact .yes

/-- Two results are the same outcome exactly if they are the same. -/
@[simp] theorem sameOutcome_ok_iff {α : Type} {x y : α} : SameOutcome (.ok x) (.ok y) ↔ x = y := by
  constructor
  · rintro (⟨e, e', error, -⟩ | ⟨found, left, right⟩)
    · cases error
    · exact (Except.ok.inj left).trans (Except.ok.inj right).symm
  · rintro rfl
    exact .inr ⟨x, rfl, rfl⟩

/-- Whether two operands may stand for each other in a test for equality is told by the test itself,
as it never fails. -/
theorem sameOutcome_equality {a a' c c' : Value} {op : BinaryOp} (equality : isEquality op = true)
    (h : Heap) :
    SameOutcome ((applyBinary op a c).run h) ((applyBinary op a' c').run h) ↔
      a.equals h c = a'.equals h c' := by
  cases op with
  | eq =>
      change SameOutcome (.ok (Value.bool (a.equals h c), h))
        (.ok (Value.bool (a'.equals h c'), h)) ↔ _
      rw [sameOutcome_ok_iff, Prod.mk.injEq, Value.bool.injEq]
      exact and_iff_left rfl
  | ne =>
      change SameOutcome (.ok (Value.bool (!a.equals h c), h))
        (.ok (Value.bool (!a'.equals h c'), h)) ↔ _
      rw [sameOutcome_ok_iff, Prod.mk.injEq, Value.bool.injEq, Bool.not_inj_iff]
      exact and_iff_left rfl
  | _ => cases equality

end

/-- An operator takes a Boolean for the integer that it counts as, on either side of another value,
unless it asks for equality with a floating point number that is equal to this integer. -/
structure StandsForInteger (op : BinaryOp) (b : Bool) (v : Value) (h : Heap) : Prop where
  on_left : SameOutcome ((applyBinary op (.bool b) v).run h)
    ((applyBinary op (.int (wordOf b)) v).run h) ↔
    ¬ (isEquality op = true ∧ EqualsAsFloat b v)
  on_right : SameOutcome ((applyBinary op v (.bool b)).run h)
    ((applyBinary op v (.int (wordOf b))).run h) ↔
    ¬ (isEquality op = true ∧ EqualsAsFloat b v)
  /-- Such a number is not equal to the Boolean. -/
  unequal : EqualsAsFloat b v →
    (applyBinary .eq (.bool b) v).run h = .ok (.bool false, h) ∧
      (applyBinary .eq (.int (wordOf b)) v).run h = .ok (.bool true, h)

/-- A Boolean operand is taken for zero or one, except that it is equal to no floating point
number. -/
theorem booleans_stand_for_integers (op : BinaryOp) (b : Bool) (v : Value) (h : Heap) :
    StandsForInteger op b v h := by
  have same := sameNumber_bool b
  have number : asFloat? (.bool b) ≠ none := nofun
  have number' : asFloat? (.int (wordOf b)) ≠ none := nofun
  refine ⟨?_, ?_, ?_⟩
  · cases equality : isEquality op with
    | true =>
        rw [sameOutcome_equality equality, equals_bool_iff]
        exact not_congr (and_iff_right rfl).symm
    | false =>
        refine iff_of_true ?_ fun missed => nomatch missed.1
        exact alike_applyBinary equality same (.refl v) (.inl number) (.inl number') h
  · cases equality : isEquality op with
    | true =>
        rw [sameOutcome_equality equality, equals_comm v h (countsAs_bool b),
          equals_comm v h (.int _), equals_bool_iff]
        exact not_congr (and_iff_right rfl).symm
    | false =>
        refine iff_of_true ?_ fun missed => nomatch missed.1
        exact alike_applyBinary equality (.refl v) same (.inr number) (.inr number') h
  · rintro ⟨x, rfl, equal⟩
    refine ⟨rfl, ?_⟩
    change Except.ok (Value.bool (Float.ofInt (wordOf b).toInt == x), h) = _
    rw [equal]

/-- The floating point number one is neither less nor greater than `True`, and yet not equal to
it. -/
theorem true_is_not_equal_to_one :
    ¬ SameOutcome ((applyBinary .eq (.bool true) (.float 1.0)).run {})
        ((applyBinary .eq (.int 1) (.float 1.0)).run {}) ∧
      evaluate {} 0 "True == 1.0" = .ok (.bool false, {}) ∧
      evaluate {} 0 "1 == 1.0" = .ok (.bool true, {}) ∧
      evaluate {} 0 "True < 1.0" = .ok (.bool false, {}) ∧
      evaluate {} 0 "True > 1.0" = .ok (.bool false, {}) ∧
      evaluate {} 0 "True <= 1.0" = .ok (.bool true, {}) :=
  ⟨(sameOutcome_equality rfl {}).not.mpr (by decide), rfl, rfl, rfl, rfl, rfl⟩

end RemoteDebugger.Expr
