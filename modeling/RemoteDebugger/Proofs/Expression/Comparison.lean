import RemoteDebugger.Proofs.Decimal.Conversion

/-!
# Comparing integers

Whether two integers are equal is told exactly, but their order is that of the nearest floating
point numbers. It is the order of the integers as long as these numbers are different, so for all
integers up to 2 ^ 53. Two different integers with one nearest number are neither equal nor less nor
greater.
-/

namespace RemoteDebugger

/-- The operator that asks for this order. -/
def BinaryOp.ofOrdering : Ordering → BinaryOp
  | .lt => .lt
  | .eq => .eq
  | .gt => .gt

namespace Expr

open Decimal (nearest nearest_mono nearest_of_le standsFor_ofInt lt_iff_of_standsFor
  beq_iff_of_standsFor)

def isComparison (op : BinaryOp) : Bool := op == .eq || op == .ne || isOrdering op

def integerAnswer (op : BinaryOp) (x y : Int) : Bool :=
  match op with
  | .eq => x == y
  | .ne => x != y
  | .lt => decide (x < y)
  | .le => decide (x ≤ y)
  | .gt => decide (y < x)
  | .ge => decide (y ≤ x)
  | _ => false

/-- The answer that a comparison of integers gets: their order is that of the nearest floating point
numbers. -/
def roundedAnswer (op : BinaryOp) (x y : Int) : Bool :=
  if isOrdering op then integerAnswer op (nearest x) (nearest y) else integerAnswer op x y

/-- Floating point numbers do not take two integers for one. -/
def AreToldApart (x y : Int) : Prop := x = y ∨ nearest x ≠ nearest y

instance (x y : Int) : Decidable (AreToldApart x y) := inferInstanceAs (Decidable (_ ∨ _))

section

variable {a b : Value} {x y : Int}

/-- An operand that counts as an integer counts as one that a machine word can hold. -/
theorem natAbs_of_asInt? (counts : asInt? a = some x) : x.natAbs < 2 ^ 64 := by
  cases a with
  | bool b => cases b <;> cases counts <;> decide
  | int n =>
      obtain rfl := Option.some.inj counts
      have least := n.le_toInt
      have most := n.toInt_lt
      omega
  | _ => cases counts

theorem toInt_beq (m n : Int64) : (m == n) = (m.toInt == n.toInt) := by
  rw [Bool.eq_iff_iff, beq_iff_eq, beq_iff_eq, Int64.toInt_inj]

@[simp]
theorem toInt_ofBool (b : Bool) : (if b then 1 else 0 : Int64).toInt = if b then 1 else 0 := by
  cases b <;> rfl

/-- Equality tells integers apart exactly, Booleans among them. -/
theorem equals_of_asInt? (h : Heap) (counts : asInt? a = some x) (counts' : asInt? b = some y) :
    a.equals h b = (x == y) := by
  cases a with
  | bool p =>
      obtain rfl := Option.some.inj counts
      cases b with
      | bool q =>
          obtain rfl := Option.some.inj counts'
          cases p <;> cases q <;> rfl
      | int n =>
          obtain rfl := Option.some.inj counts'
          change ((if p then 1 else 0 : Int64) == n) = _
          rw [toInt_beq, toInt_ofBool]
      | _ => cases counts'
  | int m =>
      obtain rfl := Option.some.inj counts
      cases b with
      | bool q =>
          obtain rfl := Option.some.inj counts'
          change ((if q then 1 else 0 : Int64) == m) = _
          rw [toInt_beq, toInt_ofBool, Bool.beq_comm]
      | int n =>
          obtain rfl := Option.some.inj counts'
          exact toInt_beq m n
      | _ => cases counts'
  | _ => cases counts

theorem asFloat?_of_asInt? (counts : asInt? a = some x) : asFloat? a = some (Float.ofInt x) := by
  cases a with
  | float z => cases counts
  | _ => exact congrArg (Option.map Float.ofInt) counts

/-- The floating point numbers of integers are in the order of the nearest ones. -/
theorem compareFloat_ofInt (small : x.natAbs < 2 ^ 64) (small' : y.natAbs < 2 ^ 64) :
    compareFloat (Float.ofInt x) (Float.ofInt y) = some (compare (nearest x) (nearest y)) := by
  have left := standsFor_ofInt small
  have right := standsFor_ofInt small'
  rw [compareFloat]
  rcases Int.lt_trichotomy (nearest x) (nearest y) with lt | same | gt
  · rw [if_pos ((lt_iff_of_standsFor left right).mpr lt), Int.compare_eq_lt.mpr lt]
  · rw [if_neg (fun lt => absurd ((lt_iff_of_standsFor left right).mp lt) (by omega)),
      if_pos ((beq_iff_of_standsFor left right).mpr same), Int.compare_eq_eq.mpr same]
  · rw [if_neg (fun lt => absurd ((lt_iff_of_standsFor left right).mp lt) (by omega)),
      if_neg (fun same => absurd ((beq_iff_of_standsFor left right).mp same) (by omega)),
      if_pos ((lt_iff_of_standsFor right left).mpr gt), Int.compare_eq_gt.mpr gt]

/-- Operands that count as integers are ordered as the floating point numbers nearest to them. -/
theorem compareValues_of_asInt? (counts : asInt? a = some x) (counts' : asInt? b = some y) :
    compareValues a b = pure (some (compare (nearest x) (nearest y))) := by
  have left := asFloat?_of_asInt? counts
  have right := asFloat?_of_asInt? counts'
  have same := compareFloat_ofInt (natAbs_of_asInt? counts) (natAbs_of_asInt? counts')
  cases a with
  | str s => cases counts
  | _ =>
      rw [compareValues.eq_def]
      dsimp only
      rw [left, right]
      exact congrArg pure same

/-- An order of two integers answers the operators as the integers do. -/
theorem orderingAnswer_compare {op : BinaryOp} (orders : isOrdering op = true) (x y : Int) :
    orderingAnswer op (some (compare x y)) = integerAnswer op x y := by
  rw [Bool.eq_iff_iff]
  cases op with
  | lt => simp [orderingAnswer, integerAnswer, Ordering.isLT_iff_eq_lt, Int.compare_eq_lt]
  | le => simp [orderingAnswer, integerAnswer, Int.isLE_compare]
  | gt => simp [orderingAnswer, integerAnswer, Ordering.isGT_iff_eq_gt, Int.compare_eq_gt]
  | ge => simp [orderingAnswer, integerAnswer, Int.isGE_compare]
  | _ => cases orders

/-- A comparison of values that count as integers always has an answer, and it changes nothing. -/
theorem applyBinary_of_asInt? {op : BinaryOp} (compares : isComparison op = true)
    (counts : asInt? a = some x) (counts' : asInt? b = some y) (h : Heap) :
    (applyBinary op a b).run h = .ok (.bool (roundedAnswer op x y), h) := by
  have ordered (orders : isOrdering op = true) :
      (do pure (Value.bool (orderingAnswer op (← compareValues a b))) : Eval Value).run h =
        .ok (.bool (roundedAnswer op x y), h) := by
    rw [compareValues_of_asInt? counts counts', pure_bind, orderingAnswer_compare orders,
      roundedAnswer, if_pos orders]
    rfl
  cases op with
  | eq =>
      change Except.ok (Value.bool (a.equals h b), h) = _
      rw [equals_of_asInt? h counts counts']
      rfl
  | ne =>
      change Except.ok (Value.bool (!a.equals h b), h) = _
      rw [equals_of_asInt? h counts counts']
      rfl
  | lt | le | gt | ge => exact ordered rfl
  | _ => cases compares

end

section

variable {x y : Int} {op : BinaryOp}

/-- Integers that floating point numbers tell apart are in the order of these. -/
theorem nearest_lt_iff (apart : AreToldApart x y) : nearest x < nearest y ↔ x < y := by
  rcases Int.lt_trichotomy x y with lt | rfl | gt
  · have le := nearest_mono (Int.le_of_lt lt)
    have ne := apart.resolve_left (Int.ne_of_lt lt)
    omega
  · omega
  · have le := nearest_mono (Int.le_of_lt gt)
    omega

theorem AreToldApart.symm (apart : AreToldApart x y) : AreToldApart y x :=
  apart.imp Eq.symm Ne.symm

theorem areToldApart_of_le (short : x.natAbs ≤ 2 ^ 53) (short' : y.natAbs ≤ 2 ^ 53) :
    AreToldApart x y := by
  rw [AreToldApart, nearest_of_le short, nearest_of_le short']
  exact Classical.em _

/-- The order of integers that are told apart is that of the nearest floating point numbers. -/
theorem roundedAnswer_of_areToldApart (apart : AreToldApart x y) (op : BinaryOp) :
    roundedAnswer op x y = integerAnswer op x y := by
  have less := nearest_lt_iff apart
  have greater := nearest_lt_iff apart.symm
  cases op with
  | lt => exact decide_eq_decide.mpr less
  | gt => exact decide_eq_decide.mpr greater
  | le => exact decide_eq_decide.mpr (by omega)
  | ge => exact decide_eq_decide.mpr (by omega)
  | _ => rfl

@[simp] theorem isComparison_ofOrdering (o : Ordering) : isComparison (.ofOrdering o) = true := by
  cases o <;> rfl

/-- The operator that asks for an order is answered by yes exactly in this order. -/
theorem integerAnswer_ofOrdering (o : Ordering) (x y : Int) :
    integerAnswer (.ofOrdering o) x y = true ↔ compare x y = o := by
  cases o with
  | lt => exact decide_eq_true_iff.trans Int.compare_eq_lt.symm
  | eq => exact beq_iff_eq.trans Int.compare_eq_eq.symm
  | gt => exact decide_eq_true_iff.trans Int.compare_eq_gt.symm

/-- An answer of yes shows that floating point numbers tell the integers apart, or that these are
equal. -/
theorem areToldApart_of_roundedAnswer {o : Ordering}
    (yes : roundedAnswer (.ofOrdering o) x y = true) :
    AreToldApart x y := by
  cases o with
  | lt => exact .inr (Int.ne_of_lt (of_decide_eq_true yes))
  | eq => exact .inl (eq_of_beq yes)
  | gt => exact .inr (Int.ne_of_gt (of_decide_eq_true yes))

end

/-- A comparison evaluates both operands, the left one first, whatever they come to. -/
theorem eval_binary_of_isComparison {op : BinaryOp} (compares : isComparison op = true) (f : Frame)
    (lhs rhs : Expr) :
    eval f (.binary op lhs rhs) =
      (do
        let a ← eval f lhs
        let b ← eval f rhs
        applyBinary op a b) := by
  cases op with
  | and | or => cases compares
  | _ => simp only [eval]

/-- How comparisons of two operands that count as integers are answered. -/
structure ComparesIntegers (f : Frame) (lhs rhs : Expr) (x y : Int) (h h' : Heap) : Prop where
  /-- Equality is that of the integers, and order is that of the nearest floating point numbers. -/
  answers : ∀ op, isComparison op = true →
    (eval f (.binary op lhs rhs)).run h = .ok (.bool (roundedAnswer op x y), h')
  /-- All answers are right for integers that floating point numbers tell apart. -/
  exact_of_apart : AreToldApart x y → ∀ op, isComparison op = true →
    (eval f (.binary op lhs rhs)).run h = .ok (.bool (integerAnswer op x y), h')
  /-- Exactly one of less, equal and greater is true of them, and none of other integers. -/
  one_iff : (∃! o, (eval f (.binary (.ofOrdering o) lhs rhs)).run h = .ok (.bool true, h')) ↔
    AreToldApart x y
  /-- All integers up to 2 ^ 53 are told apart. -/
  apart_of_le : x.natAbs ≤ 2 ^ 53 → y.natAbs ≤ 2 ^ 53 → AreToldApart x y

/-- Comparisons of integers are right if floating point numbers tell them apart, and only then. -/
theorem comparesIntegers {f : Frame} {lhs rhs : Expr} {a b : Value} {x y : Int} {h h₁ h₂ : Heap}
    (left : (eval f lhs).run h = .ok (a, h₁)) (right : (eval f rhs).run h₁ = .ok (b, h₂))
    (counts : asInt? a = some x) (counts' : asInt? b = some y) :
    ComparesIntegers f lhs rhs x y h h₂ := by
  have answers op (compares : isComparison op = true) :
      (eval f (.binary op lhs rhs)).run h = .ok (.bool (roundedAnswer op x y), h₂) := by
    rw [eval_binary_of_isComparison compares, StateT.run_bind, left]
    change ((eval f rhs >>= fun b => applyBinary op a b).run h₁) = _
    rw [StateT.run_bind, right]
    exact applyBinary_of_asInt? compares counts counts' h₂
  have exact_of_apart (apart : AreToldApart x y) op (compares : isComparison op = true) :
      (eval f (.binary op lhs rhs)).run h = .ok (.bool (integerAnswer op x y), h₂) := by
    rw [answers op compares, roundedAnswer_of_areToldApart apart]
  have yes_iff (o : Ordering) :
      (eval f (.binary (.ofOrdering o) lhs rhs)).run h = .ok (.bool true, h₂) ↔
        roundedAnswer (.ofOrdering o) x y = true := by
    rw [answers _ (isComparison_ofOrdering o), Except.ok.injEq, Prod.mk.injEq, Value.bool.injEq]
    exact and_iff_left rfl
  refine ⟨answers, exact_of_apart, ⟨?_, ?_⟩, areToldApart_of_le⟩
  · rintro ⟨o, yes, -⟩
    exact areToldApart_of_roundedAnswer ((yes_iff o).mp yes)
  · intro apart
    have right_iff (o : Ordering) :
        (eval f (.binary (.ofOrdering o) lhs rhs)).run h = .ok (.bool true, h₂) ↔
          compare x y = o := by
      rw [yes_iff, roundedAnswer_of_areToldApart apart, integerAnswer_ofOrdering]
    exact ⟨compare x y, (right_iff _).mpr rfl, fun o yes => ((right_iff o).mp yes).symm⟩

def counting : Frame := { (default : Frame) with locals := [("n", .int 9007199254740993)] }

/-- A large counter is greater than a Boolean, and neither less nor equal. -/
theorem largeCounter_isOrdered :
    ∃! o, (eval counting (.binary (.ofOrdering o) (.name "n") (.literal (.bool true)))).run {} =
      .ok (.bool true, {}) := by
  have compares : ComparesIntegers counting (.name "n") (.literal (.bool true)) 9007199254740993 1
      {} {} :=
    comparesIntegers rfl rfl rfl rfl
  exact compares.one_iff.mpr (by decide)

/-- The first two integers that have one nearest floating point number. -/
theorem neighbours_are_not_ordered :
    integerAnswer .lt 9007199254740992 9007199254740993 = true ∧
      evaluate {} 0 "9007199254740992 < 9007199254740993" = .ok (.bool false, {}) ∧
      evaluate {} 0 "9007199254740992 == 9007199254740993" = .ok (.bool false, {}) ∧
      evaluate {} 0 "9007199254740992 > 9007199254740993" = .ok (.bool false, {}) :=
  ⟨rfl, rfl, rfl, rfl⟩

end Expr

end RemoteDebugger
