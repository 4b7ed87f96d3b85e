import Mathlib.Data.Rat.Floor
import RemoteDebugger.Proofs.Expression.Evaluation
import RemoteDebugger.Proofs.Text.Numeral

/-!
# Arithmetic on integers

Sums, differences, products and negations are exact or fail because the result does not fit into 64
bits; remainders have the sign of the divisor; and a sequence has an element at every position from
the front and from the end, and at no other. The remainder and the position take an addition to
correct what a machine gives. Neither of them can overflow, so both may be computed in 64 bits.
-/

namespace RemoteDebugger.Expr

open Text (IsInt64)

/-- A remainder of a division by `y` lies between zero and `y`, which it does not reach. -/
def IsRemainderFor (y r : Int) : Prop := (0 ≤ r ∧ r < y) ∨ (y < r ∧ r ≤ 0)

section

variable {x y q r : Int}

theorem eq_fmod_of_isRemainderFor (divided : r + y * q = x) (bounds : IsRemainderFor y r) :
    x.fmod y = r := by
  obtain ⟨least, most⟩ | ⟨least, most⟩ := bounds
  · exact ((Int.fdiv_fmod_unique (by omega)).mpr ⟨divided, least, most⟩).2
  · exact ((Int.fdiv_fmod_unique' (by omega)).mpr ⟨divided, least, most⟩).2

/-- The remainder that goes with the quotient rounded down has the sign of the divisor, or is
zero. -/
theorem isRemainderFor_fmod (x : Int) (nonzero : y ≠ 0) : IsRemainderFor y (x.fmod y) := by
  obtain negative | positive := Int.lt_or_gt_of_ne nonzero
  · have bounds := (Int.fdiv_fmod_unique' (a := x) negative).mp ⟨rfl, rfl⟩
    exact .inr bounds.2
  · have bounds := (Int.fdiv_fmod_unique (a := x) positive).mp ⟨rfl, rfl⟩
    exact .inl bounds.2

/-- The quotient that goes with the remainder is the exact one, rounded down. -/
theorem floor_div (x : Int) (nonzero : y ≠ 0) : ⌊(x : ℚ) / y⌋ = x.fdiv y := by
  have divided : (x : ℚ) = y * x.fdiv y + x.fmod y := by
    exact_mod_cast (Int.mul_fdiv_add_fmod x y).symm
  refine Int.floor_eq_iff.mpr ?_
  obtain ⟨least, most⟩ | ⟨least, most⟩ := isRemainderFor_fmod x nonzero
  · have least : (0 : ℚ) ≤ x.fmod y := by exact_mod_cast least
    have most : (x.fmod y : ℚ) < y := by exact_mod_cast most
    have positive : (0 : ℚ) < y := by linarith
    constructor
    · exact (le_div_iff₀ positive).mpr (by linarith)
    · exact (div_lt_iff₀ positive).mpr (by linarith)
  · have least : (y : ℚ) < x.fmod y := by exact_mod_cast least
    have most : (x.fmod y : ℚ) ≤ 0 := by exact_mod_cast most
    have negative : (y : ℚ) < 0 := by linarith
    constructor
    · exact (le_div_iff_of_neg negative).mpr (by linarith)
    · exact (div_lt_iff_of_neg negative).mpr (by linarith)

end

/-- A truncated remainder that has the wrong sign for the divisor. -/
def LeansAway (t y : Int) : Prop := t ≠ 0 ∧ ¬ (t < 0 ↔ y < 0)

instance (t y : Int) : Decidable (LeansAway t y) := inferInstanceAs (Decidable (_ ∧ _))

/-- A remainder with the sign of the divisor is the truncated one, plus the divisor if need be. -/
theorem fmod_eq (x : Int) {y : Int} (nonzero : y ≠ 0) :
    x.fmod y = if LeansAway (x.tmod y) y then x.tmod y + y else x.tmod y := by
  have small : (x.tmod y).natAbs < y.natAbs := by
    rw [Int.natAbs_tmod]
    exact Nat.mod_lt _ (Int.natAbs_pos.mpr nonzero)
  have divided := Int.tmod_add_mul_tdiv x y
  split
  next away =>
    have moved : x.tmod y + y + y * (x.tdiv y - 1) = x := by
      rw [Int.mul_sub, Int.mul_one]
      omega
    unfold LeansAway at away
    exact eq_fmod_of_isRemainderFor moved (by unfold IsRemainderFor; omega)
  next along =>
    unfold LeansAway at along
    exact eq_fmod_of_isRemainderFor divided (by unfold IsRemainderFor; omega)

/-- The remainder with the sign of the divisor, as it is computed in 64 bits. -/
def floorRemainder (m n : Int64) : Int64 :=
  let t := m % n
  if t ≠ 0 ∧ ¬ (t < 0 ↔ n < 0) then t + n else t

/-- The position of an element, as it is computed in 64 bits. -/
def wordPosition? (i : Int64) (length : Nat) : Option Nat :=
  let i := if i < 0 then Int64.ofNat length + i else i
  if 0 ≤ i ∧ i < Int64.ofNat length then some i.toNatClampNeg else none

section

variable {m n i : Int64}

theorem isInt64_toInt (n : Int64) : IsInt64 n.toInt := by
  have least := n.le_toInt
  have most := n.toInt_lt
  constructor <;> omega

theorem toInt_ofInt {x : Int} (fits : IsInt64 x) : (Int64.ofInt x).toInt = x :=
  Int64.toInt_ofInt_of_le fits.1 (Int.lt_of_le_of_lt fits.2 (by decide))

/-- An addition whose sum fits into 64 bits does not wrap around. -/
theorem toInt_add_of_fits (fits : IsInt64 (m.toInt + n.toInt)) :
    (m + n).toInt = m.toInt + n.toInt := by
  obtain ⟨least, most⟩ := fits
  rw [Int64.toInt_add]
  exact Int.bmod_eq_of_le (by omega) (by omega)

theorem toInt_lt_zero : n.toInt < 0 ↔ n < 0 := (Int64.lt_iff_toInt_lt (y := 0)).symm

theorem toInt_eq_zero : n.toInt = 0 ↔ n = 0 := Int64.toInt_inj (y := 0)

theorem leansAway_toInt : LeansAway m.toInt n.toInt ↔ m ≠ 0 ∧ ¬ (m < 0 ↔ n < 0) := by
  rw [LeansAway, toInt_lt_zero, toInt_lt_zero, Ne, toInt_eq_zero]

/-- Correcting a remainder takes it toward zero, and so cannot overflow. -/
theorem toInt_add_of_leansAway (away : LeansAway m.toInt n.toInt) :
    (m + n).toInt = m.toInt + n.toInt := by
  have left := isInt64_toInt m
  have right := isInt64_toInt n
  unfold LeansAway at away
  unfold IsInt64 at left right
  exact toInt_add_of_fits (by unfold IsInt64; omega)

/-- What is computed in 64 bits is the remainder with the sign of the divisor. Nothing overflows on
the way, not even for the least integer. -/
theorem toInt_floorRemainder (nonzero : n ≠ 0) :
    (floorRemainder m n).toInt = m.toInt.fmod n.toInt := by
  have nonzero' : n.toInt ≠ 0 := fun zero => nonzero (toInt_eq_zero.mp zero)
  rw [fmod_eq _ nonzero', ← Int64.toInt_mod, floorRemainder]
  by_cases away : LeansAway (m % n).toInt n.toInt
  · rw [if_pos away, ← toInt_add_of_leansAway away]
    rw [if_pos (leansAway_toInt.mp away)]
  · rw [if_neg away]
    rw [if_neg (mt leansAway_toInt.mpr away)]

theorem toInt_ofNat {length : Nat} (short : length < 2 ^ 63) :
    (Int64.ofNat length).toInt = length :=
  Int64.toInt_ofNat_of_lt short

/-- Counting a negative position from the end cannot overflow. -/
theorem toInt_length_add {length : Nat} (short : length < 2 ^ 63) (back : i < 0) :
    (Int64.ofNat length + i).toInt = length + i.toInt := by
  have negative := toInt_lt_zero.mpr back
  have least := i.le_toInt
  have sum : (Int64.ofNat length).toInt + i.toInt = length + i.toInt := by rw [toInt_ofNat short]
  rw [← sum]
  exact toInt_add_of_fits (by unfold IsInt64; omega)

/-- What is computed in 64 bits is the position of the element, in a sequence whose length a machine
integer can hold. -/
theorem wordPosition?_eq {length : Nat} (short : length < 2 ^ 63) :
    wordPosition? i length = position? i.toInt length := by
  have counted : (if i < 0 then Int64.ofNat length + i else i).toInt =
      if i.toInt < 0 then length + i.toInt else i.toInt := by
    by_cases back : i < 0
    · rw [if_pos back, if_pos (toInt_lt_zero.mpr back), toInt_length_add short back]
    · rw [if_neg back, if_neg (mt toInt_lt_zero.mp back)]
  have inside (k : Int64) : (0 ≤ k ∧ k < Int64.ofNat length) ↔ (0 ≤ k.toInt ∧ k.toInt < length) :=
    and_congr (Int64.le_iff_toInt_le (x := 0)) (by rw [Int64.lt_iff_toInt_lt, toInt_ofNat short])
  rw [wordPosition?, position?, ← counted]
  exact if_congr (inside _) rfl rfl

end

/-- The integer that an operand counts as: an integer counts as itself, and a Boolean as zero or
one. -/
inductive CountsAs : Value → Int64 → Prop
  | int (n : Int64) : CountsAs (.int n) n
  | no : CountsAs (.bool false) 0
  | yes : CountsAs (.bool true) 1

/-- A list, tuple or text in a heap with its elements; those of a text are its characters. -/
inductive IsSequence (h : Heap) : Value → List Value → Prop
  | list (r : Ref) : IsSequence h (.list r) (h.lists.get r)
  | tuple (r : Ref) : IsSequence h (.tuple r) (h.tuples.get r)
  | text (s : String) : IsSequence h (.str s) (s.toList.map fun c => .str (String.singleton c))

def FailsWith (words : String) (result : Except Error (Value × Heap)) : Prop :=
  ∃ e, result = .error e ∧ e.message = "evaluation error: " ++ words

/-- The result is the integer `x`, in the heap `h`, or an overflow if `x` does not fit into 64
bits. -/
structure IsExact (x : Int) (h : Heap) (result : Except Error (Value × Heap)) : Prop where
  fits : IsInt64 x → ∃ n : Int64, n.toInt = x ∧ result = .ok (.int n, h)
  overflows : ¬ IsInt64 x → FailsWith "integer overflow" result

section

variable {a b : Value} {m n i : Int64} {xs : List Value} {h : Heap}

theorem CountsAs.asInt?_eq (counts : CountsAs a m) : asInt? a = some m.toInt := by
  cases counts <;> rfl

theorem failsWith_fault (f : EvalFault) (h : Heap) :
    FailsWith f.message ((fault f : Eval Value).run h) :=
  ⟨.evaluation f, rfl, rfl⟩

/-- An integer is returned as it is, if it fits into 64 bits, and otherwise an overflow is. It never
wraps around. -/
theorem isExact_ofInt (x : Int) (h : Heap) : IsExact x h ((ofInt x).run h) := by
  rw [ofInt]
  constructor
  · intro fits
    refine ⟨Int64.ofInt x, toInt_ofInt fits, ?_⟩
    split
    · rfl
    · exact absurd fits ‹_›
  · intro long
    split
    · exact absurd ‹_› long
    · exact failsWith_fault .integerOverflow h

/-- Arithmetic on operands that count as integers is arithmetic on these. -/
theorem arithmetic_of_asInt? {x y : Int} (op : BinaryOp) (left : asInt? a = some x)
    (right : asInt? b = some y) :
    arithmetic op a b =
      integerArithmetic op x y (.unsupportedOperands "operator" a.typeText b.typeText) := by
  rw [arithmetic.eq_def]
  dsimp only
  split
  · cases left
  · cases left
  · rw [left, right]

def calculates : BinaryOp → Bool
  | .add | .sub | .mul | .div | .mod => true
  | _ => false

/-- The operators of arithmetic do nothing beside arithmetic. -/
theorem applyBinary_of_calculates {op : BinaryOp} (isArithmetic : calculates op = true)
    (a b : Value) :
    applyBinary op a b = arithmetic op a b := by
  cases op with
  | add | sub | mul | div | mod => rfl
  | _ => cases isArithmetic

end

/-- The remainder of a division, and how it comes about in 64 bits. -/
structure IsFloorRemainder (m n r : Int64) : Prop where
  /-- What is left of `m` after taking away `n` as often as the quotient, rounded down, says. -/
  exactly : r.toInt = m.toInt - n.toInt * ⌊(m.toInt : ℚ) / n.toInt⌋
  sign : r = 0 ∨ (r < 0 ↔ n < 0)
  small : r.toInt.natAbs < n.toInt.natAbs
  /-- The first step, a division that drops what is behind the point, is exact. -/
  truncated : (m % n).toInt = m.toInt.tmod n.toInt
  /-- The second step does not wrap around where it is taken. -/
  corrected : LeansAway (m % n).toInt n.toInt → (m % n + n).toInt = (m % n).toInt + n.toInt
  computed : r = floorRemainder m n

/-- How arithmetic goes in a frame, with operands that count as the integers `m` and `n` and leave
the heaps `h₁` and `h₂`. -/
structure CalculatesExactly (f : Frame) (lhs rhs : Expr) (m n : Int64) (h h₁ h₂ : Heap) : Prop where
  sum : IsExact (m.toInt + n.toInt) h₂ ((eval f (.binary .add lhs rhs)).run h)
  difference : IsExact (m.toInt - n.toInt) h₂ ((eval f (.binary .sub lhs rhs)).run h)
  product : IsExact (m.toInt * n.toInt) h₂ ((eval f (.binary .mul lhs rhs)).run h)
  negation : IsExact (-m.toInt) h₁ ((eval f (.unary .neg lhs)).run h)
  by_zero : n = 0 → FailsWith "modulo by zero" ((eval f (.binary .mod lhs rhs)).run h)
  by_minus_one : m = Int64.minValue → n = -1 →
    FailsWith "integer overflow" ((eval f (.binary .mod lhs rhs)).run h)
  remainder : n ≠ 0 → ¬ (m = Int64.minValue ∧ n = -1) →
    ∃ r, (eval f (.binary .mod lhs rhs)).run h = .ok (.int r, h₂) ∧ IsFloorRemainder m n r

/-- How an element is taken from the elements `xs` of a sequence in a frame. -/
structure SelectsElement (f : Frame) (base position : Expr) (xs : List Value) (i : Int64)
    (h h' : Heap) :
    Prop where
  /-- Positions from the front, and negative ones from the end. -/
  found : ∀ k (inside : k < xs.length), i.toInt = k ∨ xs.length + i.toInt = k →
    (eval f (.index base position)).run h = .ok (xs[k], h')
  missing : i.toInt < -xs.length ∨ xs.length ≤ i.toInt →
    FailsWith "index out of range" ((eval f (.index base position)).run h)
  /-- Counting from the end does not wrap around in 64 bits, in which the length of a sequence
  fits. -/
  counted : xs.length < 2 ^ 63 →
    (i < 0 → (Int64.ofNat xs.length + i).toInt = xs.length + i.toInt) ∧
      position? i.toInt xs.length = wordPosition? i xs.length

section

variable {f : Frame} {lhs rhs : Expr} {a b : Value} {m n i : Int64} {xs : List Value}
  {h h₁ h₂ : Heap}

/-- The remainder computed in 64 bits is what is left of the dividend, with the sign of the
divisor. -/
theorem isFloorRemainder_floorRemainder (m : Int64) (nonzero : n ≠ 0) :
    IsFloorRemainder m n (floorRemainder m n) := by
  have nonzero' : n.toInt ≠ 0 := fun zero => nonzero (toInt_eq_zero.mp zero)
  have value := toInt_floorRemainder (m := m) nonzero
  have bounds := isRemainderFor_fmod m.toInt nonzero'
  rw [← value] at bounds
  unfold IsRemainderFor at bounds
  refine ⟨?_, ?_, by omega, Int64.toInt_mod m n, toInt_add_of_leansAway, rfl⟩
  · rw [value, floor_div _ nonzero', Int.fmod_def]
  · rw [← toInt_eq_zero, ← toInt_lt_zero, ← toInt_lt_zero]
    omega

/-- A remainder by anything but zero is found, except for the one division whose quotient does not
fit into 64 bits. -/
theorem run_modulo (left : CountsAs a m) (right : CountsAs b n) (nonzero : n ≠ 0)
    (regular : ¬ (m = Int64.minValue ∧ n = -1)) (h : Heap) :
    (applyBinary .mod a b).run h = .ok (.int (floorRemainder m n), h) := by
  have nonzero' : ¬ n.toInt = 0 := fun zero => nonzero (toInt_eq_zero.mp zero)
  have regular' : ¬ (m.toInt = -9223372036854775808 ∧ n.toInt = -1) := fun least =>
    regular ⟨Int64.toInt_inj.mp least.1, Int64.toInt_inj.mp least.2⟩
  have exactly := (isExact_ofInt (m.toInt.fmod n.toInt) h).fits
  rw [← toInt_floorRemainder nonzero] at exactly
  obtain ⟨r, same, ran⟩ := exactly (isInt64_toInt _)
  obtain rfl := Int64.toInt_inj.mp same
  rw [applyBinary_of_calculates rfl, arithmetic_of_asInt? .mod left.asInt?_eq right.asInt?_eq,
    integerArithmetic, if_neg nonzero', if_neg regular', ← toInt_floorRemainder nonzero]
  exact ran

/-- Each operator of arithmetic gives the exact result of the integers that its operands count as,
or says why there is none. -/
theorem calculatesExactly (left : (eval f lhs).run h = .ok (a, h₁))
    (right : (eval f rhs).run h₁ = .ok (b, h₂)) (counts : CountsAs a m) (counts' : CountsAs b n) :
    CalculatesExactly f lhs rhs m n h h₁ h₂ := by
  have calculated {op : BinaryOp} (isArithmetic : calculates op = true) (strict : IsStrict op) :
      (eval f (.binary op lhs rhs)).run h =
        (integerArithmetic op m.toInt n.toInt
          (.unsupportedOperands "operator" a.typeText b.typeText)).run h₂ := by
    rw [run_binary strict left right, applyBinary_of_calculates isArithmetic,
      arithmetic_of_asInt? op counts.asInt?_eq counts'.asInt?_eq]
  constructor
  · rw [calculated rfl (by decide)]
    exact isExact_ofInt _ h₂
  · rw [calculated rfl (by decide)]
    exact isExact_ofInt _ h₂
  · rw [calculated rfl (by decide)]
    exact isExact_ofInt _ h₂
  · rw [run_unary left]
    cases counts <;> exact isExact_ofInt _ h₁
  · rintro rfl
    rw [calculated rfl (by decide)]
    exact failsWith_fault .moduloByZero h₂
  · rintro rfl rfl
    rw [calculated rfl (by decide)]
    exact failsWith_fault .integerOverflow h₂
  · intro nonzero regular
    refine ⟨_, ?_, isFloorRemainder_floorRemainder m nonzero⟩
    rw [run_binary (by decide) left right]
    exact run_modulo counts counts' nonzero regular h₂

/-- A position counted from the front or from the end is that of an element, if it is inside. -/
theorem position?_eq_some {i : Int} {k length : Nat} (inside : k < length)
    (counted : i = k ∨ length + i = k) : position? i length = some k := by
  have place : (if i < 0 then length + i else i) = k := by
    split <;> omega
  rw [position?, place, if_pos (by omega)]
  rfl

/-- A position that is outside on either end is that of no element. -/
theorem position?_eq_none {i : Int} {length : Nat} (outside : i < -length ∨ length ≤ i) :
    position? i length = none := by
  have place : ¬ (0 ≤ (if i < 0 then length + i else i) ∧
      (if i < 0 then length + i else i) < length) := by
    split <;> omega
  rw [position?, if_neg place]

theorem run_subscript (sequence : IsSequence h a xs) (i : Int64) :
    (subscript a (.int i)).run h = (element xs i).run h := by
  cases sequence <;> rfl

/-- An element is taken by its position, counted from the front or from the end, and a position
outside is refused. -/
theorem selectsElement (left : (eval f lhs).run h = .ok (a, h₁))
    (right : (eval f rhs).run h₁ = .ok (.int i, h₂)) (sequence : IsSequence h₂ a xs) :
    SelectsElement f lhs rhs xs i h h₂ := by
  have selected : (eval f (.index lhs rhs)).run h = (element xs i).run h₂ :=
    (run_index left right).trans (run_subscript sequence i)
  constructor
  · intro k inside counted
    rw [selected, element, position?_eq_some inside counted, Option.bind_some,
      List.getElem?_eq_getElem inside]
    rfl
  · intro outside
    rw [selected, element, position?_eq_none outside, Option.bind_none]
    exact failsWith_fault .indexOutOfRange h₂
  · intro short
    exact ⟨toInt_length_add short, (wordPosition?_eq short).symm⟩

end

/-- Arithmetic on integers and Booleans gives the exact result or says why there is none, and so
does taking an element of a sequence; nothing on the way exceeds 64 bits. -/
theorem integerArithmetic_is_exact {f : Frame} {lhs rhs : Expr} {a b : Value} {h h₁ h₂ : Heap}
    (left : (eval f lhs).run h = .ok (a, h₁)) (right : (eval f rhs).run h₁ = .ok (b, h₂)) :
    (∀ m n, CountsAs a m → CountsAs b n → CalculatesExactly f lhs rhs m n h h₁ h₂) ∧
      ∀ xs i, IsSequence h₂ a xs → b = .int i → SelectsElement f lhs rhs xs i h h₂ := by
  constructor
  · intro m n counts counts'
    exact calculatesExactly left right counts counts'
  · rintro xs i sequence rfl
    exact selectsElement left right sequence

def extreme : Frame :=
  { (default : Frame) with locals := [("least", .int Int64.minValue), ("word", .str "abc")] }

/-- The least integer has a positive remainder by three but no negation, and a text a last
character. -/
theorem extreme_is_exact :
    (eval extreme (.binary .mod (.name "least") (.literal (.int 3)))).run {} = .ok (.int 1, {}) ∧
      FailsWith "integer overflow" ((eval extreme (.unary .neg (.name "least"))).run {}) ∧
      (eval extreme (.index (.name "word") (.literal (.int (-1))))).run {} =
        .ok (.str "c", {}) := by
  have least : (eval extreme (.name "least")).run {} = .ok (.int Int64.minValue, {}) := rfl
  have three : (eval extreme (.literal (.int 3))).run {} = .ok (.int 3, {}) := rfl
  have word : (eval extreme (.name "word")).run {} = .ok (.str "abc", {}) := rfl
  have last : (eval extreme (.literal (.int (-1)))).run {} = .ok (.int (-1), {}) := rfl
  have laws := (integerArithmetic_is_exact least three).1 _ _ (.int _) (.int _)
  have indexing := (integerArithmetic_is_exact word last).2 _ _ (.text "abc") rfl
  obtain ⟨r, ran, is⟩ := laws.remainder (by decide) (by decide)
  have one : r = 1 := is.computed.trans (by decide)
  refine ⟨one ▸ ran, laws.negation.overflows (by decide), ?_⟩
  exact indexing.found 2 (by decide) (by decide)

end RemoteDebugger.Expr
