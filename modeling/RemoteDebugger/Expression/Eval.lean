import RemoteDebugger.Decimal.Binary64
import RemoteDebugger.Expression.Parser
import RemoteDebugger.Program.Frame
import RemoteDebugger.Value.Equality
import RemoteDebugger.Value.Render

/-!
# Evaluating expressions

The value of an expression in a frame. Evaluation reads variables and containers and changes none of
them; joining two lists makes a new list, which is the only thing it adds to the heap. Arithmetic on
integers is exact or fails, and a Boolean counts as zero or one.
-/

namespace RemoteDebugger

/-- A computation that may fail and may add containers to the heap. -/
abbrev Eval := StateT Heap (Except Error)

namespace Expr

def fault {α : Type} (f : EvalFault) : Eval α := throw (.evaluation f)

def literalValue : Literal → Value
  | .null => .null
  | .bool b => .bool b
  | .int n => .int n
  | .float x => .float x
  | .str s => .str s

/-- The value of a variable: locals hide globals. A name that is bound in neither has none. -/
def lookup? (f : Frame) (name : String) : Option Value :=
  (f.locals.find? name).or (f.globals.find? name)

def attributeOf (base : Value) (id : String) : Eval Value := do
  match base with
  | .object _ r =>
    match Bindings.find? ((← get).objects.get r) id with
    | some v => pure v
    | none => throw (.attributeNotFound base.typeText id)
  | _ => throw (.attributeNotFound base.typeText id)

/-- A position in a sequence; negative ones count from the end. -/
def position? (i : Int) (length : Nat) : Option Nat :=
  let i := if i < 0 then length + i else i
  if 0 ≤ i ∧ i < length then some i.toNat else none

/-- The element of a sequence at a position. -/
def element (items : List Value) (i : Int64) : Eval Value :=
  match (position? i.toInt items.length).bind fun i => items[i]? with
  | some v => pure v
  | none => fault .indexOutOfRange

/-- The element of a container under an index or key. Negative indices count from the end, and a
missing one is a fault. -/
def subscript (base key : Value) : Eval Value := do
  let h ← get
  match base, key with
  | .list r, .int i => element (h.lists.get r) i
  | .tuple r, .int i => element (h.tuples.get r) i
  | .str s, .int i => element (s.toList.map fun c => .str (String.singleton c)) i
  | .dict r, key =>
    match (h.dicts.get r).find? fun e => e.1.equals h key with
    | some e => pure e.2
    | none => fault (.keyNotFound (key.render h {}))
  | base, key => fault (.notSubscriptable base.typeText key.typeText)

def callBuiltin (function : String) (args : List Value) : Eval Value := do
  let h ← get
  if function = "len" ∨ function = "str" ∨ function = "repr" then
    match args with
    | [v] =>
      if function = "len" then
        match v.length? h with
        | some n => pure (Value.ofLength n)
        | none => fault (.noLength v.typeText)
      else
        match function, v with
        | "str", .str _ => pure v
        | _, v => pure (.str (v.render h {}))
    | args => fault (.argumentCount function args.length)
  else throw (.nameNotFound function)

/-- An integer value, if it is in the 64-bit range, and otherwise an overflow. It does not wrap
around. -/
def ofInt (n : Int) : Eval Value :=
  if -9223372036854775808 ≤ n ∧ n ≤ 9223372036854775807 then pure (.int (Int64.ofInt n))
  else fault .integerOverflow

/-- The integer a value counts as. A Boolean counts as zero or one, and a floating point number as
none. -/
def asInt? : Value → Option Int
  | .int n => some n.toInt
  | .bool b => some (if b then 1 else 0)
  | _ => none

/-- The floating point number a value counts as. Integers are converted, and large ones rounded. -/
def asFloat? : Value → Option Float
  | .float x => some x
  | v => (asInt? v).map Float.ofInt

def applyUnary (op : UnaryOp) (v : Value) : Eval Value := do
  match op with
  | .not => pure (.bool (!v.isTruthy (← get)))
  | .neg =>
    match v with
    | .float x => pure (.float (-x))
    | v =>
      match asInt? v with
      | some n => ofInt (-n)
      | none => fault (.badNegation v.typeText)

def isOrdering : BinaryOp → Bool
  | .lt | .le | .gt | .ge => true
  | _ => false

/-- The answer of an ordering operator to the outcome of a comparison; values that cannot be ordered
answer no to all of them. -/
def orderingAnswer (op : BinaryOp) : Option Ordering → Bool
  | none => false
  | some o =>
    match op with
    | .lt => o.isLT
    | .le => o.isLE
    | .gt => o.isGT
    | _ => o.isGE

def compareFloat (a b : Float) : Option Ordering :=
  if a < b then some .lt else if a == b then some .eq else if b < a then some .gt else none

def compareValues (a b : Value) : Eval (Option Ordering) :=
  match a, b with
  | .str s, .str t => pure (some (compare s t))
  | a, b =>
    match asFloat? a, asFloat? b with
    | some x, some y => pure (compareFloat x y)
    | _, _ => fault (.unsupportedOperands "comparison" a.typeText b.typeText)

def integerArithmetic (op : BinaryOp) (a b : Int) (mismatch : EvalFault) : Eval Value :=
  match op with
  | .add => ofInt (a + b)
  | .sub => ofInt (a - b)
  | .mul => ofInt (a * b)
  | .div =>
    if b = 0 then fault .divisionByZero else pure (.float (Float.ofInt a / Float.ofInt b))
  | .mod =>
    if b = 0 then fault .moduloByZero
    else if a = -9223372036854775808 ∧ b = -1 then fault .integerOverflow
    else ofInt (a.fmod b)
  | _ => fault mismatch

/-- The remainder of a division with the sign of the divisor. -/
def floatModulo (a b : Float) : Float :=
  let r := Decimal.Binary64.remainder a b
  if r != 0.0 && ((r < 0.0 : Bool) != (b < 0.0 : Bool)) then r + b else r

def floatArithmetic (op : BinaryOp) (a b : Float) (mismatch : EvalFault) : Eval Value :=
  match op with
  | .add => pure (.float (a + b))
  | .sub => pure (.float (a - b))
  | .mul => pure (.float (a * b))
  | .div => if b == 0.0 then fault .divisionByZero else pure (.float (a / b))
  | .mod => if b == 0.0 then fault .divisionByZero else pure (.float (floatModulo a b))
  | _ => fault mismatch

/-- Arithmetic, and the joining of texts and lists. Operands of other types are a fault that names
both. -/
def arithmetic (op : BinaryOp) (a b : Value) : Eval Value := do
  let mismatch := EvalFault.unsupportedOperands "operator" a.typeText b.typeText
  match op, a, b with
  | .add, .str s, .str t => pure (.str (s ++ t))
  | .add, .list r, .list q =>
    let h ← get
    let (joined, lists) := h.lists.alloc (h.lists.get r ++ h.lists.get q)
    set { h with lists := lists }
    pure (.list joined)
  | op, a, b =>
    match asInt? a, asInt? b with
    | some x, some y => integerArithmetic op x y mismatch
    | _, _ =>
      match asFloat? a, asFloat? b with
      | some x, some y => floatArithmetic op x y mismatch
      | _, _ => fault mismatch

/-- Apply an operator to two operands that have both been evaluated. -/
def applyBinary (op : BinaryOp) (a b : Value) : Eval Value := do
  match op with
  | .eq => pure (.bool (a.equals (← get) b))
  | .ne => pure (.bool (!a.equals (← get) b))
  | op =>
    if isOrdering op then pure (.bool (orderingAnswer op (← compareValues a b)))
    else arithmetic op a b

mutual

def eval (f : Frame) : Expr → Eval Value
  | .literal l => pure (literalValue l)
  | .name id =>
    match lookup? f id with
    | some v => pure v
    | none => throw (.nameNotFound id)
  | .attr base id => do attributeOf (← eval f base) id
  | .index base position => do
    let base ← eval f base
    let position ← eval f position
    subscript base position
  | .call callee args =>
    match callee with
    | .name function => do callBuiltin function (← evalAll f args)
    | _ => fault .notCallable
  | .unary op operand => do applyUnary op (← eval f operand)
  | .binary .and lhs rhs => do
    let a ← eval f lhs
    if a.isTruthy (← get) then eval f rhs else pure a
  | .binary .or lhs rhs => do
    let a ← eval f lhs
    if a.isTruthy (← get) then pure a else eval f rhs
  | .binary op lhs rhs => do
    let a ← eval f lhs
    let b ← eval f rhs
    applyBinary op a b

def evalAll (f : Frame) : List Expr → Eval (List Value)
  | [] => pure []
  | e :: rest => do
    let v ← eval f e
    let vs ← evalAll f rest
    pure (v :: vs)

end

/-- The value of a text as an expression in a frame of the program, with the heap that holds it. -/
def evaluate (p : Program) (r : FrameRef) (text : String) : Except Error (Value × Heap) :=
  match parse text with
  | .error fault => .error (.expression fault)
  | .ok e => (eval (p.frame r) e).run p.heap

end Expr

end RemoteDebugger
