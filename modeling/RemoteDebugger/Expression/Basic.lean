/-!
# Expressions

The expression language of breakpoint conditions, log points and watches.
-/

namespace RemoteDebugger

inductive Literal where
  | null
  | bool (b : Bool)
  | int (n : Int64)
  | float (x : Float)
  | str (s : String)
  deriving DecidableEq

inductive UnaryOp where
  | neg
  | not
  deriving DecidableEq, Repr

inductive BinaryOp where
  | add
  | sub
  | mul
  | div
  | mod
  | eq
  | ne
  | lt
  | le
  | gt
  | ge
  | and
  | or
  deriving DecidableEq, Repr

/-- An expression. The callee of a call may be any expression; only names can be evaluated there. -/
inductive Expr where
  | literal (value : Literal)
  | name (id : String)
  | attr (base : Expr) (id : String)
  | index (base position : Expr)
  | call (callee : Expr) (args : List Expr)
  | unary (op : UnaryOp) (operand : Expr)
  | binary (op : BinaryOp) (lhs rhs : Expr)

instance : Inhabited Expr := ⟨.literal .null⟩

def isIdentStart (c : Char) : Bool :=
  ('a' ≤ c && c ≤ 'z') || ('A' ≤ c && c ≤ 'Z') || c == '_'

def isIdentRest (c : Char) : Bool := isIdentStart c || ('0' ≤ c && c ≤ '9')

def isIdent (cs : List Char) : Bool :=
  match cs with
  | [] => false
  | c :: rest => isIdentStart c && rest.all isIdentRest

end RemoteDebugger
