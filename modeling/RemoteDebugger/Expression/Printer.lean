import RemoteDebugger.Expression.Basic
import RemoteDebugger.Value.Render

/-!
# Writing expressions

The text of an expression, with parentheses exactly where the levels of the grammar ask for them. An
expression written for a level gets parentheses if its own operator binds less tightly; the right
operand of a binary operator is written for the next tighter level, since all of them associate to
the left.
-/

namespace RemoteDebugger

/-- The level of an operator, from the loosest binding to the tightest. -/
def BinaryOp.level : BinaryOp → Nat
  | or => 0
  | and => 1
  | eq | ne | lt | le | gt | ge => 3
  | add | sub => 4
  | mul | div | mod => 5

def BinaryOp.symbol : BinaryOp → String
  | add => "+"
  | sub => "-"
  | mul => "*"
  | div => "/"
  | mod => "%"
  | eq => "=="
  | ne => "!="
  | lt => "<"
  | le => "<="
  | gt => ">"
  | ge => ">="
  | and => "and"
  | or => "or"

@[inherit_doc BinaryOp.level] def UnaryOp.level : UnaryOp → Nat
  | not => 2
  | neg => 6

/-- An operator before its operand, with the blank that ends a word. -/
def UnaryOp.symbol : UnaryOp → String
  | not => "not "
  | neg => "-"

namespace Expr

/-- The level of suffixes: attributes, indices and calls. -/
def suffixLevel : Nat := 7

def literalText : Literal → List Char
  | .null => "None".toList
  | .bool b => (if b then "True" else "False").toList
  | .int n => (toString n.toInt).toList
  | .float x => Decimal.text x
  | .str s => Value.textLiteral s.toList

/-- Put parentheses around a text if they are needed. -/
def enclose (needed : Bool) (cs : List Char) : List Char :=
  if needed then '(' :: (cs ++ [')']) else cs

mutual

/-- The text of an expression in a place of the given level. -/
def printAt (level : Nat) : Expr → List Char
  | .literal l => literalText l
  | .name id => id.toList
  | .attr base id => printAt suffixLevel base ++ '.' :: id.toList
  | .index base position => printAt suffixLevel base ++ '[' :: (printAt 0 position ++ [']'])
  | .call callee args => printAt suffixLevel callee ++ '(' :: (printArgs args ++ [')'])
  | .unary op operand =>
    enclose (op.level < level) (op.symbol.toList ++ printAt op.level operand)
  | .binary op lhs rhs =>
    enclose (op.level < level)
      (printAt op.level lhs ++ ' ' :: (op.symbol.toList ++ ' ' :: printAt (op.level + 1) rhs))

def printArgs : List Expr → List Char
  | [] => []
  | [e] => printAt 0 e
  | e :: rest => printAt 0 e ++ ',' :: ' ' :: printArgs rest

end

def print (e : Expr) : String := String.ofList (printAt 0 e)

end Expr

end RemoteDebugger
