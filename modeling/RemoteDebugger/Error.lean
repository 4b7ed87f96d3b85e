import RemoteDebugger.Text.Utf8

/-!
# Errors

Why a request, an evaluation or the connection failed. Each cause is a constructor, `Error.message`
is the one place for its wording, and `Error.isFatal` tells the causes that end a session from those
that are only reported.
-/

namespace RemoteDebugger

/-- Longest expression that is parsed, in bytes. -/
def maxExpressionLength : Nat := 4096

/-- Deepest nesting of brackets in an expression that is parsed. -/
def maxNesting : Nat := 32

inductive ParseFault where
  | tooLong
  | tooDeep
  /-- The text does not follow the grammar. -/
  | malformed
  /-- A cause in the words of the host runtime. -/
  | other (text : String)
  deriving DecidableEq, Repr

/-- Why the value of an expression does not exist. Types are given by their names. -/
inductive EvalFault where
  | integerOverflow
  | divisionByZero
  | moduloByZero
  | indexOutOfRange
  | keyNotFound (key : String)
  | notSubscriptable (base index : String)
  | unsupportedOperands (what lhs rhs : String)
  | badNegation (operand : String)
  | noLength (type : String)
  | notCallable
  | argumentCount (function : String) (given : Nat)
  | noException
  /-- A cause in the words of the host runtime. -/
  | other (text : String)
  deriving DecidableEq, Repr

inductive Error where
  | io (text : String)
  | connectionClosed
  | malformedFrame (text : String)
  | unknownCommand (code : Nat)
  | unexpectedCommand (name : String)
  | invalidPayload (what text : String)
  | evenSequence (seq : Int)
  | invalidText (fault : Text.Fault)
  | threadNotFound (id : String)
  | threadNotSuspended (id : String)
  | frameNotFound (id : String)
  | sessionTerminated
  | expression (fault : ParseFault)
  | nameNotFound (name : String)
  | attributeNotFound (type name : String)
  | evaluation (fault : EvalFault)
  | unsupported (what : String)
  | resolver (name text : String)
  | notAContainer (type : String)
  | configuration
  | host (text : String)
  deriving DecidableEq, Repr

namespace ParseFault

def message : ParseFault → String
  | tooLong => s!"expression is longer than {maxExpressionLength} bytes"
  | tooDeep => s!"expression is nested deeper than {maxNesting} levels"
  | malformed => "syntax error"
  | other text => text

end ParseFault

namespace EvalFault

/-- The wording of an evaluation fault. -/
def message : EvalFault → String
  | integerOverflow => "integer overflow"
  | divisionByZero => "division by zero"
  | moduloByZero => "modulo by zero"
  | indexOutOfRange => "index out of range"
  | keyNotFound key => "key not found: " ++ key
  | notSubscriptable base index => s!"`{base}` is not subscriptable by `{index}`"
  | unsupportedOperands what lhs rhs =>
    s!"unsupported operand types for {what}: `{lhs}` and `{rhs}`"
  | badNegation operand => s!"bad operand type for unary -: `{operand}`"
  | noLength type => s!"object of type `{type}` has no len()"
  | notCallable => "only built-in functions can be called"
  | argumentCount function given => s!"{function}() takes exactly one argument ({given} given)"
  | noException => "no current exception"
  | other text => text

end EvalFault

namespace Error

def message : Error → String
  | io text => text
  | connectionClosed => "connection closed by controller"
  | malformedFrame text => "malformed frame: " ++ text
  | unknownCommand code => s!"unknown command id {code}"
  | unexpectedCommand name => s!"command {name} is not accepted from a controller"
  | invalidPayload what text => s!"invalid {what} payload: {text}"
  | evenSequence seq => s!"request sequence number must be odd, got {seq}"
  | invalidText fault => fault.message
  | threadNotFound id => s!"thread {id} not found"
  | threadNotSuspended id => s!"thread {id} is not suspended"
  | frameNotFound id => s!"frame {id} not found"
  | sessionTerminated => "session terminated"
  | expression fault => "expression parsing error: " ++ fault.message
  | nameNotFound name => s!"name `{name}` is not defined"
  | attributeNotFound type name => s!"`{type}` has no attribute `{name}`"
  | evaluation fault => "evaluation error: " ++ fault.message
  | unsupported what => "unsupported operation: " ++ what
  | resolver name text => s!"resolver `{name}` failed: {text}"
  | notAContainer type => s!"value of type `{type}` has no children"
  | configuration => "configuration"
  | host text => "host: " ++ text

/-- The session cannot go on after this error: there is no controller to report it to. -/
def isFatal : Error → Bool
  | io _ | connectionClosed | sessionTerminated => true
  | _ => false

end Error

end RemoteDebugger
