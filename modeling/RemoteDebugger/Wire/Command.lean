/-!
# Commands

The commands of the controller protocol with their codes and names. A code that is not in the table
is no command; distinct commands have distinct codes.
-/

namespace RemoteDebugger.Wire

/-- A command of the protocol: a request, a response or a notification. -/
inductive Command where
  | run
  | listThreads
  | threadCreate
  | threadKill
  | threadSuspend
  | threadRun
  | stepInto
  | stepOver
  | stepReturn
  | getVariable
  | setBreak
  | removeBreak
  | evaluateExpression
  | getFrame
  | execExpression
  | writeToConsole
  | changeVariable
  | runToLine
  | reloadCode
  | getCompletions
  | setNextStatement
  | setExceptionBreak
  | getFileContents
  | runCustomOperation
  | getBreakpointException
  | stepCaughtException
  | sendExceptionTrace
  | sendExceptionTraceProceeded
  | ignoreThrownExceptionAt
  | enableDontTrace
  | signatureCallTrace
  | version
  | result
  | error
  deriving DecidableEq, Repr

namespace Command

def code : Command → Nat
  | run => 101
  | listThreads => 102
  | threadCreate => 103
  | threadKill => 104
  | threadSuspend => 105
  | threadRun => 106
  | stepInto => 107
  | stepOver => 108
  | stepReturn => 109
  | getVariable => 110
  | setBreak => 111
  | removeBreak => 112
  | evaluateExpression => 113
  | getFrame => 114
  | execExpression => 115
  | writeToConsole => 116
  | changeVariable => 117
  | runToLine => 118
  | reloadCode => 119
  | getCompletions => 120
  | setNextStatement => 121
  | setExceptionBreak => 122
  | getFileContents => 123
  | runCustomOperation => 127
  | getBreakpointException => 128
  | stepCaughtException => 129
  | sendExceptionTrace => 130
  | sendExceptionTraceProceeded => 131
  | ignoreThrownExceptionAt => 132
  | enableDontTrace => 133
  | signatureCallTrace => 150
  | version => 501
  | result => 502
  | error => 901

def name : Command → String
  | run => "RUN"
  | listThreads => "LIST_THREADS"
  | threadCreate => "THREAD_CREATE"
  | threadKill => "THREAD_KILL"
  | threadSuspend => "THREAD_SUSPEND"
  | threadRun => "THREAD_RUN"
  | stepInto => "STEP_INTO"
  | stepOver => "STEP_OVER"
  | stepReturn => "STEP_RETURN"
  | getVariable => "GET_VARIABLE"
  | setBreak => "SET_BREAK"
  | removeBreak => "REMOVE_BREAK"
  | evaluateExpression => "EVALUATE_EXPRESSION"
  | getFrame => "GET_FRAME"
  | execExpression => "EXEC_EXPRESSION"
  | writeToConsole => "WRITE_TO_CONSOLE"
  | changeVariable => "CHANGE_VARIABLE"
  | runToLine => "RUN_TO_LINE"
  | reloadCode => "RELOAD_CODE"
  | getCompletions => "GET_COMPLETIONS"
  | setNextStatement => "SET_NEXT_STATEMENT"
  | setExceptionBreak => "SET_PY_EXCEPTION"
  | getFileContents => "GET_FILE_CONTENTS"
  | runCustomOperation => "RUN_CUSTOM_OPERATION"
  | getBreakpointException => "GET_BREAKPOINT_EXCEPTION"
  | stepCaughtException => "STEP_CAUGHT_EXCEPTION"
  | sendExceptionTrace => "SEND_CURR_EXCEPTION_TRACE"
  | sendExceptionTraceProceeded => "SEND_CURR_EXCEPTION_TRACE_PROCEEDED"
  | ignoreThrownExceptionAt => "IGNORE_THROWN_EXCEPTION_AT"
  | enableDontTrace => "ENABLE_DONT_TRACE"
  | signatureCallTrace => "SIGNATURE_CALL_TRACE"
  | version => "VERSION"
  | result => "RETURN"
  | error => "ERROR"

def all : List Command :=
  [run, listThreads, threadCreate, threadKill, threadSuspend, threadRun, stepInto, stepOver,
    stepReturn, getVariable, setBreak, removeBreak, evaluateExpression, getFrame, execExpression,
    writeToConsole, changeVariable, runToLine, reloadCode, getCompletions, setNextStatement,
    setExceptionBreak, getFileContents, runCustomOperation, getBreakpointException,
    stepCaughtException, sendExceptionTrace, sendExceptionTraceProceeded, ignoreThrownExceptionAt,
    enableDontTrace, signatureCallTrace, version, result, error]

def ofCode? (n : Nat) : Option Command := all.find? fun c => c.code = n

@[simp] theorem ofCode?_code (c : Command) : ofCode? c.code = some c := by cases c <;> rfl

end Command

end RemoteDebugger.Wire
