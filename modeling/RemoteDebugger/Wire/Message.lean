import RemoteDebugger.Error
import RemoteDebugger.Wire.Command
import RemoteDebugger.Text.Blank
import RemoteDebugger.Wire.Percent

/-!
# Messages and their lines

A message is one line: the code of its command, its sequence number and its percent-encoded payload,
separated by tabs. A request is read as the code it carries, which need not be a command. Reading
splits a byte sequence into lines first and looks at each line alone, so a malformed line is
reported and skipped and the next one is read as if it were the first.
-/

namespace RemoteDebugger.Wire

/-- A message of the engine, with the payload before encoding. -/
structure Message where
  command : Command
  seq : Int
  payload : String
  deriving DecidableEq, Repr

/-- A message of the controller, whose command is still a number. -/
structure Request where
  code : Nat
  seq : Int
  payload : String
  deriving DecidableEq, Repr

/-- The line of a message, with its line feed. -/
def Message.toLine (m : Message) : String :=
  s!"{m.command.code}\t{m.seq}\t{quote m.payload}\n"

/-- Separate a text at the first occurrence of a character, which belongs to neither part. -/
def cutAt (sep : Char) (cs : List Char) : List Char × Option (List Char) :=
  match cs.dropWhile (· != sep) with
  | [] => (cs, none)
  | _ :: rest => (cs.takeWhile (· != sep), some rest)

def isLineEnd (c : Char) : Bool := c == '\r' || c == '\n'

/-- Read the line of a request; line ends at its end are ignored. -/
def Request.ofLine (line : String) : Except Error Request :=
  let text := Text.dropEndWhile isLineEnd line.toList
  match cutAt '\t' text with
  | (_, none) => .error (.malformedFrame (String.ofList text))
  | (code, some rest) =>
    let (seq, payload) := cutAt '\t' rest
    match Text.unsigned? Text.maxUInt32 code with
    | none => .error (.malformedFrame s!"bad command id `{String.ofList code}`")
    | some code =>
      match Text.signed? seq with
      | none => .error (.malformedFrame s!"bad sequence `{String.ofList seq}`")
      | some seq =>
        .ok ⟨code, seq, (payload.map fun p => unquote (String.ofList p)).getD ""⟩

def Request.ofBytes (bytes : List UInt8) : Except Error Request :=
  match Text.decode? bytes with
  | none => .error (.malformedFrame "frame is not valid utf-8")
  | some text => Request.ofLine (String.ofList text)

/-- Prepend a byte to the first line of a list of lines. -/
def pushByte (b : UInt8) : List (List UInt8) → List (List UInt8)
  | [] => [[b]]
  | line :: lines => (b :: line) :: lines

/-- The lines of a byte sequence, each with its line feed; the last one may lack it. -/
def linesOf : List UInt8 → List (List UInt8)
  | [] => []
  | b :: rest => if b = 0x0A then [b] :: linesOf rest else pushByte b (linesOf rest)

/-- How a byte stream ends: in an orderly way, or with a failure to read on. -/
inductive Ending where
  | closed
  | failed (text : String)
  deriving DecidableEq, Repr

/-- What a reader finds at the end of a stream. -/
def Ending.error : Ending → Error
  | closed => .connectionClosed
  | failed text => .io text

def isComplete (line : List UInt8) : Bool := line.getLast? == some 0x0A

/-- The lines that can be read. A last line without a line feed is lost if the stream fails. -/
def Ending.readable (e : Ending) (lines : List (List UInt8)) : List (List UInt8) :=
  match e with
  | closed => lines
  | failed _ => lines.filter isComplete

/-- What is read from a byte stream: one request or malformed line after the other, then the end. -/
def readRequests (bytes : List UInt8) (ending : Ending) : List (Except Error Request) :=
  (ending.readable (linesOf bytes)).map Request.ofBytes ++ [.error ending.error]

end RemoteDebugger.Wire
