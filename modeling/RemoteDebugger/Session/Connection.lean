import RemoteDebugger.Session.Request

/-!
# Connections

A session on a byte stream. The reader carries out the requests it can read and skips lines it
cannot, until the stream ends or the session does, and then the session is over. The writer writes
what the session has sent, up to the mark that closes the connection. Both can log what passes.
-/

namespace RemoteDebugger

/-- A line of the message log, which begins with the direction of the message. Line feeds at the end
of the payload are not kept. -/
def Wire.logLine (direction : String) (code : Nat) (seq : Int) (payload : String) : String :=
  let text := s!"{code}\t{seq}\t{payload}"
  direction ++ " " ++ String.ofList (Text.dropEndWhile (· == '\n') text.toList)

namespace Session

/-- Handle what was read from a line: a request is carried out, and a malformed line changes
nothing. -/
def handle (s : Session) : Except Error Wire.Request → Session
  | .ok r => s.request r.code r.seq r.payload
  | .error _ => s

/-- Handle one thing after the other, up to an error that ends the session or until the session is
over. Between the one at a position and the next, the program and its host act on the session by
`others`. Returns the session and the requests that were carried out. -/
def readLines (others : Nat → Session → Session) (position : Nat) (s : Session) :
    List (Except Error Wire.Request) → Session × List Wire.Request
  | [] => (s, [])
  | .error e :: rest =>
    if e.isFatal then (s, [])
    else
      let s := others position (s.handle (.error e))
      if s.finished then (s, []) else readLines others (position + 1) s rest
  | .ok r :: rest =>
    let s := others position (s.handle (.ok r))
    if s.finished then (s, [r])
    else
      let (s, rs) := readLines others (position + 1) s rest
      (s, r :: rs)

/-- Read a byte stream to its end or the end of the session; either way the session is then over. -/
def readStreamAmid (others : Nat → Session → Session) (s : Session) (bytes : List UInt8)
    (ending : Wire.Ending) : Session × List Wire.Request :=
  let (s, rs) := s.readLines others 0 (Wire.readRequests bytes ending)
  (s.finish, rs)

/-- Read a byte stream while the stopped threads serve what they are asked for. -/
def readStream (s : Session) (bytes : List UInt8) (ending : Wire.Ending) :
    Session × List Wire.Request :=
  let (s, rs) := s.readStreamAmid (fun _ => settle) bytes ending
  (s.settle, rs)

/-- Log lines of the requests that were read. -/
def incomingLog (rs : List Wire.Request) : List String :=
  rs.map fun r => Wire.logLine "<-" r.code r.seq r.payload

/-- Log lines of the messages that were written. -/
def outgoingLog (ms : List Wire.Message) : List String :=
  ms.map fun m => Wire.logLine "->" m.command.code m.seq m.payload

end Session

end RemoteDebugger
