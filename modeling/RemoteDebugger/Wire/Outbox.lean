import RemoteDebugger.Wire.Message

/-!
# Outbox

The messages of the engine in the order in which they are sent. Notifications get even sequence
numbers from a counter, responses carry the number of their request. Closing puts a mark into the
outbox; whatever is sent after it is not written any more.
-/

namespace RemoteDebugger.Wire

inductive Outgoing where
  | message (m : Message)
  | close
  deriving DecidableEq, Repr

def Outgoing.message? : Outgoing → Option Message
  | message m => some m
  | close => none

structure Outbox where
  lastSeq : Int := 0
  entries : List Outgoing := []
  deriving DecidableEq, Repr

namespace Outbox

/-- Send a notification under the next even number. After the end of the stream it is put in all the
same, and is not written. -/
def notify (o : Outbox) (command : Command) (payload : String) : Outbox :=
  { lastSeq := o.lastSeq + 2
    entries := o.entries ++ [.message ⟨command, o.lastSeq + 2, payload⟩] }

/-- Answer the request with the given number. -/
def respond (o : Outbox) (command : Command) (seq : Int) (payload : String) : Outbox :=
  { o with entries := o.entries ++ [.message ⟨command, seq, payload⟩] }

/-- Close the connection once everything sent so far is written. -/
def close (o : Outbox) : Outbox := { o with entries := o.entries ++ [.close] }

def messages (o : Outbox) : List Message := o.entries.filterMap Outgoing.message?

/-- The messages that are written to the connection: those before the end of the stream. -/
def written (o : Outbox) : List Message :=
  (o.entries.takeWhile (· != .close)).filterMap Outgoing.message?

end Outbox

end RemoteDebugger.Wire
