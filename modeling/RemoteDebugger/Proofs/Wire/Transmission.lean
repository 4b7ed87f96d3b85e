import RemoteDebugger.Proofs.Wire.Line
import RemoteDebugger.Wire.Outbox

/-!
# What is sent arrives

The writer puts one line on the connection for every message before the first close mark. The reader
at the other end finds exactly these messages: every call made before the connection was closed
arrives once, in the order of the calls, and no call made afterwards does.
-/

namespace RemoteDebugger.Wire

def Message.bytes (m : Message) : List UInt8 := Text.encode m.toLine.toList

/-- A message as the other end reads it. -/
def Message.asRequest (m : Message) : Request := ⟨m.command.code, m.seq, m.payload⟩

/-- The bytes that the writer puts on the connection. -/
def Outbox.bytes (o : Outbox) : List UInt8 := (o.written.map Message.bytes).flatten

theorem isFrame_bytes (m : Message) : IsFrame m.bytes := by
  rw [Message.bytes, toLine_eq]
  exact isFrame_lineOf m.command.code m.seq m.payload

theorem code_le_maxUInt32 (c : Command) : c.code ≤ Text.maxUInt32 := by
  cases c <;> decide

@[simp] theorem ofBytes_bytes {m : Message} (fits : Text.IsInt64 m.seq) :
    Request.ofBytes m.bytes = .ok m.asRequest := by
  rw [Message.bytes, toLine_eq]
  exact ofBytes_lineOf (code_le_maxUInt32 m.command) fits

@[simp] theorem linesOf_bytes (o : Outbox) : linesOf o.bytes = o.written.map Message.bytes := by
  refine linesOf_flatten ?_
  intro line member
  obtain ⟨m, -, rfl⟩ := List.mem_map.mp member
  exact isFrame_bytes m

/-- The reader finds the messages that were written, and then the end of the connection. -/
theorem readRequests_bytes {o : Outbox} (fits : ∀ m ∈ o.written, Text.IsInt64 m.seq) :
    readRequests o.bytes .closed =
      (o.written.map Message.asRequest).map .ok ++ [.error .connectionClosed] := by
  have read : (o.written.map Message.bytes).map Request.ofBytes =
      (o.written.map Message.asRequest).map .ok := by
    rw [List.map_map, List.map_map]
    refine List.map_congr_left ?_
    intro m member
    rw [Function.comp_apply, Function.comp_apply, ofBytes_bytes (fits m member)]
  rw [readRequests, Ending.readable, Ending.error, linesOf_bytes, read]

inductive Send where
  | notify (command : Command) (payload : String)
  | respond (command : Command) (seq : Int) (payload : String)
  deriving DecidableEq, Repr

inductive Call where
  | send (message : Send)
  | close
  deriving DecidableEq, Repr

namespace Outbox

def send (o : Outbox) : Send → Outbox
  | .notify command payload => o.notify command payload
  | .respond command seq payload => o.respond command seq payload

def sendAll (o : Outbox) (sends : List Send) : Outbox := sends.foldl send o

def perform (o : Outbox) : Call → Outbox
  | .send message => o.send message
  | .close => o.close

def performAll (o : Outbox) (calls : List Call) : Outbox := calls.foldl perform o

end Outbox

/-- What the other end has to read when `k` notifications were sent before: the next notification
has twice its number in the row of notifications, a response has the number it was sent with. -/
def announced (k : Nat) : List Send → List Request
  | [] => []
  | .notify command payload :: rest =>
    ⟨command.code, 2 * (k + 1), payload⟩ :: announced (k + 1) rest
  | .respond command seq payload :: rest => ⟨command.code, seq, payload⟩ :: announced k rest

/-- Sending appends the announced messages. The counter stands at twice the number of
notifications. -/
theorem entries_sendAll (sends : List Send) :
    ∀ (o : Outbox) (k : Nat), o.lastSeq = 2 * k →
      ∃ ms : List Message, (o.sendAll sends).entries = o.entries ++ ms.map .message ∧
        ms.map Message.asRequest = announced k sends := by
  induction sends with
  | nil =>
      intro o k counter
      exact ⟨[], (List.append_nil o.entries).symm, rfl⟩
  | cons message sends ih =>
      intro o k counter
      cases message with
      | notify command payload =>
          have next : (o.notify command payload).lastSeq = 2 * (k + 1 : Nat) := by
            show o.lastSeq + 2 = _
            omega
          obtain ⟨ms, entries, announces⟩ := ih (o.notify command payload) (k + 1) next
          refine ⟨⟨command, o.lastSeq + 2, payload⟩ :: ms, ?_, ?_⟩
          · show ((o.notify command payload).sendAll sends).entries = _
            rw [entries, Outbox.notify, List.append_assoc]
            rfl
          · have number : o.lastSeq + 2 = 2 * (k + 1) := by omega
            rw [List.map_cons, announces, announced, Message.asRequest, number]
      | respond command seq payload =>
          obtain ⟨ms, entries, announces⟩ := ih (o.respond command seq payload) k counter
          refine ⟨⟨command, seq, payload⟩ :: ms, ?_, ?_⟩
          · show ((o.respond command seq payload).sendAll sends).entries = _
            rw [entries, Outbox.respond, List.append_assoc]
            rfl
          · rw [List.map_cons, announces, announced, Message.asRequest]

theorem entries_perform (o : Outbox) (call : Call) :
    ∃ entry, (o.perform call).entries = o.entries ++ [entry] := by
  cases call with
  | send message => cases message <;> exact ⟨_, rfl⟩
  | close => exact ⟨.close, rfl⟩

/-- A call never takes an entry back. -/
theorem entries_performAll (calls : List Call) :
    ∀ o : Outbox, ∃ later, (o.performAll calls).entries = o.entries ++ later := by
  induction calls with
  | nil => exact fun o => ⟨[], (List.append_nil o.entries).symm⟩
  | cons call calls ih =>
      intro o
      obtain ⟨entry, one⟩ := entries_perform o call
      obtain ⟨later, rest⟩ := ih (o.perform call)
      refine ⟨entry :: later, ?_⟩
      show ((o.perform call).performAll calls).entries = _
      rw [rest, one, List.append_assoc]
      rfl

/-- What is sent before the end of the stream is all that is written, and nothing that comes after
it. -/
theorem takeWhile_messages (ms : List Message) (later : List Outgoing) :
    (ms.map Outgoing.message ++ .close :: later).takeWhile (· != .close) = ms.map .message := by
  have messages : ∀ e ∈ ms.map Outgoing.message, (e != .close) = true := by
    intro e member
    obtain ⟨m, -, rfl⟩ := List.mem_map.mp member
    rfl
  rw [List.takeWhile_append_of_pos messages, List.takeWhile_cons_of_neg (by decide),
    List.append_nil]

theorem messages_of_entries {o : Outbox} {ms : List Message}
    (entries : o.entries = ms.map .message) : o.messages = ms := by
  rw [Outbox.messages, entries, List.filterMap_map]
  exact List.filterMap_some

/-- The messages before the first close mark are written, and nothing else. -/
theorem written_of_entries {o : Outbox} {ms : List Message} {later : List Outgoing}
    (entries : o.entries = ms.map .message ++ .close :: later) : o.written = ms := by
  rw [Outbox.written, entries, takeWhile_messages, List.filterMap_map]
  exact List.filterMap_some

/-- An outbox that was closed after some messages delivers these messages. -/
structure Delivers (o : Outbox) (sends : List Send) : Prop where
  /-- The reader finds them in the order in which they were sent, and then the end. -/
  received : readRequests o.bytes .closed =
    (announced 0 sends).map .ok ++ [.error .connectionClosed]
  /-- Nothing is written but what was sent before the connection was closed. -/
  sealed : o.written = (({} : Outbox).sendAll sends).messages
  /-- Each message is one line. -/
  lines : linesOf o.bytes = o.written.map Message.bytes
  /-- Each line has two tabs, and one line feed as its last byte. -/
  framed : ∀ m ∈ o.written, IsFrame m.bytes

/-- Messages sent to a new outbox before it is closed arrive unchanged, whatever is called
afterwards. The numbers of the responses are of 64 bits, and so is the counter of the
notifications. -/
theorem sent_messages_arrive (sends : List Send) (further : List Call)
    (fits : ∀ r ∈ announced 0 sends, Text.IsInt64 r.seq) :
    Delivers ((({} : Outbox).sendAll sends).close.performAll further) sends := by
  obtain ⟨ms, sent, announces⟩ := entries_sendAll sends {} 0 rfl
  have sent' : (({} : Outbox).sendAll sends).entries = ms.map .message := sent
  obtain ⟨later, called⟩ := entries_performAll further (({} : Outbox).sendAll sends).close
  have entries : ((({} : Outbox).sendAll sends).close.performAll further).entries =
      ms.map .message ++ .close :: later := by
    rw [called, Outbox.close, sent', List.append_assoc]
    rfl
  have written := written_of_entries entries
  constructor
  · have within : ∀ m ∈ ms, Text.IsInt64 m.seq := by
      intro m member
      refine fits m.asRequest ?_
      rw [← announces]
      exact List.mem_map_of_mem member
    rw [readRequests_bytes (written ▸ within), written, announces]
  · rw [written, messages_of_entries sent']
  · exact linesOf_bytes _
  · exact fun m _ => isFrame_bytes m

/-- Two notifications around a response, with texts that look like a line and like an escape, and a
further message after the connection is closed. -/
theorem awkward_messages_arrive :
    let sends : List Send := [.notify .writeToConsole "101\t1\ttext\r\n",
      .respond .getVariable (-7) "100%41\t\u00E9\u20AC\r", .notify .threadRun ""]
    (∀ r ∈ announced 0 sends, Text.IsInt64 r.seq) ∧
      Delivers ((({} : Outbox).sendAll sends).close.performAll
        [.send (.notify .threadKill "1"), .close]) sends :=
  ⟨by decide, sent_messages_arrive _ _ (by decide)⟩

end RemoteDebugger.Wire
