import RemoteDebugger.Proofs.Session.Reading
import RemoteDebugger.Proofs.Wire.Log

/-!
# The log of a connection

The reader logs the requests it carries out and the writer the messages it writes, each side in its
order. The payload of a request is any text, and a few commands of the engine pass on a text as it
is; the payloads of all others are one line each, so it is these few messages and the requests that
can have several lines in the log.
-/

namespace RemoteDebugger.Session

open Wire (Passage LogTells textLines)

variable {s : Session} {others : Nat → Session → Session}

/-- A reaction sends nothing that its command cannot carry, so that messages of several lines are of
the known kinds. -/
theorem carries_react (h : ∀ m ∈ s.outbox.messages, m.command.Carries m.payload) (i : Input) :
    ∀ m ∈ (s.react i).1.outbox.messages, m.command.Carries m.payload := by
  obtain ends | ⟨-, ms, sent, carries⟩ := s.ends_or_speaks i
  · rw [finish_of_ends ends, finish]
    split
    · exact h
    · rwa [Wire.Outbox.messages_close]
  · have added : (s.react i).1.outbox.messages = s.outbox.messages ++ ms := by
      rw [Wire.Outbox.messages, sent, List.filterMap_append, List.filterMap_map]
      exact congrArg _ (List.filterMap_some)
    rw [added]
    exact List.forall_mem_append.mpr ⟨h, carries⟩

/-- Every message that is ever sent has a payload that its command can have. -/
theorem Reachable.carries (h : Reachable s) :
    ∀ m ∈ s.outbox.messages, m.command.Carries m.payload := by
  obtain ⟨setup, program, inputs, rfl⟩ := h
  refine run_invariant (P := fun s => ∀ m ∈ s.outbox.messages, m.command.Carries m.payload)
    (fun s i carries => carries_react carries i) ?_ inputs
  intro m sent
  cases sent

/-- The messages that are written have been sent. -/
theorem written_subset (o : Wire.Outbox) : o.written ⊆ o.messages :=
  ((List.takeWhile_prefix _).sublist.filterMap _).subset

section

variable (acts : ∀ n s, ∃ inputs, others n s = s.run inputs)
include acts

/-- Handling a line is a reaction to its request, and the other threads act after it. -/
theorem handle_run (s : Session) (position : Nat) (x : Except Error Wire.Request) :
    ∃ inputs, others position (s.handle x) = s.run inputs := by
  cases x with
  | error e => exact acts position s
  | ok r =>
      obtain ⟨inputs, acted⟩ := acts position (s.request r.code r.seq r.payload)
      exact ⟨.request r.code r.seq r.payload :: inputs, acted⟩

/-- Whatever lines come, reading them is a run of the session. -/
theorem readLines_run (s : Session) (position : Nat) (xs : List (Except Error Wire.Request)) :
    ∃ inputs, (s.readLines others position xs).1 = s.run inputs := by
  induction xs generalizing s position with
  | nil => exact ⟨[], rfl⟩
  | cons x xs ih =>
      obtain ⟨inputs, acted⟩ := handle_run acts s position x
      obtain ⟨later, read⟩ := ih (others position (s.handle x)) (position + 1)
      have further : ∃ inputs, ((others position (s.handle x)).readLines others
          (position + 1) xs).1 =
          s.run inputs := by
        rw [read, acted, ← run_append]
        exact ⟨_, rfl⟩
      cases x with
      | error e =>
          simp only [readLines]
          split
          · exact ⟨[], rfl⟩
          · split
            · exact ⟨inputs, acted⟩
            · exact further
      | ok r =>
          simp only [readLines]
          split
          · exact ⟨inputs, acted⟩
          · exact further

/-- Whatever bytes come, and however the stream ends, reading it is a run of the session. -/
theorem readStreamAmid_run (s : Session) (bytes : List UInt8) (ending : Wire.Ending) :
    ∃ inputs, (s.readStreamAmid others bytes ending).1 = s.run inputs := by
  obtain ⟨inputs, read⟩ := readLines_run acts s 0 (Wire.readRequests bytes ending)
  refine ⟨inputs ++ [.finish], ?_⟩
  rw [run_concat, ← read]
  rfl

end

/-- A log of a connection takes down the requests that were read and the messages that were written,
up to some point. The sides may alternate in any way, and each is in its order. -/
structure IsLogOf (ps : List Passage) (s : Session) (rs : List Wire.Request) : Prop where
  read : ps.filter (fun p => p.direction = .incoming) <+: rs.map Passage.ofRequest
  written : ps.filter (fun p => p.direction = .outgoing) <+: s.outbox.written.map Passage.ofMessage

/-- What the log of a connection tells. -/
structure ConnectionLogged (ps : List Passage) (s : Session) (rs : List Wire.Request) : Prop where
  /-- The entries of either side are the first ones of its log. -/
  read : (ps.filter fun p => p.direction = .incoming).map (fun p => String.ofList p.entry) <+:
    incomingLog rs
  written : (ps.filter fun p => p.direction = .outgoing).map (fun p => String.ofList p.entry) <+:
    outgoingLog s.outbox.written
  tells : LogTells ps
  /-- A message of the engine that has several lines in the log passes on a text as it is. -/
  verbatim : ∀ p ∈ ps, p.direction = .outgoing → ¬ p.IsSingle →
    ∃ m ∈ s.outbox.messages, p = Passage.ofMessage m ∧ m.command.isVerbatim = true

theorem isSingle_of_notMem {p : Passage} (line : '\n' ∉ p.payload.toList) : p.IsSingle :=
  fun member => line ((List.rdropWhile_prefix _ _).subset member)

theorem map_entry_incoming (rs : List Wire.Request) :
    (rs.map Passage.ofRequest).map (fun p => String.ofList p.entry) = incomingLog rs := by
  rw [List.map_map, incomingLog]
  exact List.map_congr_left fun r _ => String.ofList_toList

theorem map_entry_outgoing (ms : List Wire.Message) :
    (ms.map Passage.ofMessage).map (fun p => String.ofList p.entry) = outgoingLog ms := by
  rw [List.map_map, outgoingLog]
  exact List.map_congr_left fun m _ => String.ofList_toList

/-- The log has the lines of its messages, in order: one line each, unless a payload has a line feed
inside. Then the further lines of this payload stand in the log as they are, and may show a message
that has not passed. The payload is that of a request or of one of the few messages that pass on a
text. -/
theorem log_has_lines_of_payloads (setup : Setup) (program : Program) (past : List Input)
    (acts : ∀ n s, ∃ inputs, others n s = s.run inputs) (bytes : List UInt8) (ending : Wire.Ending)
    {ps : List Passage}
    (log : IsLogOf ps (((start setup program).run past).readStreamAmid others bytes ending).1
      (((start setup program).run past).readStreamAmid others bytes ending).2) :
    ConnectionLogged ps (((start setup program).run past).readStreamAmid others bytes ending).1
      (((start setup program).run past).readStreamAmid others bytes ending).2 := by
  obtain ⟨inputs, run⟩ := readStreamAmid_run acts ((start setup program).run past) bytes ending
  have reachable : Reachable (((start setup program).run past).readStreamAmid others bytes
      ending).1 :=
    ⟨setup, program, past ++ inputs, run.trans (run_append _ past inputs).symm⟩
  refine ⟨?_, ?_, Wire.logTells ps, ?_⟩
  · rw [← map_entry_incoming]
    exact log.read.map _
  · rw [← map_entry_outgoing]
    exact log.written.map _
  · intro p passed outgoing several
    have own : p ∈ ps.filter fun p => p.direction = .outgoing :=
      List.mem_filter.mpr ⟨passed, decide_eq_true outgoing⟩
    obtain ⟨m, written, rfl⟩ := List.mem_map.mp (log.written.subset own)
    have sent := written_subset _ written
    refine ⟨m, sent, rfl, (reachable.carries m sent).resolve_right fun line => ?_⟩
    exact several (isSingle_of_notMem line)

/-- A request for the version, and its answer. -/
def versionLog : List Passage := [⟨.incoming, 501, 1, "1.1"⟩, ⟨.outgoing, 501, 1, "1.1"⟩]

/-- A connection with a single request meets the conditions, and its log has the lines that are
promised. -/
theorem versionLog_has_lines :
    (∀ (_ : Nat) (s : Session), ∃ inputs, s.settle = s.run inputs) ∧
      IsLogOf versionLog
        ((start {} {}).readStreamAmid (fun _ => settle) (Text.encode "501\t1\t1.1\n".toList)
          .closed).1
        ((start {} {}).readStreamAmid (fun _ => settle) (Text.encode "501\t1\t1.1\n".toList)
          .closed).2 ∧
      ConnectionLogged versionLog
        ((start {} {}).readStreamAmid (fun _ => settle) (Text.encode "501\t1\t1.1\n".toList)
          .closed).1
        ((start {} {}).readStreamAmid (fun _ => settle) (Text.encode "501\t1\t1.1\n".toList)
          .closed).2 := by
  have acts (_ : Nat) (s : Session) : ∃ inputs, s.settle = s.run inputs := by
    obtain ⟨positions, settled⟩ := s.settle_run
    exact ⟨_, settled⟩
  have log : IsLogOf versionLog
      ((start {} {}).readStreamAmid (fun _ => settle) (Text.encode "501\t1\t1.1\n".toList)
        .closed).1
      ((start {} {}).readStreamAmid (fun _ => settle) (Text.encode "501\t1\t1.1\n".toList)
        .closed).2 :=
    ⟨by decide +kernel, by decide +kernel⟩
  exact ⟨acts, log, log_has_lines_of_payloads {} {} [] acts _ .closed log⟩

example : Wire.logText versionLog = "<- 501\t1\t1.1\n-> 501\t1\t1.1\n".toList := by decide +kernel

/-- A request whose payload has a second line, which looks like the entry of a message of the
engine. -/
def forgingBytes : List UInt8 := Text.encode "501\t1\tx%0A-> 901%099%09forged\n".toList

def forged : Passage := ⟨.outgoing, 901, 9, "forged"⟩

/-- The request and its answer have three lines in the log, and one of them shows a message that was
never sent. -/
theorem forged_message_is_logged :
    IsLogOf [⟨.incoming, 501, 1, "x\n-> 901\t9\tforged"⟩, ⟨.outgoing, 501, 1, "1.1"⟩]
        ((start {} {}).readStreamAmid (fun _ => settle) forgingBytes .closed).1
        ((start {} {}).readStreamAmid (fun _ => settle) forgingBytes .closed).2 ∧
      textLines (Wire.logText [⟨.incoming, 501, 1, "x\n-> 901\t9\tforged"⟩,
        ⟨.outgoing, 501, 1, "1.1"⟩]) =
        ["<- 501\t1\tx".toList, forged.entry, "-> 501\t1\t1.1".toList] ∧
      ∀ m ∈ ((start {} {}).readStreamAmid (fun _ => settle) forgingBytes .closed).1.outbox.messages,
        Passage.ofMessage m ≠ forged :=
  ⟨⟨by decide +kernel, by decide +kernel⟩, by decide +kernel, by decide +kernel⟩

end RemoteDebugger.Session
