import RemoteDebugger.Proofs.Session.Termination
import RemoteDebugger.Proofs.Wire.Grammar
import RemoteDebugger.Session.Connection

/-!
# What a reader carries out

A reader handles the lines of a byte sequence one after the other, while the program and its host go
on with the same session. Whatever the bytes are, each line is read for itself, malformed lines are
skipped, and the requests are carried out in their order up to the one that ends the session. At the
end of the reading the session is over in any case.

What the others do after the line at a position is an arbitrary function of the session. The only
thing asked of it is not to end a session, so that it is the reader that does.
-/

namespace RemoteDebugger

/-- The requests that lines hold, in their order. -/
def Wire.requestsIn (lines : List (List UInt8)) : List Wire.Request :=
  lines.filterMap fun line => (Wire.Request.ofBytes line).toOption

namespace Session

variable {others : Nat → Session → Session} {position : Nat} {s : Session}
variable {line : List UInt8} {lines done rest : List (List UInt8)}

/-- The session after some lines: each is handled, and then the others act. -/
def afterLines (others : Nat → Session → Session) (position : Nat) (s : Session) :
    List (List UInt8) → Session
  | [] => s
  | line :: lines =>
    afterLines others (position + 1) (others position (s.handle (Wire.Request.ofBytes line))) lines

/-- A reader handles some lines and does not come to the rest. -/
structure ReadsUpTo (others : Nat → Session → Session) (position : Nat) (s : Session)
    (done rest : List (List UInt8)) : Prop where
  /-- The session lasts as long as there are lines to handle. -/
  ongoing : ∀ earlier line later, done = earlier ++ line :: later →
    (s.afterLines others position earlier).finished = false
  /-- Lines are left over only if the session has ended. -/
  stopped : rest = [] ∨ (s.afterLines others position done).finished = true
  /-- Only a request ends the session: the last line holds it. -/
  ended : (s.afterLines others position done).finished = true →
    ∃ before line r, done = before ++ [line] ∧ Wire.HoldsRequest line r ∧
      (Input.request r.code r.seq r.payload).Ends

/-- A line is read and handled, the other threads act, and the rest is read from the session they
leave. -/
theorem ReadsUpTo.cons (lasting : s.finished = false)
    (h : ReadsUpTo others (position + 1) (others position (s.handle (Wire.Request.ofBytes line)))
      done rest) :
    ReadsUpTo others position s (line :: done) rest where
  ongoing := by
    intro earlier last later same
    cases earlier with
    | nil => exact lasting
    | cons first earlier =>
        obtain ⟨rfl, tail⟩ := List.cons.inj same
        exact h.ongoing earlier last later tail
  stopped := h.stopped
  ended := by
    intro stops
    obtain ⟨before, last, r, rfl, holds, ends⟩ := h.ended stops
    exact ⟨line :: before, last, r, rfl, holds, ends⟩

/-- A session that is over after a line was ended by the request in it. -/
theorem ends_of_stops
    (undisturbed : ∀ n s, s.finished = false → (others n s).finished = false)
    (lasting : s.finished = false)
    (stops : (others position (s.handle (Wire.Request.ofBytes line))).finished = true) :
    ∃ r, Wire.Request.ofBytes line = .ok r ∧ (Input.request r.code r.seq r.payload).Ends := by
  have ended : (s.handle (Wire.Request.ofBytes line)).finished = true := by
    cases handled : (s.handle (Wire.Request.ofBytes line)).finished with
    | true => rfl
    | false =>
        rw [undisturbed position _ handled] at stops
        exact absurd stops (by decide)
  cases read : Wire.Request.ofBytes line with
  | error e =>
      rw [read, handle, lasting] at ended
      exact absurd ended (by decide)
  | ok r =>
      rw [read] at ended
      refine ⟨r, rfl, ?_⟩
      have ends := (s.finished_react (.request r.code r.seq r.payload)).mp ended
      apply ends.resolve_left
      simp [lasting]

/-- The line that ends the session is the last one that is read, whatever follows in the stream. -/
theorem ReadsUpTo.single (lasting : s.finished = false) {r : Wire.Request}
    (read : Wire.Request.ofBytes line = .ok r) (ends : (Input.request r.code r.seq r.payload).Ends)
    (stops : (others position (s.handle (Wire.Request.ofBytes line))).finished = true) :
    ReadsUpTo others position s [line] rest where
  ongoing := by
    intro earlier last later same
    cases earlier with
    | nil => exact lasting
    | cons first earlier =>
        have empty := (List.cons.inj same).2
        simp at empty
  stopped := .inr stops
  ended := fun _ => ⟨[], line, r, rfl, Wire.ofBytes_eq_ok_iff.mp read, ends⟩

/-- A line that is no request contributes none, and the requests of the lines after it are the
same. -/
theorem requestsIn_cons (line : List UInt8) (lines : List (List UInt8)) :
    Wire.requestsIn (line :: lines) =
      (Wire.Request.ofBytes line).toOption.toList ++ Wire.requestsIn lines := by
  rw [Wire.requestsIn, List.filterMap_cons]
  cases (Wire.Request.ofBytes line).toOption with
  | none => rfl
  | some r => rfl

/-- While the session lasts, the reader goes on to the next line. -/
theorem readLines_of_lasting
    (lasts : (others position (s.handle (Wire.Request.ofBytes line))).finished = false)
    {results : List (Except Error Wire.Request)} {s' : Session} {rs : List Wire.Request}
    (later : readLines others (position + 1)
      (others position (s.handle (Wire.Request.ofBytes line)))
      results = (s', rs)) :
    s.readLines others position (Wire.Request.ofBytes line :: results) =
      (s', (Wire.Request.ofBytes line).toOption.toList ++ rs) := by
  cases read : Wire.Request.ofBytes line with
  | error e =>
      have harmless := Wire.not_fatal_of_ofBytes read
      rw [read] at lasts later
      simp only [readLines, harmless, lasts, later, Bool.false_eq_true, if_false]
      rfl
  | ok r =>
      rw [read] at lasts later
      simp only [readLines, lasts, later, Bool.false_eq_true, if_false]
      rfl

/-- A reader handles the lines up to the first one after which the session is over, and it carries
out the requests in them. -/
theorem readLines_splits (position : Nat)
    (undisturbed : ∀ n s, s.finished = false → (others n s).finished = false)
    (lasting : s.finished = false) (lines : List (List UInt8)) :
    ∃ done rest, lines = done ++ rest ∧ ReadsUpTo others position s done rest ∧
      s.readLines others position
          (lines.map Wire.Request.ofBytes ++ [.error .connectionClosed]) =
        (s.afterLines others position done, Wire.requestsIn done) := by
  induction lines generalizing s position with
  | nil =>
      refine ⟨[], [], rfl, ⟨?_, .inl rfl, ?_⟩, rfl⟩
      · intro earlier line later empty
        simp at empty
      · intro stops
        rw [afterLines, lasting] at stops
        exact absurd stops (by decide)
  | cons line lines ih =>
      cases stops : (others position (s.handle (Wire.Request.ofBytes line))).finished with
      | true =>
          obtain ⟨r, read, ends⟩ := ends_of_stops undisturbed lasting stops
          refine ⟨[line], lines, rfl, .single lasting read ends stops, ?_⟩
          rw [read] at stops
          simp [readLines, afterLines, Wire.requestsIn, Except.toOption, read, stops]
      | false =>
          obtain ⟨done, rest, rfl, upTo, later⟩ := ih (position + 1) stops
          refine ⟨line :: done, rest, rfl, .cons lasting upTo, ?_⟩
          rw [requestsIn_cons]
          exact readLines_of_lasting stops later

/-- What becomes of a byte sequence: some of its lines are done, and the rest comes too late. -/
structure StaysInStep (others : Nat → Session → Session) (s : Session) (bytes : List UInt8)
    (done rest : List (List UInt8)) : Prop where
  lines : Wire.ReadLineByLine bytes (done ++ rest)
  upTo : ReadsUpTo others 0 s done rest
  /-- The requests in the lines that are done are carried out, each once and in their order. -/
  outcome : s.readStreamAmid others bytes .closed =
    ((s.afterLines others 0 done).finish, Wire.requestsIn done)
  finished : (s.readStreamAmid others bytes .closed).1.finished = true

/-- Malformed input does not bring the reader out of step. The stream may be of any bytes; all that
is assumed is that the session goes on at first, and that no other thread ends it between two
lines. -/
theorem reader_stays_in_step
    (undisturbed : ∀ n s, s.finished = false → (others n s).finished = false)
    (lasting : s.finished = false) (bytes : List UInt8) :
    ∃ done rest, StaysInStep others s bytes done rest := by
  obtain ⟨done, rest, same, upTo, read⟩ :=
    readLines_splits 0 undisturbed lasting (Wire.linesOf bytes)
  have lines := Wire.readLineByLine bytes
  have outcome : s.readStreamAmid others bytes .closed =
      ((s.afterLines others 0 done).finish, Wire.requestsIn done) := by
    rw [readStreamAmid, lines.results, read]
  rw [same] at lines
  refine ⟨done, rest, lines, upTo, outcome, ?_⟩
  rw [outcome]
  exact finished_finish _

/-- Stopped threads that serve what they are asked for do not end a session. -/
@[simp] theorem finished_settle (s : Session) : s.settle.finished = s.finished := by
  obtain ⟨positions, run⟩ := s.settle_run
  have none_ends : ¬ ∃ i ∈ positions.map Input.serve, i.Ends := by
    rintro ⟨i, member, ends⟩
    obtain ⟨n, -, rfl⟩ := List.mem_map.mp member
    exact ends
  rw [Bool.eq_iff_iff, run, finished_run_iff]
  exact or_iff_left none_ends

/-- Two requests between lines that hold none, and one that comes after the end of the session. -/
def noisyBytes : List UInt8 :=
  0xFF :: Text.encode "\nno tab\n501\t+1\t1.1\r\n104\t3\t*\n111\t5\ttail".toList

/-- The malformed line between the two requests is passed over, and what stands after the end of the
session is not read. -/
theorem noisyBytes_are_read :
    (start {} oneLine).finished = false ∧
      ((start {} oneLine).readStreamAmid (fun _ => settle) noisyBytes .closed).2 =
        [⟨501, 1, "1.1"⟩, ⟨104, 3, "*"⟩] ∧
      ∃ done rest, StaysInStep (fun _ => settle) (start {} oneLine) noisyBytes done rest :=
  ⟨rfl, by decide +kernel,
    reader_stays_in_step (fun _ s lasting => s.finished_settle.trans lasting) rfl noisyBytes⟩

end Session

end RemoteDebugger
