import Mathlib.Data.List.DropRight
import Mathlib.Data.List.TakeWhile
import RemoteDebugger.Proofs.Text.Numeral
import RemoteDebugger.Proofs.Text.Validity
import RemoteDebugger.Wire.Message

/-!
# What lines are requests

The grammar of the lines that a controller sends, apart from the reader. A line holds a request if
it is UTF-8 and its text, without the line ends at its end, is a code, a tab and a number, and then
either ends or goes on with a tab and a payload. The reader finds a request in a line exactly if the
line holds it, and every other line is malformed, which is no reason to end a session.
-/

namespace RemoteDebugger.Wire

/-- A line is a text and the line ends at its end. -/
structure IsLineOf (line text : List Char) : Prop where
  ends : ∃ ends, line = text ++ ends ∧ ∀ c ∈ ends, c = '\r' ∨ c = '\n'
  bare : ∀ c, text.getLast? = some c → ¬ (c = '\r' ∨ c = '\n')

inductive IsRequest : List Char → Request → Prop
  | bare {code seq : List Char} {n : Nat} {i : Int}
      (command : Text.IsUnsigned Text.maxUInt32 code n)
      (number : Text.IsSigned seq i) : IsRequest (code ++ '\t' :: seq) ⟨n, i, ""⟩
  | loaded {code seq : List Char} {n : Nat} {i : Int}
      (command : Text.IsUnsigned Text.maxUInt32 code n) (number : Text.IsSigned seq i)
      (payload : List Char) : IsRequest (code ++ '\t' :: (seq ++ '\t' :: payload))
        ⟨n, i, unquote (String.ofList payload)⟩

def HoldsRequest (bytes : List UInt8) (r : Request) : Prop :=
  ∃ line text, bytes = Text.encode line ∧ IsLineOf line text ∧ IsRequest text r

section

variable {sep : Char} {cs front : List Char}

/-- Without the separator the whole text is the first part, and there is no second. -/
theorem cutAt_of_notMem (absent : sep ∉ cs) : cutAt sep cs = (cs, none) := by
  have whole : cs.dropWhile (· != sep) = [] := by
    rw [List.dropWhile_eq_nil_iff]
    intro c member
    rw [bne_iff_ne]
    rintro rfl
    exact absent member
  rw [cutAt, whole]

/-- A text is cut at the first separator, and others may follow. -/
theorem cutAt_append (absent : sep ∉ front) (rest : List Char) :
    cutAt sep (front ++ sep :: rest) = (front, some rest) := by
  have before : ∀ c ∈ front, (c != sep) = true := by
    intro c member
    rw [bne_iff_ne]
    rintro rfl
    exact absent member
  rw [cutAt, List.dropWhile_append_of_pos before, List.dropWhile_cons_of_neg (by simp),
    List.takeWhile_append_of_pos before, List.takeWhile_cons_of_neg (by simp), List.append_nil]

/-- A text has no separator, or it is cut at the first one. -/
theorem cutAt_cases (sep : Char) (cs : List Char) :
    cutAt sep cs = (cs, none) ∨
      ∃ front rest, cs = front ++ sep :: rest ∧ cutAt sep cs = (front, some rest) := by
  by_cases present : sep ∈ cs
  · obtain ⟨front, rest, rfl, absent⟩ := List.eq_append_cons_of_mem present
    exact .inr ⟨front, rest, rfl, cutAt_append absent rest⟩
  · exact .inl (cutAt_of_notMem present)

end

section

variable {line text : List Char}

theorem isLineEnd_iff {c : Char} : isLineEnd c = true ↔ c = '\r' ∨ c = '\n' := by
  simp [isLineEnd]

/-- A line without its end is what remains after line feeds and carriage returns have been
dropped. -/
theorem isLineOf_dropEndWhile (line : List Char) :
    IsLineOf line (Text.dropEndWhile isLineEnd line) := by
  constructor
  · refine ⟨line.rtakeWhile isLineEnd, List.rdropWhile_append_rtakeWhile.symm, ?_⟩
    intro c member
    exact isLineEnd_iff.mp (List.mem_rtakeWhile_imp member)
  · intro c last ending
    have nonempty : line.rdropWhile isLineEnd ≠ [] := by
      intro empty
      rw [Text.dropEndWhile, ← List.rdropWhile, empty] at last
      cases last
    have final : (line.rdropWhile isLineEnd).getLast nonempty = c := by
      apply Option.some.inj
      rw [← List.getLast?_eq_some_getLast nonempty]
      exact last
    apply List.rdropWhile_last_not isLineEnd line nonempty
    rw [final]
    exact isLineEnd_iff.mpr ending

/-- A line is a line of one text only. -/
theorem IsLineOf.eq_dropEndWhile (h : IsLineOf line text) :
    text = Text.dropEndWhile isLineEnd line := by
  obtain ⟨⟨ends, rfl, only⟩, bare⟩ := h
  have dropped : ∀ c ∈ ends.reverse, isLineEnd c = true :=
    fun c member => isLineEnd_iff.mpr (only c (List.mem_reverse.mp member))
  have kept : text.reverse.dropWhile isLineEnd = text.reverse := by
    cases last : text.reverse with
    | nil => rfl
    | cons c before =>
        have final : text.getLast? = some c := by
          rw [List.getLast?_eq_head?_reverse, last]
          rfl
        rw [List.dropWhile_cons_of_neg]
        exact fun ending => bare c final (isLineEnd_iff.mp ending)
  rw [Text.dropEndWhile, List.reverse_append, List.dropWhile_append_of_pos dropped, kept,
    List.reverse_reverse]

end

theorem tab_notMem_unsigned {limit : Nat} {cs : List Char} {n : Nat}
    (h : Text.IsUnsigned limit cs n) : '\t' ∉ cs := by
  cases h with
  | plain numeral => exact fun member => absurd (numeral.digits _ member) (by decide)
  | plus numeral =>
      intro member
      cases member with
      | tail _ later => exact absurd (numeral.digits _ later) (by decide)

theorem tab_notMem_signed {cs : List Char} {i : Int} (h : Text.IsSigned cs i) : '\t' ∉ cs := by
  cases h with
  | plain numeral => exact fun member => absurd (numeral.digits _ member) (by decide)
  | plus numeral | minus numeral =>
      intro member
      cases member with
      | tail _ later => exact absurd (numeral.digits _ later) (by decide)

/-- A text that is read as a request follows the grammar. -/
theorem isRequest_of_ofLine {line : String} {r : Request} (read : Request.ofLine line = .ok r) :
    IsRequest (Text.dropEndWhile isLineEnd line.toList) r := by
  unfold Request.ofLine at read
  generalize Text.dropEndWhile isLineEnd line.toList = text at read ⊢
  obtain whole | ⟨code, rest, rfl, cut⟩ := cutAt_cases '\t' text
  · simp only [whole] at read
    cases read
  simp only [cut] at read
  cases command : Text.unsigned? Text.maxUInt32 code with
  | none =>
      simp only [command] at read
      cases read
  | some n =>
      have command' := Text.unsigned?_eq_some_iff.mp command
      obtain whole | ⟨seq, payload, rfl, cut'⟩ := cutAt_cases '\t' rest
      · cases number : Text.signed? rest with
        | none =>
            simp only [command, whole, number] at read
            cases read
        | some i =>
            simp only [command, whole, number] at read
            cases read
            exact .bare command' (Text.signed?_eq_some_iff.mp number)
      · cases number : Text.signed? seq with
        | none =>
            simp only [command, cut', number] at read
            cases read
        | some i =>
            simp only [command, cut', number] at read
            cases read
            exact .loaded command' (Text.signed?_eq_some_iff.mp number) payload

/-- A text that follows the grammar is read. -/
theorem ofLine_of_isRequest {line : String} {text : List Char} {r : Request}
    (isLine : IsLineOf line.toList text) (grammar : IsRequest text r) :
    Request.ofLine line = .ok r := by
  unfold Request.ofLine
  rw [← isLine.eq_dropEndWhile]
  cases grammar with
  | bare command number =>
      simp only [cutAt_append (tab_notMem_unsigned command),
        cutAt_of_notMem (tab_notMem_signed number), Text.unsigned?_eq_some_iff.mpr command,
          Text.signed?_eq_some_iff.mpr number]
      rfl
  | loaded command number payload =>
      simp only [cutAt_append (tab_notMem_unsigned command),
        cutAt_append (tab_notMem_signed number), Text.unsigned?_eq_some_iff.mpr command,
          Text.signed?_eq_some_iff.mpr number]
      rfl

/-- A line is read as a request exactly if the grammar says so: a code, a number and a payload, with
tabs between them. -/
theorem ofLine_eq_ok_iff {line : String} {r : Request} :
    Request.ofLine line = .ok r ↔ ∃ text, IsLineOf line.toList text ∧ IsRequest text r := by
  constructor
  · intro read
    exact ⟨_, isLineOf_dropEndWhile line.toList, isRequest_of_ofLine read⟩
  · rintro ⟨text, isLine, grammar⟩
    exact ofLine_of_isRequest isLine grammar

/-- A line that cannot be read is reported as malformed, with its text. -/
theorem ofLine_eq_error {line : String} {e : Error} (read : Request.ofLine line = .error e) :
    ∃ text, e = .malformedFrame text := by
  dsimp only [Request.ofLine] at read
  split at read
  · cases read
    exact ⟨_, rfl⟩
  · split at read
    · cases read
      exact ⟨_, rfl⟩
    · split at read
      · cases read
        exact ⟨_, rfl⟩
      · cases read

/-- A request is read from the bytes of a line exactly if they hold it. -/
theorem ofBytes_eq_ok_iff {bytes : List UInt8} {r : Request} :
    Request.ofBytes bytes = .ok r ↔ HoldsRequest bytes r := by
  constructor
  · intro read
    rw [Request.ofBytes] at read
    cases decoded : Text.decode? bytes with
    | none =>
        simp only [decoded] at read
        cases read
    | some line =>
        simp only [decoded] at read
        obtain ⟨text, isLine, grammar⟩ := ofLine_eq_ok_iff.mp read
        rw [String.toList_ofList] at isLine
        exact ⟨line, text, Text.decode?_eq_some_iff.mp decoded, isLine, grammar⟩
  · rintro ⟨line, text, rfl, isLine, grammar⟩
    rw [Request.ofBytes, Text.decode?_encode]
    exact ofLine_eq_ok_iff.mpr ⟨text, by rwa [String.toList_ofList], grammar⟩

/-- Bytes that cannot be read are reported as a malformed line, also if they are no text. -/
theorem ofBytes_eq_error {bytes : List UInt8} {e : Error}
    (read : Request.ofBytes bytes = .error e) :
    ∃ text, e = .malformedFrame text := by
  rw [Request.ofBytes] at read
  split at read
  · cases read
    exact ⟨_, rfl⟩
  · exact ofLine_eq_error read

/-- What is to be found in a line: the request that it holds, or that it is malformed. -/
inductive IsReadAs (line : List UInt8) : Except Error Request → Prop
  | request {r : Request} (holds : HoldsRequest line r) : IsReadAs line (.ok r)
  | malformed {text : String} (holds_none : ∀ r, ¬ HoldsRequest line r) :
      IsReadAs line (.error (.malformedFrame text))

/-- Every line is read as the grammar says, as a request or as an error. -/
theorem isReadAs_ofBytes (line : List UInt8) : IsReadAs line (Request.ofBytes line) := by
  cases read : Request.ofBytes line with
  | ok r => exact .request (ofBytes_eq_ok_iff.mp read)
  | error e =>
      obtain ⟨text, rfl⟩ := ofBytes_eq_error read
      refine .malformed ?_
      intro r holds
      have found := ofBytes_eq_ok_iff.mpr holds
      rw [read] at found
      cases found

/-- No malformed line ends a session. -/
theorem IsReadAs.not_fatal {line : List UInt8} {e : Error} (h : IsReadAs line (.error e)) :
    e.isFatal = false := by
  cases h
  rfl

/-- No malformed line ends the connection. -/
theorem not_fatal_of_ofBytes {line : List UInt8} {e : Error}
    (read : Request.ofBytes line = .error e) :
    e.isFatal = false := by
  have found := isReadAs_ofBytes line
  rw [read] at found
  exact found.not_fatal

/-- The lines of a byte sequence. Each ends at its first line feed; only the last one may lack
it. -/
inductive IsLines : List UInt8 → List (List UInt8) → Prop
  | nothing : IsLines [] []
  | unended {line : List UInt8} (nonempty : line ≠ []) (unbroken : 0x0A ∉ line) :
      IsLines line [line]
  | ended {body rest : List UInt8} {lines : List (List UInt8)} (unbroken : 0x0A ∉ body)
      (later : IsLines rest lines) : IsLines (body ++ 0x0A :: rest) ((body ++ [0x0A]) :: lines)

section

variable {body line : List UInt8}

/-- A line ends at its line feed, whatever follows. -/
theorem linesOf_append (unbroken : 0x0A ∉ body) (rest : List UInt8) :
    linesOf (body ++ 0x0A :: rest) = (body ++ [0x0A]) :: linesOf rest := by
  induction body with
  | nil => rfl
  | cons b body ih =>
      have other : b ≠ 0x0A := fun same => unbroken (same ▸ List.mem_cons_self)
      have later : 0x0A ∉ body := fun member => unbroken (List.mem_cons_of_mem b member)
      rw [List.cons_append, linesOf, if_neg other, ih later]
      rfl

theorem linesOf_unended (nonempty : line ≠ []) (unbroken : 0x0A ∉ line) :
    linesOf line = [line] := by
  induction line with
  | nil => exact absurd rfl nonempty
  | cons b rest ih =>
      have other : b ≠ 0x0A := fun same => unbroken (same ▸ List.mem_cons_self)
      have later : 0x0A ∉ rest := fun member => unbroken (List.mem_cons_of_mem b member)
      rw [linesOf, if_neg other]
      cases rest with
      | nil => rfl
      | cons c rest => rw [ih (List.cons_ne_nil c rest) later, pushByte]

end

/-- Bytes are cut at the line feeds, and each line keeps its own. The last one may be without. -/
theorem isLines_linesOf (bytes : List UInt8) : IsLines bytes (linesOf bytes) := by
  -- What follows a line is shorter, and has lines in its turn.
  induction length : bytes.length using Nat.strong_induction_on generalizing bytes with
  | _ n ih =>
      by_cases feed : 0x0A ∈ bytes
      · obtain ⟨body, rest, rfl, unbroken⟩ := List.eq_append_cons_of_mem feed
        rw [linesOf_append unbroken]
        refine .ended unbroken (ih rest.length ?_ rest rfl)
        simp only [List.length_append, List.length_cons] at length
        omega
      · by_cases nonempty : bytes = []
        · subst nonempty
          exact .nothing
        · rw [linesOf_unended nonempty feed]
          exact .unended nonempty feed

/-- A byte sequence has the lines that the reader cuts it into, and no others. -/
theorem isLines_iff {bytes : List UInt8} {lines : List (List UInt8)} :
    IsLines bytes lines ↔ lines = linesOf bytes := by
  constructor
  · intro cut
    induction cut with
    | nothing => rfl
    | unended nonempty unbroken => exact (linesOf_unended nonempty unbroken).symm
    | ended unbroken _ ih => rw [linesOf_append unbroken, ih]
  · rintro rfl
    exact isLines_linesOf bytes

theorem linesOf_cons_ne_nil (b : UInt8) (rest : List UInt8) : linesOf (b :: rest) ≠ [] := by
  rw [linesOf]
  split
  · exact List.cons_ne_nil _ _
  · cases linesOf rest with
    | nil => exact List.cons_ne_nil _ _
    | cons line lines => exact List.cons_ne_nil _ _

/-- What follows a line feed has lines of its own. -/
theorem linesOf_after_feed (front rest : List UInt8) :
    linesOf (front ++ 0x0A :: rest) = linesOf (front ++ [0x0A]) ++ linesOf rest := by
  induction front with
  | nil => rfl
  | cons b front ih =>
      rw [List.cons_append, List.cons_append, linesOf, linesOf, ih]
      split
      · rfl
      · -- The byte goes to the front of the first line, and there is one.
        cases first : linesOf (front ++ [0x0A]) with
        | nil =>
            cases front with
            | nil => exact absurd first (linesOf_cons_ne_nil 0x0A [])
            | cons c front => exact absurd first (linesOf_cons_ne_nil c _)
        | cons line lines => rfl

/-- A byte sequence is read line by line, and each line for itself. -/
structure ReadLineByLine (bytes : List UInt8) (lines : List (List UInt8)) : Prop where
  /-- These are the lines of the bytes, and the bytes have no others. -/
  cut : ∀ lines', IsLines bytes lines' ↔ lines' = lines
  results : readRequests bytes .closed =
    lines.map Request.ofBytes ++ [.error .connectionClosed]
  each : ∀ line ∈ lines, IsReadAs line (Request.ofBytes line)
  skipped : ∀ line ∈ lines, ∀ e, Request.ofBytes line = .error e → e.isFatal = false
  /-- After a line feed the reader goes on as if nothing had been before. -/
  recovers : ∀ front rest, bytes = front ++ 0x0A :: rest →
    readRequests bytes .closed =
      (linesOf (front ++ [0x0A])).map Request.ofBytes ++ readRequests rest .closed

/-- Reading the bytes of a connection is reading its lines one after the other, and the end comes
after the last. -/
theorem readLineByLine (bytes : List UInt8) : ReadLineByLine bytes (linesOf bytes) where
  cut := fun _ => isLines_iff
  results := rfl
  each := fun line _ => isReadAs_ofBytes line
  skipped := fun _ _ _ read => not_fatal_of_ofBytes read
  recovers := by
    rintro front rest rfl
    rw [readRequests, readRequests, Ending.readable, Ending.readable, linesOf_after_feed front rest,
      List.map_append, List.append_assoc]

end RemoteDebugger.Wire
