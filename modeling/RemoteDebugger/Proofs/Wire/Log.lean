import RemoteDebugger.Proofs.Wire.Line
import RemoteDebugger.Session.Connection

/-!
# The message log

The log takes down every message that passes: the side it comes from, its code, its number and its
payload, and a line feed at the end. Line feeds at the end of a payload are not kept, and those
inside it are, so a payload in several lines makes an entry in several lines. The lines of a log are
those of its entries, one entry after the other. There is one line for each message exactly if no
payload has a line feed inside, and then every line tells of the message it was written for.
-/

namespace RemoteDebugger.Wire

/-- The side a message comes from. -/
inductive Direction where
  | incoming
  | outgoing
  deriving DecidableEq, Repr

def Direction.mark : Direction → String
  | incoming => "<-"
  | outgoing => "->"

structure Passage where
  direction : Direction
  code : Nat
  seq : Int
  payload : String
  deriving DecidableEq, Repr

namespace Passage

def ofRequest (r : Request) : Passage := ⟨.incoming, r.code, r.seq, r.payload⟩

def ofMessage (m : Message) : Passage := ⟨.outgoing, m.command.code, m.seq, m.payload⟩

/-- What the log takes down of a message, without the line feed at the end. -/
def entry (p : Passage) : List Char := (logLine p.direction.mark p.code p.seq p.payload).toList

/-- The part of an entry before the payload. -/
def head (p : Passage) : List Char :=
  p.direction.mark.toList ++
    ' ' :: (Nat.toDigits 10 p.code ++ '\t' :: ((toString p.seq).toList ++ ['\t']))

/-- The payload as the log keeps it. -/
def kept (p : Passage) : List Char := Text.dropEndWhile (· == '\n') p.payload.toList

/-- The payload is kept in one line. -/
def IsSingle (p : Passage) : Prop := '\n' ∉ p.kept

instance (p : Passage) : Decidable p.IsSingle := inferInstanceAs (Decidable ('\n' ∉ p.kept))

/-- The lines of a payload as the log keeps it. -/
def parts (p : Passage) : List (List Char) := p.kept.splitOn '\n'

/-- The lines of an entry: those of its payload, with the head before the first. -/
def lines (p : Passage) : List (List Char) := p.parts.modifyHead (p.head ++ ·)

/-- The log tells the same of two messages. They may differ in blanks at the end of their
payloads. -/
structure Alike (p q : Passage) : Prop where
  direction : p.direction = q.direction
  code : p.code = q.code
  seq : p.seq = q.seq
  kept : p.kept = q.kept

end Passage

def logText (ps : List Passage) : List Char := ps.flatMap fun p => p.entry ++ ['\n']

/-- The lines of a text in which a line feed ends each line. -/
def textLines (text : List Char) : List (List Char) := (text.splitOn '\n').dropLast

/-- Dropping from the end stops at a character that stays. -/
theorem dropEndWhile_append {f : Char → Bool} {c : Char} (stays : f c = false)
    (front cs : List Char) :
    Text.dropEndWhile f (front ++ c :: cs) = front ++ c :: Text.dropEndWhile f cs := by
  have kept : (c :: front.reverse).dropWhile f = c :: front.reverse := by simp [stays]
  simp only [Text.dropEndWhile, List.reverse_append, List.reverse_cons, List.append_assoc,
    List.singleton_append, List.dropWhile_append, kept]
  split
  · rename_i empty
    simp [List.isEmpty_iff.mp empty]
  · simp

/-- A front without the separator goes to the first part. -/
theorem splitOn_append_of_notMem {c : Char} {front : List Char} (free : c ∉ front)
    (cs : List Char) :
    (front ++ cs).splitOn c = (cs.splitOn c).modifyHead (front ++ ·) := by
  induction front with
  | nil => exact (congrFun List.modifyHead_id (cs.splitOn c)).symm
  | cons d front ih =>
      rw [List.mem_cons, not_or] at free
      have other : (d == c) = false := beq_eq_false_iff_ne.mpr (Ne.symm free.1)
      rw [List.cons_append, List.splitOn_cons_eq_if_modifyHead, other, if_neg Bool.false_ne_true,
        ih free.2, List.modifyHead_modifyHead]
      rfl

theorem length_splitOn (c : Char) (cs : List Char) : (cs.splitOn c).length = cs.count c + 1 := by
  induction cs with
  | nil => rfl
  | cons d cs ih =>
      rw [List.splitOn_cons_eq_if_modifyHead, List.count_cons]
      split
      · rw [List.length_cons, ih]
      · rw [List.length_modifyHead, ih, Nat.add_zero]

namespace Passage

variable {p q : Passage}

/-- An entry of the log is its head and what is kept of the text, without blanks at its end. -/
theorem entry_eq (p : Passage) : p.entry = p.head ++ p.kept := by
  have text : (s!"{p.code}\t{p.seq}\t{p.payload}").toList =
      (Nat.toDigits 10 p.code ++ '\t' :: (toString p.seq).toList) ++ '\t' :: p.payload.toList := by
    show (toString p.code ++ "\t" ++ toString p.seq ++ "\t" ++ p.payload).toList = _
    simp
  rw [entry, logLine, String.toList_append, String.toList_append, String.toList_ofList, text,
    dropEndWhile_append (by decide), head, kept]
  simp

/-- The head of an entry is on one line, whatever the message is. -/
theorem lineFeed_notMem_head (p : Passage) : '\n' ∉ p.head := by
  have mark : '\n' ∉ p.direction.mark.toList := by cases p.direction <;> decide
  have code : '\n' ∉ Nat.toDigits 10 p.code :=
    fun member => (isPrintable_of_mem_code member).ne_control (by decide) rfl
  have number : '\n' ∉ (toString p.seq).toList :=
    fun member => (Text.isPrintable_of_mem_toString member).ne_control (by decide) rfl
  simp only [head, List.mem_append, List.mem_cons, List.not_mem_nil, or_false, not_or]
  exact ⟨mark, by decide, code, by decide, number, by decide⟩

/-- An entry falls into its lines. -/
@[simp] theorem splitOn_entry (p : Passage) : p.entry.splitOn '\n' = p.lines := by
  rw [entry_eq, splitOn_append_of_notMem p.lineFeed_notMem_head, lines, parts]

theorem parts_of_isSingle (single : p.IsSingle) : p.parts = [p.kept] :=
  List.splitOn_eq_singleton single

theorem lines_of_isSingle (single : p.IsSingle) : p.lines = [p.entry] := by
  rw [lines, parts_of_isSingle single, entry_eq]
  rfl

@[simp] theorem length_lines (p : Passage) : p.lines.length = p.kept.count '\n' + 1 := by
  rw [lines, List.length_modifyHead, parts, length_splitOn]

theorem length_lines_eq_one_iff (p : Passage) : p.lines.length = 1 ↔ p.IsSingle := by
  rw [length_lines, Nat.add_eq_right, List.count_eq_zero, IsSingle]

/-- The direction of a message can be told from the mark of its entry. -/
theorem mark_append_inj {d d' : Direction} {cs cs' : List Char}
    (same : d.mark.toList ++ cs = d'.mark.toList ++ cs') : d = d' ∧ cs = cs' := by
  cases d <;> cases d'
  · exact ⟨rfl, List.append_cancel_left same⟩
  · simp [Direction.mark] at same
  · simp [Direction.mark] at same
  · exact ⟨rfl, List.append_cancel_left same⟩

/-- A head tells what it was written for: each number in it ends at the first tab behind it. -/
theorem head_append_inj {cs cs' : List Char} (same : p.head ++ cs = q.head ++ cs') :
    p.direction = q.direction ∧ p.code = q.code ∧ p.seq = q.seq ∧ cs = cs' := by
  have code_tab (n : Nat) : '\t' ∉ Nat.toDigits 10 n :=
    fun member => (isPrintable_of_mem_code member).ne_control (by decide) rfl
  have number_tab (i : Int) : '\t' ∉ (toString i).toList :=
    fun member => (Text.isPrintable_of_mem_toString member).ne_control (by decide) rfl
  simp only [head, List.append_assoc, List.cons_append, List.nil_append] at same
  obtain ⟨direction, rest⟩ := mark_append_inj same
  have cut := congrArg (cutAt '\t') (List.cons.inj rest).2
  rw [cutAt_append (code_tab p.code), cutAt_append (code_tab q.code), Prod.mk.injEq] at cut
  obtain ⟨code, rest⟩ := cut
  have cut := congrArg (cutAt '\t') (Option.some.inj rest)
  rw [cutAt_append (number_tab p.seq), cutAt_append (number_tab q.seq), Prod.mk.injEq] at cut
  obtain ⟨number, rest⟩ := cut
  exact ⟨direction, Text.toDigits_injective code, Text.toString_int_injective number,
    Option.some.inj rest⟩

theorem alike_of_entry (same : p.entry = q.entry) : p.Alike q := by
  rw [p.entry_eq, q.entry_eq] at same
  obtain ⟨direction, code, seq, kept⟩ := head_append_inj same
  exact ⟨direction, code, seq, kept⟩

end Passage

@[simp] theorem textLines_append (text rest : List Char) :
    textLines (text ++ '\n' :: rest) = text.splitOn '\n' ++ textLines rest := by
  rw [textLines, List.splitOn_append_cons_self,
    List.dropLast_append_of_ne_nil (List.splitOn_ne_nil '\n' rest), textLines]

/-- The lines of a log are those of its entries. -/
@[simp] theorem textLines_logText (ps : List Passage) :
    textLines (logText ps) = ps.flatMap Passage.lines := by
  induction ps with
  | nil => rfl
  | cons p ps ih =>
      have first : logText (p :: ps) = p.entry ++ '\n' :: logText ps := by simp [logText]
      rw [first, textLines_append, p.splitOn_entry, ih, List.flatMap_cons]

/-- The log has at least as many lines as there are messages. -/
theorem length_le_flatMap_lines (ps : List Passage) :
    ps.length ≤ (ps.flatMap Passage.lines).length := by
  induction ps with
  | nil => exact Nat.le_refl 0
  | cons p ps ih =>
      rw [List.flatMap_cons, List.length_append, p.length_lines, List.length_cons]
      omega

/-- Each message has one line exactly if no payload has a line feed inside. -/
theorem length_flatMap_lines_eq_iff (ps : List Passage) :
    (ps.flatMap Passage.lines).length = ps.length ↔ ∀ p ∈ ps, p.IsSingle := by
  induction ps with
  | nil => simp
  | cons p ps ih =>
      have lines_pos := p.length_lines
      have enough := length_le_flatMap_lines ps
      rw [List.flatMap_cons, List.length_append, List.length_cons, List.forall_mem_cons, ← ih,
        ← p.length_lines_eq_one_iff]
      omega

/-- Messages without line feeds are logged as one line each, in their order. -/
theorem flatMap_lines_of_isSingle {ps : List Passage} (single : ∀ p ∈ ps, p.IsSingle) :
    ps.flatMap Passage.lines = ps.map Passage.entry := by
  induction ps with
  | nil => rfl
  | cons p ps ih =>
      obtain ⟨first, others⟩ := List.forall_mem_cons.mp single
      rw [List.flatMap_cons, List.map_cons, Passage.lines_of_isSingle first, ih others]
      rfl

/-- A message is shown by a line of an entry: the entry is of a message alike, as far as the first
line of its payload goes, or the line is a further one of its payload. -/
def Passage.Shows (p q : Passage) : Prop :=
  (p.direction = q.direction ∧ p.code = q.code ∧ p.seq = q.seq ∧ p.parts.head? = some q.kept) ∨
    q.entry ∈ p.parts.tail

/-- A line that looks like the entry of a message is that entry, or the payload of another message
has put it there. -/
theorem Passage.shows_of_mem_lines {p q : Passage} (shown : q.entry ∈ p.lines) : p.Shows q := by
  rw [lines] at shown
  cases parts : p.parts with
  | nil =>
      rw [parts] at shown
      cases shown
  | cons first rest =>
      rw [parts] at shown
      obtain same | further := List.mem_cons.mp shown
      · rw [q.entry_eq] at same
        obtain ⟨direction, code, seq, rfl⟩ := head_append_inj same
        exact .inl ⟨direction.symm, code.symm, seq.symm, by rw [parts]; rfl⟩
      · exact .inr (by rwa [parts])

structure LogTells (ps : List Passage) : Prop where
  /-- The lines are those of the entries, in the order of the messages. -/
  lines : textLines (logText ps) = ps.flatMap Passage.lines
  /-- Each message has one line exactly if no payload has a line feed inside. -/
  single : (textLines (logText ps)).length = ps.length ↔ ∀ p ∈ ps, p.IsSingle
  /-- Then this line is its entry. -/
  entries : (∀ p ∈ ps, p.IsSingle) → textLines (logText ps) = ps.map Passage.entry
  /-- Then no line shows a message that has not passed. -/
  genuine : (∀ p ∈ ps, p.IsSingle) → ∀ q : Passage, q.entry ∈ textLines (logText ps) →
    ∃ p ∈ ps, p.Alike q
  /-- In any case, a message that has not passed is shown by a further line of a payload only. -/
  shown : ∀ q : Passage, q.entry ∈ textLines (logText ps) → ∃ p ∈ ps, p.Shows q

/-- What the log tells of the messages: all there is to tell if no payload has a line feed inside,
and otherwise where a line may come from. -/
theorem logTells (ps : List Passage) : LogTells ps := by
  have lines := textLines_logText ps
  have entries (single : ∀ p ∈ ps, p.IsSingle) : textLines (logText ps) = ps.map Passage.entry :=
    lines.trans (flatMap_lines_of_isSingle single)
  refine ⟨lines, ?_, entries, ?_, ?_⟩
  · rw [lines, length_flatMap_lines_eq_iff]
  · intro single q shown
    rw [entries single] at shown
    obtain ⟨p, passed, same⟩ := List.mem_map.mp shown
    exact ⟨p, passed, Passage.alike_of_entry same⟩
  · intro q shown
    rw [lines] at shown
    obtain ⟨p, passed, line⟩ := List.mem_flatMap.mp shown
    exact ⟨p, passed, Passage.shows_of_mem_lines line⟩

end RemoteDebugger.Wire
