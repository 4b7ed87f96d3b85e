import RemoteDebugger.Session.Payload

/-!
# Attributes are read back

The escapes of attribute values are the only references in a document, and no value contains a
quote. A reader that splits a document at its quotes therefore finds the names and the values in
turn, and decoding the references of a value gives the text it was written from.
-/

namespace RemoteDebugger

namespace Xml

/-- Decode the references that `escape` writes. -/
def unescapeChars : List Char → List Char
  | '&' :: 'a' :: 'm' :: 'p' :: ';' :: rest => '&' :: unescapeChars rest
  | '&' :: 'l' :: 't' :: ';' :: rest => '<' :: unescapeChars rest
  | '&' :: 'g' :: 't' :: ';' :: rest => '>' :: unescapeChars rest
  | '&' :: 'a' :: 'p' :: 'o' :: 's' :: ';' :: rest => '\'' :: unescapeChars rest
  | '&' :: 'q' :: 'u' :: 'o' :: 't' :: ';' :: rest => '"' :: unescapeChars rest
  | '&' :: '#' :: '9' :: ';' :: rest => '\t' :: unescapeChars rest
  | '&' :: '#' :: '1' :: '0' :: ';' :: rest => '\n' :: unescapeChars rest
  | '&' :: '#' :: '1' :: '3' :: ';' :: rest => '\r' :: unescapeChars rest
  | c :: rest => c :: unescapeChars rest
  | [] => []

def unescape (s : String) : String := String.ofList (unescapeChars s.toList)

theorem unescapeChars_cons {c : Char} (plain : c ≠ '&') (rest : List Char) :
    unescapeChars (c :: rest) = c :: unescapeChars rest := by
  rw [unescapeChars.eq_def]
  split <;> simp_all

/-- An escaped character is read back, whatever follows it. -/
@[simp] theorem unescapeChars_escapeChar (c : Char) (rest : List Char) :
    unescapeChars (escapeChar c ++ rest) = c :: unescapeChars rest := by
  rw [escapeChar.eq_def]
  split
  case h_9 plain _ _ _ _ _ _ _ => exact unescapeChars_cons plain rest
  all_goals rfl

/-- Decoding the references of a value gives the text it was written from. -/
@[simp] theorem unescape_escape (s : String) : unescape (escape s) = s := by
  have chars (cs : List Char) : unescapeChars (cs.flatMap escapeChar) = cs := by
    induction cs with
    | nil => rfl
    | cons c cs ih => rw [List.flatMap_cons, unescapeChars_escapeChar, ih]
  rw [unescape, escape, String.toList_ofList, chars, String.ofList_toList]

/-- The references that `escape` writes. -/
def references : List (List Char) :=
  ["&amp;".toList, "&lt;".toList, "&gt;".toList, "&apos;".toList, "&quot;".toList, "&#9;".toList,
    "&#10;".toList, "&#13;".toList]

/-- A text that can stand in an attribute value: no mark of XML and no white space that readers
replace, and an ampersand only as the start of a reference. -/
structure IsInert (cs : List Char) : Prop where
  no_mark : ∀ c ∈ ['<', '>', '"', '\'', '\t', '\n', '\r'], c ∉ cs
  reference : ∀ before after, cs = before ++ '&' :: after → ∃ r ∈ references, r <+: '&' :: after

/-- A character stands for itself if it has no meaning in a document, and otherwise a reference
stands for it. -/
theorem escapeChar_cases (c : Char) :
    (escapeChar c = [c] ∧ c ∉ ['&', '<', '>', '"', '\'', '\t', '\n', '\r']) ∨
      escapeChar c ∈ references := by
  rw [escapeChar.eq_def]
  split
  case h_9 => exact .inl ⟨rfl, by simp_all⟩
  all_goals exact .inr (by decide)

theorem references_start {r : List Char} (h : r ∈ references) :
    ∃ tail, r = '&' :: tail ∧ '&' ∉ tail := by
  have all : ∀ r ∈ references, r = '&' :: r.tail ∧ '&' ∉ r.tail := by decide
  exact ⟨r.tail, all r h⟩

/-- An ampersand in an escaped text starts a reference. -/
theorem reference_of_ampersand {cs before after : List Char}
    (whole : cs.flatMap escapeChar = before ++ '&' :: after) :
    ∃ r ∈ references, r <+: '&' :: after := by
  induction cs generalizing before with
  | nil => cases before <;> cases whole
  | cons c cs ih =>
      rw [List.flatMap_cons] at whole
      rcases escapeChar_cases c with ⟨itself, plain⟩ | reference
      · rw [itself, List.singleton_append] at whole
        cases before with
        | nil =>
            obtain rfl := (List.cons.inj whole).1
            exact absurd List.mem_cons_self plain
        | cons d before => exact ih (List.cons.inj whole).2
      · obtain ⟨tail, start, single⟩ := references_start reference
        cases before with
        | nil => exact ⟨escapeChar c, reference, _, whole⟩
        | cons d before =>
            -- An ampersand after the first character of a reference belongs to what follows it.
            rw [start] at whole
            have later : tail ++ cs.flatMap escapeChar = before ++ '&' :: after :=
              (List.cons.inj whole).2
            rcases List.append_eq_append_iff.mp later with ⟨middle, -, follows⟩
              | ⟨middle, inside, follows⟩
            · exact ih follows
            · cases middle with
              | nil => exact ih (show _ = [] ++ '&' :: after from follows.symm)
              | cons e middle =>
                  obtain rfl := (List.cons.inj follows).1
                  exact absurd (inside ▸ List.mem_append_right before List.mem_cons_self) single

/-- An escaped text has no meaning in a document: no angle bracket, no quote, and an ampersand only
in references. -/
theorem isInert_escape (s : String) : IsInert (escape s).toList := by
  rw [escape, String.toList_ofList]
  refine ⟨fun c mark member => ?_, fun _ _ => reference_of_ampersand⟩
  obtain ⟨d, -, written⟩ := List.mem_flatMap.mp member
  rcases escapeChar_cases d with ⟨itself, plain⟩ | reference
  · rw [itself, List.mem_singleton] at written
    exact plain (written ▸ List.mem_cons_of_mem '&' mark)
  · have apart : references.all (fun r => r.all fun d => d ∉ ['<', '>', '"', '\'', '\t', '\n',
        '\r']) =
        true := by decide
    have inside := List.all_eq_true.mp (List.all_eq_true.mp apart _ reference) c written
    exact of_decide_eq_true inside mark

theorem quote_notMem_escape (s : String) : '"' ∉ (escape s).toList :=
  (isInert_escape s).no_mark '"' (by decide)

def escapeMark (c : Char) : List Char :=
  match c with
  | '&' => "&amp;".toList
  | '<' => "&lt;".toList
  | '>' => "&gt;".toList
  | '\'' => "&apos;".toList
  | '"' => "&quot;".toList
  | c => [c]

/-- A function on texts replaces the marks of XML and nothing else. -/
def ReplacesMarks (marks : String → String) : Prop :=
  ∀ s, (marks s).toList = s.toList.flatMap escapeMark

def replaceChar (c : Char) (replacement cs : List Char) : List Char :=
  cs.flatMap fun d => if d = c then replacement else [d]

/-- Replace one kind of white space after the other, unless there is none. -/
def escapeBlanks (cs : List Char) : List Char :=
  if cs.any fun c => c ∈ ['\t', '\n', '\r'] then
    replaceChar '\r' "&#13;".toList (replaceChar '\n' "&#10;".toList
      (replaceChar '\t' "&#9;".toList cs))
  else cs

theorem replaceChar_of_notMem {c : Char} {cs : List Char} (h : c ∉ cs) (replacement : List Char) :
    replaceChar c replacement cs = cs := by
  induction cs with
  | nil => rfl
  | cons d cs ih =>
      rw [List.mem_cons, not_or] at h
      rw [replaceChar, List.flatMap_cons, if_neg (Ne.symm h.1), ← replaceChar, ih h.2]
      rfl

/-- Escaping character by character is the same as replacing the marks of XML and, in the result,
the white space: no reference contains what is replaced after it. -/
theorem escape_eq_passes {marks : String → String} (replaces : ReplacesMarks marks) (s : String) :
    (escape s).toList = escapeBlanks (marks s).toList := by
  have single (c : Char) : escapeChar c = replaceChar '\r' "&#13;".toList
      (replaceChar '\n' "&#10;".toList (replaceChar '\t' "&#9;".toList (escapeMark c))) := by
    rw [escapeChar.eq_def]
    split
    case h_9 amp lt gt apos quote tab feed carriage =>
      have mark : escapeMark c = [c] := by
        rw [escapeMark.eq_def]
        split <;> first | contradiction | rfl
      have apart (d : Char) (ne : c = d → False) : d ∉ [c] := fun member =>
        ne (List.mem_singleton.mp member).symm
      rw [mark, replaceChar_of_notMem (apart '\t' tab), replaceChar_of_notMem (apart '\n' feed),
        replaceChar_of_notMem (apart '\r' carriage)]
    all_goals rfl
  have passes : (escape s).toList = replaceChar '\r' "&#13;".toList (replaceChar '\n' "&#10;".toList
      (replaceChar '\t' "&#9;".toList (marks s).toList)) := by
    rw [escape, String.toList_ofList, replaces, funext single]
    simp only [replaceChar, List.flatMap_assoc]
  rw [passes, escapeBlanks]
  split
  · rfl
  · rename_i none
    have apart (c : Char) (blank : c ∈ ['\t', '\n', '\r']) : c ∉ (marks s).toList := fun member =>
      none (List.any_eq_true.mpr ⟨c, member, decide_eq_true blank⟩)
    rw [replaceChar_of_notMem (apart '\t' (by decide)),
      replaceChar_of_notMem (apart '\n' (by decide)),
        replaceChar_of_notMem (apart '\r' (by decide))]

/-- The value of the attribute at a position, counted through a whole document. -/
def value? (document : String) (i : Nat) : Option String :=
  ((document.toList.splitOn '"')[2 * i + 1]?).map fun cs => unescape (String.ofList cs)

/-- To split at quotes is to find a value between its quotes. -/
theorem splitOn_value {before : List Char} (h : '"' ∉ before) (v : String) (rest : List Char) :
    (before ++ '"' :: ((escape v).toList ++ '"' :: rest)).splitOn '"' =
      before :: (escape v).toList :: rest.splitOn '"' := by
  rw [List.splitOn_append_cons_self_of_not_mem h,
    List.splitOn_append_cons_self_of_not_mem (quote_notMem_escape v)]

end Xml

namespace Payload

open Xml (escape value?)

theorem threadCreated_toList (t : ThreadRef) :
    (threadCreated t).toList = "<xml><thread name=".toList ++ '"' :: ((escape t.name).toList ++
      '"' :: (" id=".toList ++ '"' :: ((escape t.id).toList ++ '"' :: " /></xml>".toList))) := by
  simp [threadCreated, threadList, thread, Xml.document, Xml.render, Xml.renderAll,
    Xml.renderAttributes, Xml.renderAttribute, String.join]

/-- The notice of a new thread tells its identifier. -/
@[simp] theorem value?_threadCreated (t : ThreadRef) : value? (threadCreated t) 1 = some t.id := by
  rw [value?, threadCreated_toList, Xml.splitOn_value (by decide), Xml.splitOn_value (by decide)]
  simp

/-- The announcement of a stop starts with the thread and the reason, so these can be read without
the stack. -/
theorem suspendedThread_toList (sources : Source.SourceMap) (p : Program) (t : ThreadRef)
    (reason : StopReason) (top : FrameRef) :
    ∃ rest, (suspendedThread sources p t reason top).toList =
      "<xml><thread id=".toList ++ '"' :: ((escape t.id).toList ++ '"' ::
        (" stop_reason=".toList ++ '"' ::
          ((escape (toString reason.command.code)).toList ++ '"' :: rest))) := by
  refine ⟨">".toList ++ ((Xml.renderAll ((p.stack top).map fun r =>
    frame sources (p.frame r))).toList ++
    "</thread></xml>".toList), ?_⟩
  simp [suspendedThread, Xml.document, Xml.render, Xml.renderAll, Xml.renderAttributes,
    Xml.renderAttribute, String.join]

/-- The notice of a stop tells the identifier of the thread. -/
@[simp] theorem value?_suspendedThread_id (sources : Source.SourceMap) (p : Program) (t : ThreadRef)
    (reason : StopReason) (top : FrameRef) :
    value? (suspendedThread sources p t reason top) 0 = some t.id := by
  obtain ⟨rest, chars⟩ := suspendedThread_toList sources p t reason top
  rw [value?, chars, Xml.splitOn_value (by decide)]
  simp

/-- The notice of a stop tells its reason. -/
@[simp]
theorem value?_suspendedThread_reason (sources : Source.SourceMap) (p : Program) (t : ThreadRef)
    (reason : StopReason) (top : FrameRef) :
    value? (suspendedThread sources p t reason top) 1 = some (toString reason.command.code) := by
  obtain ⟨rest, chars⟩ := suspendedThread_toList sources p t reason top
  rw [value?, chars, Xml.splitOn_value (by decide), Xml.splitOn_value (by decide)]
  simp

end Payload

end RemoteDebugger
