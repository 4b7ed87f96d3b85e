import RemoteDebugger.Proofs.Wire.Grammar
import RemoteDebugger.Proofs.Wire.Percent

/-!
# Lines are read back

The three parts of a line are printable ASCII texts, so the two tabs between them and the line feed
at the end are the only control characters. Such a line follows the grammar of requests, so a reader
cuts a stream of lines where the writer joined it, and finds in each line the code, the number and
the payload it was written from.
-/

namespace RemoteDebugger.Wire

/-- The line of a code, a number and a payload, whether or not the code is a command. -/
def lineOf (code : Nat) (seq : Int) (payload : String) : String :=
  s!"{code}\t{seq}\t{quote payload}\n"

theorem toLine_eq (m : Message) : m.toLine = lineOf m.command.code m.seq m.payload := rfl

section

variable {code : Nat} {seq : Int} {payload : String}

/-- The characters of a line: three parts, separated by tabs, and the line feed. -/
theorem toList_lineOf (code : Nat) (seq : Int) (payload : String) :
    (lineOf code seq payload).toList =
      Nat.toDigits 10 code ++ '\t' :: ((toString seq).toList ++ '\t' :: (quote payload).toList) ++
        ['\n'] := by
  have numeral : (toString code).toList = Nat.toDigits 10 code := Nat.toList_repr
  have tab : "\t".toList = ['\t'] := by decide
  have line_feed : "\n".toList = ['\n'] := by decide
  show (toString code ++ "\t" ++ toString seq ++ "\t" ++ quote payload ++ "\n").toList = _
  simp only [String.toList_append, numeral, tab, line_feed, List.append_assoc, List.cons_append,
    List.nil_append]

theorem isPrintable_of_mem_code {c : Char} (member : c ∈ Nat.toDigits 10 code) :
    Text.IsPrintable c :=
  Text.isPrintable_of_isDigit (Text.isDigit_of_mem_toDigits member)

/-- Before the line feed, a line has no line end. -/
theorem not_lineEnd_of_mem {c : Char}
    (member : c ∈ Nat.toDigits 10 code ++
      '\t' :: ((toString seq).toList ++ '\t' :: (quote payload).toList)) :
    ¬ (c = '\r' ∨ c = '\n') := by
  have of_printable (printable : Text.IsPrintable c) : ¬ (c = '\r' ∨ c = '\n') := by
    have cr : c ≠ '\r' := printable.ne_control (by decide)
    have lf : c ≠ '\n' := printable.ne_control (by decide)
    simp [cr, lf]
  simp only [List.mem_append, List.mem_cons] at member
  obtain inside | rfl | inside | rfl | inside := member
  · exact of_printable (isPrintable_of_mem_code inside)
  · decide
  · exact of_printable (Text.isPrintable_of_mem_toString inside)
  · decide
  · exact of_printable (isPrintable_of_mem_quote inside)

/-- A written line is its code, its number and its quoted payload, with tabs between them. -/
theorem isLineOf_lineOf (code : Nat) (seq : Int) (payload : String) :
    IsLineOf (lineOf code seq payload).toList (Nat.toDigits 10 code ++
      '\t' :: ((toString seq).toList ++ '\t' :: (quote payload).toList)) := by
  constructor
  · exact ⟨['\n'], toList_lineOf code seq payload, by simp⟩
  · intro c last
    exact not_lineEnd_of_mem (List.mem_of_getLast? last)

/-- A line is read as what it was written from. -/
theorem ofLine_lineOf (small : code ≤ Text.maxUInt32) (fits : Text.IsInt64 seq) :
    Request.ofLine (lineOf code seq payload) = .ok ⟨code, seq, payload⟩ := by
  have grammar := IsRequest.loaded (.plain (Text.isNumeral_toDigits code) small)
    (Text.isSigned_toString fits) (quote payload).toList
  rw [String.ofList_toList, unquote_quote] at grammar
  exact ofLine_of_isRequest (isLineOf_lineOf code seq payload) grammar

/-- The bytes of a line are read as what the line was written from. -/
theorem ofBytes_lineOf (small : code ≤ Text.maxUInt32) (fits : Text.IsInt64 seq) :
    Request.ofBytes (Text.encode (lineOf code seq payload).toList) = .ok ⟨code, seq, payload⟩ := by
  rw [Request.ofBytes, Text.decode?_encode]
  dsimp only
  rw [String.ofList_toList]
  exact ofLine_lineOf small fits

end

/-- The shape of the bytes of a line: two tabs, and one line feed, which is the last byte. -/
structure IsFrame (bytes : List UInt8) : Prop where
  tabs : bytes.count 0x09 = 2
  lineFeeds : bytes.count 0x0A = 1
  last : bytes.getLast? = some 0x0A

/-- Printable characters are encoded without the control byte, whichever it is. -/
theorem count_encode_printable (cs : List Char) (printable : ∀ c ∈ cs, Text.IsPrintable c)
    {control : UInt8} (below : control.toNat < 0x20) : (Text.encode cs).count control = 0 := by
  rw [List.count_eq_zero]
  intro member
  have := Text.mem_encode_printable printable member
  omega

theorem encode_lineOf (code : Nat) (seq : Int) (payload : String) :
    Text.encode (lineOf code seq payload).toList =
      Text.encode (Nat.toDigits 10 code) ++ 0x09 :: (Text.encode (toString seq).toList ++
        0x09 :: Text.encode (quote payload).toList) ++ [0x0A] := by
  have tab : String.utf8EncodeChar '\t' = [0x09] := by decide
  have line_feed : String.utf8EncodeChar '\n' = [0x0A] := by decide
  simp only [toList_lineOf, Text.encode_append, Text.encode_cons, Text.encode_nil, tab, line_feed,
    List.cons_append, List.nil_append]

/-- The only control bytes of a written line are two tabs and the line feed at its end. -/
theorem count_encode_lineOf (code : Nat) (seq : Int) (payload : String) {control : UInt8}
    (below : control.toNat < 0x20) : (Text.encode (lineOf code seq payload).toList).count control =
      [0x09, 0x09, 0x0A].count control := by
  have codes := count_encode_printable (Nat.toDigits 10 code)
    (fun _ member => isPrintable_of_mem_code member) below
  have numbers := count_encode_printable (toString seq).toList
    (fun _ member => Text.isPrintable_of_mem_toString member) below
  have payloads := count_encode_printable (quote payload).toList
    (fun _ member => isPrintable_of_mem_quote member) below
  simp only [encode_lineOf, List.count_append, List.count_cons, List.count_nil, codes, numbers,
    payloads]
  omega

/-- A written line has one line feed, at its end, and two tabs. -/
theorem isFrame_lineOf (code : Nat) (seq : Int) (payload : String) :
    IsFrame (Text.encode (lineOf code seq payload).toList) := by
  constructor
  · exact count_encode_lineOf code seq payload (by decide)
  · exact count_encode_lineOf code seq payload (by decide)
  · rw [encode_lineOf, List.getLast?_concat]

/-- The first line of a stream that starts with a frame is this frame, whatever follows. -/
theorem IsFrame.linesOf_append {line : List UInt8} (frame : IsFrame line) (rest : List UInt8) :
    linesOf (line ++ rest) = line :: linesOf rest := by
  obtain ⟨body, rfl⟩ := List.getLast?_eq_some_iff.mp frame.last
  have unbroken : 0x0A ∉ body := by
    have once := frame.lineFeeds
    rw [List.count_append, List.count_singleton_self] at once
    exact List.count_eq_zero.mp (by omega)
  rw [List.append_assoc, List.singleton_append, Wire.linesOf_append unbroken]

/-- Lines that are joined are cut apart again. -/
theorem linesOf_flatten {lines : List (List UInt8)} (frames : ∀ line ∈ lines, IsFrame line) :
    linesOf lines.flatten = lines := by
  induction lines with
  | nil => rfl
  | cons line lines ih =>
      have first : IsFrame line := frames line List.mem_cons_self
      have others : ∀ line' ∈ lines, IsFrame line' :=
        fun line' member => frames line' (List.mem_cons_of_mem line member)
      rw [List.flatten_cons, first.linesOf_append, ih others]

end RemoteDebugger.Wire
