import RemoteDebugger.Proofs.Text.Ascii
import RemoteDebugger.Wire.Percent

/-!
# Percent encoding is read back

An encoded payload is printable ASCII, so it never ends a line and never separates fields. A byte
that stands for itself is no percent sign, hence decoding takes an encoded text apart in the pieces
it was put together from.
-/

namespace RemoteDebugger.Wire

/-- A byte that is no percent sign stands for itself. -/
theorem unquoteBytes_cons {b : UInt8} (plain : b ≠ 0x25) (rest : List UInt8) :
    unquoteBytes (b :: rest) = b :: unquoteBytes rest := by
  match rest with
  | [] => rfl
  | [h] => rfl
  | h :: l :: rest => rw [unquoteBytes, if_neg plain]

/-- Bytes without a percent sign are left as they are. -/
theorem unquoteBytes_append {bytes : List UInt8} (plain : ∀ b ∈ bytes, b ≠ 0x25)
    (rest : List UInt8) : unquoteBytes (bytes ++ rest) = bytes ++ unquoteBytes rest := by
  induction bytes with
  | nil => rfl
  | cons b bytes ih =>
      rw [List.cons_append, unquoteBytes_cons (plain b List.mem_cons_self),
        ih fun b' later => plain b' (List.mem_cons_of_mem _ later), List.cons_append]

/-- A percent sign and two hexadecimal digits stand for one byte. -/
theorem unquoteBytes_escape_cons {h l : UInt8} {hi lo : Nat} (high : hexByteValue? h = some hi)
    (low : hexByteValue? l = some lo) (rest : List UInt8) :
    unquoteBytes (0x25 :: h :: l :: rest) = UInt8.ofNat (16 * hi + lo) :: unquoteBytes rest := by
  rw [unquoteBytes, if_pos rfl, high, low]

theorem printable_of_mem_safeMarks : ∀ b ∈ safeMarks,
    0x20 ≤ b.toNat ∧ b.toNat < 0x7F ∧ b ≠ 0x25 := by
  decide +kernel

/-- The bytes that are not quoted are printable ASCII characters other than the percent sign. -/
theorem printable_of_isSafe {b : UInt8} (safe : isSafe b = true) :
    0x20 ≤ b.toNat ∧ b.toNat < 0x7F ∧ b ≠ 0x25 := by
  have within {low high : UInt8} (low_le : low ≤ b) (le_high : b ≤ high)
      (bounds : 0x25 < low.toNat ∧ high.toNat < 0x7F) :
      0x20 ≤ b.toNat ∧ b.toNat < 0x7F ∧ b ≠ 0x25 := by
    have lower := UInt8.le_iff_toNat_le.mp low_le
    have upper := UInt8.le_iff_toNat_le.mp le_high
    refine ⟨by omega, by omega, ?_⟩
    rintro rfl
    have percent : (0x25 : UInt8).toNat = 0x25 := rfl
    omega
  simp only [isSafe, Bool.or_eq_true, Bool.and_eq_true, decide_eq_true_eq,
    List.contains_iff_mem] at safe
  obtain ((⟨low, high⟩ | ⟨low, high⟩) | ⟨low, high⟩) | mark := safe
  · exact within low high (by decide)
  · exact within low high (by decide)
  · exact within low high (by decide)
  · exact printable_of_mem_safeMarks b mark

theorem isPrintable_upperHexDigit : ∀ n < 16, Text.IsPrintable (upperHexDigit n) := by
  unfold Text.IsPrintable
  decide

theorem hexByteValue?_upperHexDigit : ∀ n < 16,
    hexByteValue? (UInt8.ofNat (upperHexDigit n).toNat) = some n := by
  decide

theorem ofNat_toNat_isPrintable {b : UInt8} (low : 0x20 ≤ b.toNat) (high : b.toNat < 0x7F) :
    (Char.ofNat b.toNat).toNat = b.toNat ∧ Text.IsPrintable (Char.ofNat b.toNat) := by
  have value : (Char.ofNat b.toNat).toNat = b.toNat := by
    have valid : b.toNat.isValidChar := .inl (by omega)
    rw [Char.ofNat, dif_pos valid]
    rfl
  refine ⟨value, ?_, ?_⟩
  · rwa [value]
  · rwa [value]

/-- A quoted byte is written in printable characters, whatever it is. -/
theorem isPrintable_of_mem_quoteByte {b : UInt8} {c : Char} (member : c ∈ quoteByte b) :
    Text.IsPrintable c := by
  have small : b.toNat < 256 := b.toNat_lt
  rw [quoteByte] at member
  split at member
  · rename_i safe
    obtain ⟨low, high, -⟩ := printable_of_isSafe safe
    rw [List.mem_singleton.mp member]
    exact (ofNat_toNat_isPrintable low high).2
  · simp only [escapeByte, List.mem_cons, List.not_mem_nil, or_false] at member
    obtain rfl | rfl | rfl := member
    · exact ⟨by decide, by decide⟩
    · exact isPrintable_upperHexDigit _ (by omega)
    · exact isPrintable_upperHexDigit _ (by omega)

/-- The encoded form of a byte is read as this byte. -/
@[simp] theorem unquoteBytes_quoteByte (b : UInt8) (rest : List UInt8) :
    unquoteBytes (Text.encode (quoteByte b) ++ rest) = b :: unquoteBytes rest := by
  have small : b.toNat < 256 := b.toNat_lt
  have ascii : ∀ c ∈ quoteByte b, c.toNat < 0x80 := by
    intro c member
    have := (isPrintable_of_mem_quoteByte member).2
    omega
  rw [Text.encode_ascii ascii, quoteByte]
  split
  · rename_i safe
    obtain ⟨low, high, plain⟩ := printable_of_isSafe safe
    have same : UInt8.ofNat (Char.ofNat b.toNat).toNat = b := by
      rw [(ofNat_toNat_isPrintable low high).1, UInt8.ofNat_toNat]
    rw [List.map_cons, List.map_nil, same]
    exact unquoteBytes_cons plain rest
  · have value : UInt8.ofNat (16 * (b.toNat / 16) + b.toNat % 16) = b := by
      rw [Nat.div_add_mod, UInt8.ofNat_toNat]
    have escaped := unquoteBytes_escape_cons
      (hexByteValue?_upperHexDigit (b.toNat / 16) (by omega))
      (hexByteValue?_upperHexDigit (b.toNat % 16) (by omega)) rest
    rw [value] at escaped
    exact escaped

/-- Every sequence of bytes is unquoted to itself after it has been quoted. -/
@[simp] theorem unquoteBytes_quoteBytes (bytes : List UInt8) :
    unquoteBytes (Text.encode (bytes.flatMap quoteByte)) = bytes := by
  induction bytes with
  | nil => rfl
  | cons b bytes ih =>
      rw [List.flatMap_cons, Text.encode_append, unquoteBytes_quoteByte, ih]

theorem isPrintable_of_mem_quote {s : String} {c : Char} (member : c ∈ (quote s).toList) :
    Text.IsPrintable c := by
  rw [quote, String.toList_ofList] at member
  obtain ⟨b, -, inside⟩ := List.mem_flatMap.mp member
  exact isPrintable_of_mem_quoteByte inside

/-- Decoding undoes encoding, for every text. -/
@[simp] theorem unquote_quote (s : String) : unquote (quote s) = s := by
  rw [unquote, quote, String.toList_ofList, unquoteBytes_quoteBytes, Text.decodeLossy_encode,
    String.ofList_toList]

end RemoteDebugger.Wire
