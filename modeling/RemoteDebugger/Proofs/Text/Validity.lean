import RemoteDebugger.Proofs.Text.Utf8

/-!
# What is UTF-8

Strict decoding reads the bytes of a text as this text. Here is the other direction: bytes in which
the decoder finds no fault are the bytes of the text it reads. It emits a character only when the
bytes of this character have gone by, since the range for the byte after a leading byte excludes the
forms that are too long, the surrogates and what is above the last character.
-/

namespace RemoteDebugger.Text

section

variable {a b c d : UInt8}

/-- The byte may follow a leading byte. -/
def IsTail (b : UInt8) : Prop := 0x80 ≤ b.toNat ∧ b.toNat ≤ 0xBF

/-- The bytes of the character of a number, by the size of the number. -/
theorem utf8EncodeChar_ofNat {n : Nat} (valid : n.isValidChar) :
    String.utf8EncodeChar (Char.ofNat n) =
      if n ≤ 0x7F then [UInt8.ofNat n]
      else if n ≤ 0x7FF then [UInt8.ofNat (n / 64 % 32 + 192), UInt8.ofNat (n % 64 + 128)]
      else if n ≤ 0xFFFF then
        [UInt8.ofNat (n / 4096 % 16 + 224), UInt8.ofNat (n / 64 % 64 + 128),
          UInt8.ofNat (n % 64 + 128)]
      else
        [UInt8.ofNat (n / 262144 % 8 + 240), UInt8.ofNat (n / 4096 % 64 + 128),
          UInt8.ofNat (n / 64 % 64 + 128), UInt8.ofNat (n % 64 + 128)] := by
  have value : (Char.ofNat n).val.toNat = n := by
    rw [Char.ofNat, dif_pos valid]
    rfl
  simp only [String.utf8EncodeChar, value]

theorem ofNat_eq {n : Nat} (value : n = b.toNat) : UInt8.ofNat n = b := by
  rw [value, UInt8.ofNat_toNat]

theorem utf8EncodeChar_one (h : a.toNat < 0x80) :
    String.utf8EncodeChar (Char.ofNat a.toNat) = [a] := by
  rw [utf8EncodeChar_ofNat (.inl (by omega)), if_pos (by omega), UInt8.ofNat_toNat]

theorem utf8EncodeChar_two (lead : 0xC2 ≤ a.toNat ∧ a.toNat ≤ 0xDF) (tail : IsTail b) :
    String.utf8EncodeChar (Char.ofNat (a.toNat % 32 * 64 + b.toNat % 64)) = [a, b] := by
  obtain ⟨low, high⟩ := tail
  rw [utf8EncodeChar_ofNat (.inl (by omega)), if_neg (by omega), if_pos (by omega),
    ofNat_eq (b := a) (by omega), ofNat_eq (b := b) (by omega)]

theorem utf8EncodeChar_three (lead : 0xE0 ≤ a.toNat ∧ a.toNat ≤ 0xEF) (second : IsTail b)
    (long : a.toNat = 0xE0 → 0xA0 ≤ b.toNat) (plain : a.toNat = 0xED → b.toNat ≤ 0x9F)
    (tail : IsTail c) :
    String.utf8EncodeChar
      (Char.ofNat ((a.toNat % 16 * 64 + b.toNat % 64) * 64 + c.toNat % 64)) = [a, b, c] := by
  obtain ⟨low, high⟩ := second
  obtain ⟨low', high'⟩ := tail
  have valid : ((a.toNat % 16 * 64 + b.toNat % 64) * 64 + c.toNat % 64).isValidChar := by
    unfold Nat.isValidChar
    omega
  rw [utf8EncodeChar_ofNat valid, if_neg (by omega), if_neg (by omega), if_pos (by omega),
    ofNat_eq (b := a) (by omega), ofNat_eq (b := b) (by omega), ofNat_eq (b := c) (by omega)]

theorem utf8EncodeChar_four (lead : 0xF0 ≤ a.toNat ∧ a.toNat ≤ 0xF4) (second : IsTail b)
    (long : a.toNat = 0xF0 → 0x90 ≤ b.toNat) (last : a.toNat = 0xF4 → b.toNat ≤ 0x8F)
    (third : IsTail c) (tail : IsTail d) :
    String.utf8EncodeChar
      (Char.ofNat (((a.toNat % 8 * 64 + b.toNat % 64) * 64 + c.toNat % 64) * 64 + d.toNat % 64)) =
        [a, b, c, d] := by
  obtain ⟨low, high⟩ := second
  obtain ⟨low', high'⟩ := third
  obtain ⟨low'', high''⟩ := tail
  rw [utf8EncodeChar_ofNat (.inr ⟨by omega, by omega⟩), if_neg (by omega), if_neg (by omega),
    if_neg (by omega), ofNat_eq (b := a) (by omega), ofNat_eq (b := b) (by omega),
    ofNat_eq (b := c) (by omega), ofNat_eq (b := d) (by omega)]

end

section

variable {p : Pending} {bytes : List UInt8} {cs : List Char}

/-- Inside a character, the next byte is one that continues it, unless there is a fault. -/
theorem next_of_faultless (faultless : piecesFrom (some p) bytes = cs.map .char) :
    ∃ b rest, bytes = b :: rest ∧ p.low.toNat ≤ b.toNat ∧ b.toNat ≤ p.high.toNat := by
  cases bytes with
  | nil => cases cs <;> cases faultless
  | cons b rest =>
      by_cases within : p.low ≤ b ∧ b ≤ p.high
      · exact ⟨b, rest, rfl, UInt8.le_iff_toNat_le.mp within.1, UInt8.le_iff_toNat_le.mp within.2⟩
      · rw [piecesFrom, feed, Pending.feed, if_neg within] at faultless
        cases cs <;> cases faultless

/-- The last byte that is owed to a character completes it. -/
theorem last_of_faultless (owed : p.owed = 1)
    (faultless : piecesFrom (some p) bytes = cs.map .char) :
    ∃ b rest cs', bytes = b :: rest ∧ p.low.toNat ≤ b.toNat ∧ b.toNat ≤ p.high.toNat ∧
      cs = Char.ofNat (p.value * 64 + b.toNat % 64) :: cs' ∧ pieces rest = cs'.map .char := by
  obtain ⟨b, rest, rfl, low, high⟩ := next_of_faultless faultless
  rw [piecesFrom, feed, feed_of_within low high, if_pos (by omega)] at faultless
  cases cs with
  | nil => cases faultless
  | cons c cs' =>
      obtain ⟨same, later⟩ := List.cons.inj faultless
      obtain rfl : Char.ofNat (p.value * 64 + b.toNat % 64) = c := Piece.char.inj same
      exact ⟨b, rest, cs', rfl, low, high, rfl, later⟩

/-- A character that was begun without a fault goes on with a byte inside its bounds. -/
theorem more_of_faultless (owed : 2 ≤ p.owed)
    (faultless : piecesFrom (some p) bytes = cs.map .char) :
    ∃ b rest, bytes = b :: rest ∧ p.low.toNat ≤ b.toNat ∧ b.toNat ≤ p.high.toNat ∧
      piecesFrom (some ⟨p.value * 64 + b.toNat % 64, p.seen + 1, p.owed - 1, 0x80, 0xBF⟩) rest =
        cs.map .char := by
  obtain ⟨b, rest, rfl, low, high⟩ := next_of_faultless faultless
  rw [piecesFrom_more rest owed low high] at faultless
  exact ⟨b, rest, rfl, low, high, faultless⟩

/-- The bytes of the first character, and then bytes without a fault. -/
def StartsWithChar (bytes : List UInt8) (cs : List Char) : Prop :=
  ∃ c cs' rest, cs = c :: cs' ∧ bytes = String.utf8EncodeChar c ++ rest ∧
    pieces rest = cs'.map .char

section

variable {b : UInt8} {rest : List UInt8}

theorem first_of_one (one : b.toNat < 0x80) (faultless : pieces (b :: rest) = cs.map .char) :
    StartsWithChar (b :: rest) cs := by
  rw [pieces, piecesFrom, feed, startWith_one one] at faultless
  cases cs with
  | nil => cases faultless
  | cons c cs' =>
      obtain ⟨same, later⟩ := List.cons.inj faultless
      obtain rfl : Char.ofNat b.toNat = c := Piece.char.inj same
      exact ⟨_, cs', rest, rfl, by rw [utf8EncodeChar_one one]; rfl, later⟩

theorem first_of_two (two : 0xC2 ≤ b.toNat ∧ b.toNat ≤ 0xDF)
    (faultless : pieces (b :: rest) = cs.map .char) : StartsWithChar (b :: rest) cs := by
  rw [piecesFrom_lead rest (startWith_two two.1 two.2)] at faultless
  obtain ⟨b₂, rest', cs', rfl, low, high, rfl, later⟩ := last_of_faultless rfl faultless
  exact ⟨_, cs', rest', rfl, by rw [utf8EncodeChar_two two ⟨low, high⟩]; rfl, later⟩

theorem first_of_three (three : 0xE0 ≤ b.toNat ∧ b.toNat ≤ 0xEF)
    (faultless : pieces (b :: rest) = cs.map .char) : StartsWithChar (b :: rest) cs := by
  obtain ⟨p, started, value, owed, low_eq, high_eq⟩ := startWith_three three.1 three.2
  rw [piecesFrom_lead rest started] at faultless
  obtain ⟨b₂, rest₂, rfl, low, high, faultless⟩ := more_of_faultless (by omega) faultless
  obtain ⟨b₃, rest', cs', rfl, low', high', rfl, later⟩ :=
    last_of_faultless (by simp [owed]) faultless
  have second : IsTail b₂ := by
    unfold IsTail
    split at low_eq <;> split at high_eq <;> omega
  have whole := utf8EncodeChar_three three second
    (fun first => by rw [low_eq, if_pos first] at low; exact low)
    (fun surrogates => by rw [high_eq, if_pos surrogates] at high; exact high) ⟨low', high'⟩
  exact ⟨_, cs', rest', rfl, by rw [value, whole]; rfl, later⟩

theorem first_of_four (four : 0xF0 ≤ b.toNat ∧ b.toNat ≤ 0xF4)
    (faultless : pieces (b :: rest) = cs.map .char) : StartsWithChar (b :: rest) cs := by
  obtain ⟨p, started, value, owed, low_eq, high_eq⟩ := startWith_four four.1 four.2
  rw [piecesFrom_lead rest started] at faultless
  obtain ⟨b₂, rest₂, rfl, low, high, faultless⟩ := more_of_faultless (by omega) faultless
  obtain ⟨b₃, rest₃, rfl, low₃, high₃, faultless⟩ := more_of_faultless (by simp [owed]) faultless
  obtain ⟨b₄, rest', cs', rfl, low₄, high₄, rfl, later⟩ :=
    last_of_faultless (by simp [owed]) faultless
  have second : IsTail b₂ := by
    unfold IsTail
    split at low_eq <;> split at high_eq <;> omega
  have whole := utf8EncodeChar_four four second
    (fun first => by rw [low_eq, if_pos first] at low; exact low)
    (fun last => by rw [high_eq, if_pos last] at high; exact high) ⟨low₃, high₃⟩ ⟨low₄, high₄⟩
  exact ⟨_, cs', rest', rfl, by rw [value, whole]; rfl, later⟩

/-- Bytes without a fault start with the bytes of a character. -/
theorem first_of_faultless (faultless : pieces (b :: rest) = cs.map .char) :
    StartsWithChar (b :: rest) cs := by
  by_cases one : b.toNat < 0x80
  · exact first_of_one one faultless
  by_cases two : 0xC2 ≤ b.toNat ∧ b.toNat ≤ 0xDF
  · exact first_of_two two faultless
  by_cases three : 0xE0 ≤ b.toNat ∧ b.toNat ≤ 0xEF
  · exact first_of_three three faultless
  by_cases four : 0xF0 ≤ b.toNat ∧ b.toNat ≤ 0xF4
  · exact first_of_four four faultless
  -- No other byte starts a character.
  have no_lead : Pending.ofLead b = none := by
    rw [ofLead_eq, if_neg two, if_neg (by omega), if_neg (by omega), if_neg (by omega),
      if_neg (by omega), if_neg (by omega), if_neg (by omega)]
  have long : ¬ b < 0x80 := by
    rw [UInt8.lt_iff_toNat_lt]
    exact one
  rw [pieces, piecesFrom, feed, startWith, if_neg long, no_lead] at faultless
  cases cs <;> cases faultless

end

/-- Bytes that are decoded without a fault are the encoding of the characters, so no character has
two encodings. -/
theorem eq_encode_of_pieces (faultless : pieces bytes = cs.map .char) : bytes = encode cs := by
  induction cs generalizing bytes with
  | nil =>
      cases bytes with
      | nil => rfl
      | cons b rest =>
          obtain ⟨c, cs', -, missing, -⟩ := first_of_faultless faultless
          cases missing
  | cons c cs ih =>
      cases bytes with
      | nil => cases faultless
      | cons b rest =>
          obtain ⟨_, _, rest', same, front, later⟩ := first_of_faultless faultless
          obtain ⟨rfl, rfl⟩ := List.cons.inj same
          rw [front, ih later, encode_cons]

end

/-- Pieces that are all characters are read as these. -/
theorem mapM_char?_eq_some {ps : List Piece} {cs : List Char} (h : ps.mapM Piece.char? = some cs) :
    ps = cs.map .char := by
  induction ps generalizing cs with
  | nil =>
      obtain rfl : [] = cs := by simpa using h
      rfl
  | cons p ps ih =>
      rw [List.mapM_cons] at h
      cases p with
      | char c =>
          obtain ⟨cs', later, whole⟩ : ∃ cs', ps.mapM Piece.char? = some cs' ∧
              some (c :: cs') = some cs := Option.bind_eq_some_iff.mp h
          cases whole
          rw [ih later, List.map_cons]
      | broken width => cases h
      | cut width => cases h

/-- Strict decoding reads bytes as a text exactly if they are the bytes of this text. -/
theorem decode?_eq_some_iff {bytes : List UInt8} {cs : List Char} :
    decode? bytes = some cs ↔ bytes = encode cs := by
  constructor
  · intro read
    exact eq_encode_of_pieces (mapM_char?_eq_some read)
  · rintro rfl
    exact decode?_encode cs

end RemoteDebugger.Text
