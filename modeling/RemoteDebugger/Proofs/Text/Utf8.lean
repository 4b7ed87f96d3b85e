import RemoteDebugger.Text.Utf8

/-!
# UTF-8 is read back

From between two characters, the decoder reads the bytes of a character and emits this character.
Decoding therefore undoes encoding, strictly and lossily, and reads on behind it as if it had
started there.
-/

namespace RemoteDebugger.Text

section

variable {b : UInt8}

theorem startWith_one (h : b.toNat < 0x80) :
    startWith b = ([.char (Char.ofNat b.toNat)], none) := by
  have ascii : b < 0x80 := UInt8.lt_iff_toNat_lt.mpr h
  rw [startWith, if_pos ascii]

/-- A byte that leads a character is held until the others of the character come. -/
theorem startWith_lead (h : 0x80 ≤ b.toNat) {p : Pending} (lead : Pending.ofLead b = some p) :
    startWith b = ([], some p) := by
  have long : ¬ b < 0x80 := by
    rw [UInt8.lt_iff_toNat_lt]
    exact Nat.not_lt.mpr h
  rw [startWith, if_neg long, lead]

theorem startWith_two (low : 0xC2 ≤ b.toNat) (high : b.toNat ≤ 0xDF) :
    startWith b = ([], some ⟨b.toNat % 32, 1, 1, 0x80, 0xBF⟩) := by
  have lead : 0xC2 ≤ b ∧ b ≤ 0xDF :=
    ⟨UInt8.le_iff_toNat_le.mpr low, UInt8.le_iff_toNat_le.mpr high⟩
  refine startWith_lead (by omega) ?_
  rw [Pending.ofLead, if_pos lead]

/-- The lead byte tells how many bytes a character has, and bounds the second one so that nothing is
written longer than need be, and no surrogate. -/
theorem ofLead_eq (b : UInt8) : Pending.ofLead b =
    if 0xC2 ≤ b.toNat ∧ b.toNat ≤ 0xDF then some ⟨b.toNat % 32, 1, 1, 0x80, 0xBF⟩
    else if b.toNat = 0xE0 then some ⟨b.toNat % 16, 1, 2, 0xA0, 0xBF⟩
    else if b.toNat = 0xED then some ⟨b.toNat % 16, 1, 2, 0x80, 0x9F⟩
    else if 0xE1 ≤ b.toNat ∧ b.toNat ≤ 0xEF then some ⟨b.toNat % 16, 1, 2, 0x80, 0xBF⟩
    else if b.toNat = 0xF0 then some ⟨b.toNat % 8, 1, 3, 0x90, 0xBF⟩
    else if 0xF1 ≤ b.toNat ∧ b.toNat ≤ 0xF3 then some ⟨b.toNat % 8, 1, 3, 0x80, 0xBF⟩
    else if b.toNat = 0xF4 then some ⟨b.toNat % 8, 1, 3, 0x80, 0x8F⟩
    else none := by
  simp only [Pending.ofLead, UInt8.le_iff_toNat_le, ← UInt8.toNat_inj, UInt8.reduceToNat]

/-- After the leading byte of three, the range of the next excludes what two bytes can write, and
the surrogates. -/
theorem startWith_three (low : 0xE0 ≤ b.toNat) (high : b.toNat ≤ 0xEF) :
    ∃ p : Pending, startWith b = ([], some p) ∧ p.value = b.toNat % 16 ∧ p.owed = 2 ∧
      p.low.toNat = (if b.toNat = 0xE0 then 0xA0 else 0x80) ∧
      p.high.toNat = if b.toNat = 0xED then 0x9F else 0xBF := by
  have long : 0x80 ≤ b.toNat := by omega
  have lead := ofLead_eq b
  rw [if_neg (by omega)] at lead
  by_cases first : b.toNat = 0xE0
  · rw [if_pos first] at lead
    exact ⟨_, startWith_lead long lead, rfl, rfl, by simp [first], by simp [first]⟩
  · rw [if_neg first] at lead
    by_cases surrogates : b.toNat = 0xED
    · rw [if_pos surrogates] at lead
      exact ⟨_, startWith_lead long lead, rfl, rfl, by simp [surrogates], by simp [surrogates]⟩
    · rw [if_neg surrogates, if_pos (by omega)] at lead
      exact ⟨_, startWith_lead long lead, rfl, rfl, by simp [first], by simp [surrogates]⟩

/-- After the leading byte of four, the range of the next excludes what three bytes can write, and
what no character has. -/
theorem startWith_four (low : 0xF0 ≤ b.toNat) (high : b.toNat ≤ 0xF4) :
    ∃ p : Pending, startWith b = ([], some p) ∧ p.value = b.toNat % 8 ∧ p.owed = 3 ∧
      p.low.toNat = (if b.toNat = 0xF0 then 0x90 else 0x80) ∧
      p.high.toNat = if b.toNat = 0xF4 then 0x8F else 0xBF := by
  have long : 0x80 ≤ b.toNat := by omega
  have lead := ofLead_eq b
  rw [if_neg (by omega), if_neg (by omega), if_neg (by omega), if_neg (by omega)] at lead
  by_cases first : b.toNat = 0xF0
  · rw [if_pos first] at lead
    exact ⟨_, startWith_lead long lead, rfl, rfl, by simp [first], by simp [first]⟩
  · rw [if_neg first] at lead
    by_cases last : b.toNat = 0xF4
    · rw [if_neg (by omega), if_pos last] at lead
      exact ⟨_, startWith_lead long lead, rfl, rfl, by simp [last], by simp [last]⟩
    · rw [if_pos (by omega)] at lead
      exact ⟨_, startWith_lead long lead, rfl, rfl, by simp [first], by simp [last]⟩

/-- A byte in the range that a character waits for continues it. -/
theorem feed_of_within {p : Pending} (low : p.low.toNat ≤ b.toNat) (high : b.toNat ≤ p.high.toNat) :
    p.feed b =
      if p.owed ≤ 1 then ([.char (Char.ofNat (p.value * 64 + b.toNat % 64))], none)
      else ([], some ⟨p.value * 64 + b.toNat % 64, p.seen + 1, p.owed - 1, 0x80, 0xBF⟩) := by
  rw [Pending.feed, if_pos ⟨UInt8.le_iff_toNat_le.mpr low, UInt8.le_iff_toNat_le.mpr high⟩]

end

/-- The bytes that are still owed to a character, and then the rest. -/
theorem piecesFrom_last {p : Pending} {b : UInt8} {c : Char} (rest : List UInt8)
    (owed : p.owed = 1) (low : p.low.toNat ≤ b.toNat) (high : b.toNat ≤ p.high.toNat)
    (value : p.value * 64 + b.toNat % 64 = c.toNat) :
    piecesFrom (some p) (b :: rest) = .char c :: pieces rest := by
  rw [piecesFrom, feed, feed_of_within low high, if_pos (by omega), value, Char.ofNat_toNat]
  rfl

/-- A byte inside the bounds goes on with the character that was begun, and further ones are
owed. -/
theorem piecesFrom_more {p : Pending} {b : UInt8} (rest : List UInt8) (owed : 2 ≤ p.owed)
    (low : p.low.toNat ≤ b.toNat) (high : b.toNat ≤ p.high.toNat) :
    piecesFrom (some p) (b :: rest) =
      piecesFrom (some ⟨p.value * 64 + b.toNat % 64, p.seen + 1, p.owed - 1, 0x80, 0xBF⟩) rest := by
  rw [piecesFrom, feed, feed_of_within low high, if_neg (by omega)]
  rfl

theorem piecesFrom_lead {b : UInt8} {p : Pending} (rest : List UInt8)
    (lead : startWith b = ([], some p)) : pieces (b :: rest) = piecesFrom (some p) rest := by
  rw [pieces, piecesFrom, feed, lead]
  rfl

theorem toNat_ofNat {n : Nat} (small : n < 256) : (UInt8.ofNat n).toNat = n :=
  UInt8.toNat_ofNat_of_lt' small

/-- The bytes of a character are read as this character. -/
theorem pieces_utf8EncodeChar (c : Char) (rest : List UInt8) :
    pieces (String.utf8EncodeChar c ++ rest) = .char c :: pieces rest := by
  have valid : c.val.toNat < 0xD800 ∨ 0xDFFF < c.val.toNat ∧ c.val.toNat < 0x110000 := c.valid
  have same : c.toNat = c.val.toNat := rfl
  simp only [String.utf8EncodeChar]
  generalize c.val.toNat = v at *
  have tail (n : Nat) : (UInt8.ofNat (n % 64 + 128)).toNat = n % 64 + 128 := toNat_ofNat (by omega)
  split
  · have byte : (UInt8.ofNat v).toNat = v := toNat_ofNat (by omega)
    show piecesFrom none (UInt8.ofNat v :: rest) = _
    rw [piecesFrom, feed, startWith_one (by omega), byte, ← same, Char.ofNat_toNat]
    rfl
  · split
    · have lead : (UInt8.ofNat (v / 64 % 32 + 192)).toNat = v / 64 % 32 + 192 :=
        toNat_ofNat (by omega)
      have second := tail v
      simp only [List.cons_append, List.nil_append]
      rw [piecesFrom_lead _ (startWith_two (by omega) (by omega))]
      refine piecesFrom_last rest rfl ?_ ?_ ?_ <;> simp only [UInt8.reduceToNat] <;> omega
    · split
      · have lead : (UInt8.ofNat (v / 4096 % 16 + 224)).toNat = v / 4096 % 16 + 224 :=
          toNat_ofNat (by omega)
        have second := tail (v / 64)
        have third := tail v
        obtain ⟨p, started, value, owed, low, high⟩ :=
          startWith_three (b := UInt8.ofNat (v / 4096 % 16 + 224)) (by omega) (by omega)
        simp only [List.cons_append, List.nil_append]
        rw [piecesFrom_lead _ started, piecesFrom_more _ (by omega)]
        · refine piecesFrom_last rest (by simp [owed]) ?_ ?_ ?_ <;>
            simp only [UInt8.reduceToNat] <;> omega
        · rw [low]; split <;> omega
        · rw [high]; split <;> omega
      · have lead : (UInt8.ofNat (v / 262144 % 8 + 240)).toNat = v / 262144 % 8 + 240 :=
          toNat_ofNat (by omega)
        have second := tail (v / 4096)
        have third := tail (v / 64)
        have fourth := tail v
        obtain ⟨p, started, value, owed, low, high⟩ :=
          startWith_four (b := UInt8.ofNat (v / 262144 % 8 + 240)) (by omega) (by omega)
        simp only [List.cons_append, List.nil_append]
        rw [piecesFrom_lead _ started, piecesFrom_more _ (by omega), piecesFrom_more]
        · refine piecesFrom_last rest (by simp [owed]) ?_ ?_ ?_ <;>
            simp only [UInt8.reduceToNat] <;> omega
        · simp [owed]
        · simp only [UInt8.reduceToNat]; omega
        · simp only [UInt8.reduceToNat]; omega
        · rw [low]; split <;> omega
        · rw [high]; split <;> omega

/-- The encoding of some characters is decoded to these, whatever bytes follow. -/
theorem pieces_encode_append (cs : List Char) (rest : List UInt8) :
    pieces (encode cs ++ rest) = cs.map .char ++ pieces rest := by
  induction cs with
  | nil => rfl
  | cons c cs ih =>
      rw [encode_cons, List.append_assoc, pieces_utf8EncodeChar, ih]
      rfl

@[simp] theorem pieces_encode (cs : List Char) : pieces (encode cs) = cs.map .char := by
  simpa using pieces_encode_append cs []

/-- Lossy decoding undoes encoding. -/
@[simp] theorem decodeLossy_encode (cs : List Char) : decodeLossy (encode cs) = cs := by
  rw [decodeLossy, pieces_encode, List.map_map]
  exact List.map_id cs

/-- So does strict decoding, which accepts every text. -/
@[simp] theorem decode?_encode (cs : List Char) : decode? (encode cs) = some cs := by
  rw [decode?, pieces_encode, List.mapM_map]
  have all_read : cs.mapM (fun c => (pure c : Option Char)) = pure (cs.map fun c => c) :=
    List.mapM_pure
  rwa [List.map_id'] at all_read

end RemoteDebugger.Text
