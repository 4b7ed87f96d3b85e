import RemoteDebugger.Proofs.Wire.Line
import RemoteDebugger.Wire.Field

/-!
# Fields are read back

An escaped field contains no tab, and every percent sign in it starts an escape. The fields of a
payload that was written from a list of fields are therefore this list again, whatever texts they
are. The line that the payload travels in is decoded by the same rule one level further out, where
every percent sign starts an escape of that level, so the fields survive both.
-/

namespace RemoteDebugger.Wire

/-- A percent sign is a byte of no other character. -/
theorem ne_percent_of_mem_utf8EncodeChar {c : Char} (other : c ≠ '%') :
    ∀ b ∈ String.utf8EncodeChar c, b ≠ 0x25 := by
  have different : c.val.toNat ≠ 0x25 := by
    intro same
    refine other (Char.ext (UInt32.toNat_inj.mp ?_))
    exact same
  intro b member same
  have value : b.toNat = 0x25 := by rw [same]; rfl
  simp only [String.utf8EncodeChar] at member
  split at member
  · obtain rfl := List.mem_singleton.mp member
    rw [Text.toNat_ofNat (by omega)] at value
    exact different value
  · have large (n m : Nat) (h : 0x80 ≤ m) (small : n + m < 256) :
        (UInt8.ofNat (n + m)).toNat ≠ 0x25 := by
      rw [Text.toNat_ofNat small]
      omega
    split at member
    · simp only [List.mem_cons, List.not_mem_nil, or_false] at member
      rcases member with rfl | rfl
      · exact large _ _ (by omega) (by omega) value
      · exact large _ _ (by omega) (by omega) value
    · split at member
      · simp only [List.mem_cons, List.not_mem_nil, or_false] at member
        rcases member with rfl | rfl | rfl <;> exact large _ _ (by omega) (by omega) value
      · simp only [List.mem_cons, List.not_mem_nil, or_false] at member
        rcases member with rfl | rfl | rfl | rfl <;> exact large _ _ (by omega) (by omega) value

/-- The escape of a character is read as this character. -/
@[simp] theorem unquoteBytes_escapeChar (c : Char) (rest : List UInt8) :
    unquoteBytes (Text.encode (escapeChar c) ++ rest) =
      String.utf8EncodeChar c ++ unquoteBytes rest := by
  rw [escapeChar.eq_def]
  split
  · rfl
  · rfl
  · rfl
  · rfl
  · rename_i percent _ _ _
    rw [Text.encode_cons, Text.encode_nil, List.append_nil]
    exact unquoteBytes_append (ne_percent_of_mem_utf8EncodeChar percent) rest

/-- Escaped characters are unquoted to their encoding. -/
@[simp] theorem unquoteBytes_escape (cs : List Char) :
    unquoteBytes (Text.encode (cs.flatMap escapeChar)) = Text.encode cs := by
  induction cs with
  | nil => rfl
  | cons c cs ih =>
      rw [List.flatMap_cons, Text.encode_append, unquoteBytes_escapeChar, ih, Text.encode_cons]

/-- Unescaping undoes escaping. -/
@[simp] theorem unescapeField_escapeField (field : String) :
    unescapeField (escapeField field) = field := by
  simp [unescapeField, escapeField, unquote, unquoteBytes_escape]

/-- No escaped character contains a separator, so fields and lines can be told apart after
escaping. -/
theorem separator_notMem_escapeChar {sep : Char} (separates : sep ∈ ['\t', '\n', '\r']) (c : Char) :
    sep ∉ escapeChar c := by
  have referred : ∀ cs ∈ [['%', '2', '5'], ['%', '0', '9'], ['%', '0', 'A'], ['%', '0', 'D']],
      ∀ sep ∈ ['\t', '\n', '\r'], sep ∉ cs := by simp
  rw [escapeChar.eq_def]
  split
  · exact referred _ (by decide) sep separates
  · exact referred _ (by decide) sep separates
  · exact referred _ (by decide) sep separates
  · exact referred _ (by decide) sep separates
  · rename_i tab feed carriage
    intro member
    obtain rfl := List.mem_singleton.mp member
    simp only [List.mem_cons, List.not_mem_nil, or_false] at separates
    obtain rfl | rfl | rfl := separates
    · exact tab rfl
    · exact feed rfl
    · exact carriage rfl

/-- An escaped field contains no tab and no end of a line. -/
theorem separator_notMem_escapeField {sep : Char} (separates : sep ∈ ['\t', '\n', '\r'])
    (field : String) : sep ∉ (escapeField field).toList := by
  rw [escapeField, String.toList_ofList, List.mem_flatMap]
  rintro ⟨c, -, member⟩
  exact separator_notMem_escapeChar separates c member

/-- The characters of a payload: escaped fields with tabs between them. -/
theorem toList_joinFields (fields : List String) :
    (joinFields fields).toList =
      ['\t'].intercalate (fields.map fun field => (escapeField field).toList) := by
  rw [joinFields, String.toList_intercalate, List.map_map]
  rfl

/-- A payload of fields is one line, whatever texts they are. -/
theorem lineFeed_notMem_joinFields (fields : List String) : '\n' ∉ (joinFields fields).toList := by
  rw [toList_joinFields]
  induction fields with
  | nil => exact List.not_mem_nil
  | cons field fields ih =>
      have first : '\n' ∉ (escapeField field).toList :=
        separator_notMem_escapeField (by decide) field
      cases fields with
      | nil => simpa using first
      | cons other fields =>
          simp only [List.map_cons, List.intercalate_cons_cons, List.mem_append, not_or] at ih ⊢
          exact ⟨⟨first, by decide⟩, ih⟩

/-- The fields of a payload are what it was written from. Only the empty list is not read back: its
payload has one empty field. -/
theorem splitFields_joinFields {fields : List String} (nonempty : fields ≠ []) :
    splitFields (joinFields fields) = fields := by
  have parts : (joinFields fields).toList.splitOn '\t' =
      fields.map fun field => (escapeField field).toList := by
    rw [toList_joinFields]
    refine List.splitOn_intercalate '\t' ?_ (by simpa using nonempty)
    intro l member
    obtain ⟨field, -, rfl⟩ := List.mem_map.mp member
    exact separator_notMem_escapeField (by decide) field
  rw [splitFields, parts, List.map_map]
  calc fields.map ((fun field => unescapeField (String.ofList field)) ∘
        fun field => (escapeField field).toList)
      = fields.map id := List.map_congr_left fun field _ => by simp
    _ = fields := List.map_id fields

/-- The fields that a line carries, if it is the line of a request. -/
def fieldsOfLine (line : String) : Except Error (List String) :=
  (Request.ofLine line).map fun r => splitFields r.payload

/-- The line of a request with some fields is read as this request with these fields. -/
structure CarriesFields (code : Nat) (seq : Int) (fields : List String) : Prop where
  read : ∃ payload, Request.ofLine (lineOf code seq (joinFields fields)) =
    .ok ⟨code, seq, payload⟩ ∧
    splitFields payload = fields
  /-- With another text in one field, whatever it imitates, this field has the other text, and there
  are the same fields around it. -/
  apart : ∀ (i : Nat) (text : String),
    fieldsOfLine (lineOf code seq (joinFields (fields.set i text))) = .ok (fields.set i text)

/-- Fields with any texts survive both layers of encoding in a line. -/
theorem fields_survive_both_layers {code : Nat} {seq : Int} {fields : List String}
    (small : code ≤ Text.maxUInt32) (fits : Text.IsInt64 seq) (nonempty : fields ≠ []) :
    CarriesFields code seq fields := by
  constructor
  · exact ⟨joinFields fields, ofLine_lineOf small fits, splitFields_joinFields nonempty⟩
  · intro i text
    have others : fields.set i text ≠ [] := by simpa using nonempty
    rw [fieldsOfLine, ofLine_lineOf small fits, Except.map, splitFields_joinFields others]

/-- The largest code, the smallest number, and fields that imitate escapes of both layers,
separators and the end of the line. -/
theorem imitations_survive_both_layers :
    let fields := ["%09", "", "a\tb%2509", "101\t1\t%\r\n", "\u00E9%C3%A9"]
    (4294967295 ≤ Text.maxUInt32 ∧ Text.IsInt64 (-9223372036854775808) ∧ fields ≠ []) ∧
      CarriesFields 4294967295 (-9223372036854775808) fields :=
  ⟨⟨by decide, by decide, by simp⟩, fields_survive_both_layers (by decide) (by decide) (by simp)⟩

end RemoteDebugger.Wire
