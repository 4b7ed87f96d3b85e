import Mathlib.Tactic.SplitIfs
import RemoteDebugger.Expression.Parser
import RemoteDebugger.Expression.Printer
import RemoteDebugger.Proofs.Text.Numeral
import RemoteDebugger.Proofs.Text.Reader

/-!
# Words, numbers and text literals are read back

The smallest parts of an expression, each with the text that follows it. A word ends before the
first character that no identifier contains, and a number before the first that is no digit, unless
this is a point in front of a digit; what is written after them never starts in such a way. A text
literal ends at its own quote, since every quote of this kind and every backslash inside it is
escaped.
-/

namespace RemoteDebugger

namespace Expr

/-- The words that are no names. -/
def keywords : List String := ["None", "True", "False", "and", "or", "not"]

/-- Neither a word nor a number goes on with the text. -/
structure Delimits (rest : List Char) : Prop where
  word : rest.takeWhile isIdentRest = []
  fraction : fractionDigits rest = none

theorem delimits_nil : Delimits [] := ⟨rfl, rfl⟩

/-- A character that continues no identifier and is no point delimits. -/
theorem delimits_cons {c : Char} (apart : isIdentRest c = false) (no_point : c ≠ '.')
    (cs : List Char) : Delimits (c :: cs) where
  word := by rw [List.takeWhile_cons, apart, if_neg Bool.false_ne_true]
  fraction := by
    rw [fractionDigits.eq_def]
    split
    · rename_i same
      exact absurd (List.cons.inj same).1 no_point
    · rfl

theorem isIdentRest_of_isDigit {c : Char} (h : Text.isDigit c = true) : isIdentRest c = true := by
  rw [isIdentRest, Bool.or_eq_true]
  exact .inr h

/-- Every character of an identifier may continue one. -/
theorem isIdentRest_of_mem {cs : List Char} (h : isIdent cs = true) :
    ∀ c ∈ cs, isIdentRest c = true := by
  cases cs with
  | nil => cases h
  | cons c cs =>
      rw [isIdent, Bool.and_eq_true, List.all_eq_true] at h
      intro d member
      rcases List.mem_cons.mp member with rfl | later
      · simp [isIdentRest, h.1]
      · exact h.2 d later

theorem between_iff {low high c : Char} :
    (low ≤ c && c ≤ high) = true ↔ low.toNat ≤ c.toNat ∧ c.toNat ≤ high.toNat := by
  simp [Char.le_def, UInt32.le_iff_toNat_le]

theorem toNat_of_isDigit {c : Char} (h : Text.isDigit c = true) : 48 ≤ c.toNat ∧ c.toNat ≤ 57 :=
  between_iff.mp h

/-- The characters that start an identifier are ASCII. The bounds are those of the letters and the
underscore between them. -/
theorem toNat_of_isIdentStart {c : Char} (h : isIdentStart c = true) :
    65 ≤ c.toNat ∧ c.toNat ≤ 122 := by
  simp only [isIdentStart, Bool.or_eq_true, between_iff, beq_iff_eq] at h
  rcases h with (lower | upper) | rfl
  · exact ⟨Nat.le_trans (by decide) lower.1, lower.2⟩
  · exact ⟨upper.1, Nat.le_trans upper.2 (by decide)⟩
  · decide

/-- A digit starts no identifier. -/
theorem isIdentStart_of_isDigit {c : Char} (h : Text.isDigit c = true) :
    isIdentStart c = false := by
  by_contra start
  have digit := toNat_of_isDigit h
  have letter := toNat_of_isIdentStart (Bool.not_eq_false _ ▸ start)
  omega

/-- No identifier and no number contains a blank or a minus sign. -/
theorem not_blank_of_isIdentRest {c : Char} (h : isIdentRest c = true) :
    Text.isBlank c = false ∧ c ≠ '-' := by
  have bounds : 48 ≤ c.toNat ∧ c.toNat ≤ 122 := by
    rw [isIdentRest, Bool.or_eq_true] at h
    rcases h with start | digit
    · have letter := toNat_of_isIdentStart start
      omega
    · have digit := toNat_of_isDigit digit
      omega
  constructor
  · simp only [Text.isBlank, Text.blankRanges, List.any_cons, List.any_nil, Bool.or_false,
      Bool.or_eq_false_iff, Bool.and_eq_false_iff, decide_eq_false_iff_not]
    omega
  · rintro rfl
    exact absurd bounds.1 (by decide)

/-- An attribute delimits: its point is followed by no digit. -/
theorem delimits_attr {id : List Char} (h : isIdent id = true) (rest : List Char) :
    Delimits ('.' :: (id ++ rest)) := by
  cases id with
  | nil => cases h
  | cons c cs =>
      have start : isIdentStart c = true := by
        rw [isIdent, Bool.and_eq_true] at h
        exact h.1
      have no_digit : Text.isDigit c = false := by
        by_contra digit
        rw [isIdentStart_of_isDigit (Bool.not_eq_false _ ▸ digit)] at start
        cases start
      exact ⟨rfl, by simp [fractionDigits, no_digit]⟩

section

variable {rest : List Char}

/-- An identifier is read as far as it goes, and what follows is left. -/
theorem ident_append {cs : List Char} (h : isIdent cs = true)
    (apart : rest.takeWhile isIdentRest = []) :
    ident (cs ++ rest) = some (String.ofList cs, rest) := by
  cases cs with
  | nil => cases h
  | cons c cs =>
      rw [isIdent, Bool.and_eq_true, List.all_eq_true] at h
      have others : rest.dropWhile isIdentRest = rest := by
        have split := List.takeWhile_append_dropWhile (p := isIdentRest) (l := rest)
        rwa [apart, List.nil_append] at split
      rw [List.cons_append, ident, if_pos h.1, List.takeWhile_append_of_pos h.2,
        List.dropWhile_append_of_pos h.2, apart, others, List.append_nil]

theorem ident_of_not_start {c : Char} (h : isIdentStart c = false) (cs : List Char) :
    ident (c :: cs) = none := by
  simp [ident, h]

theorem keyword_of_not_start {c : Char} (h : isIdentStart c = false)
    (blank : Text.isBlank c = false)
    (id : String) (cs : List Char) : keyword id (c :: cs) = none := by
  rw [keyword, Reader.padded, Text.skipBlank_cons blank, ident_of_not_start h]
  rfl

/-- A word is not taken for another one. -/
theorem keyword_of_ne {id other : String} (h : isIdent id.toList = true) (ne : id ≠ other)
    (apart : rest.takeWhile isIdentRest = []) : keyword other (id.toList ++ rest) = none := by
  have no_blank : Text.skipBlank (id.toList ++ rest) = id.toList ++ rest := by
    cases letters : id.toList with
    | nil => simp [letters, isIdent] at h
    | cons c cs =>
        rw [letters, isIdent, Bool.and_eq_true] at h
        have first : isIdentRest c = true := by simp [isIdentRest, h.1]
        exact Text.skipBlank_cons (not_blank_of_isIdentRest first).1 _
  rw [keyword, Reader.padded, no_blank, ident_append h apart, String.ofList_toList]
  simp [ne]

theorem word_of_not_start {c : Char} (h : isIdentStart c = false) (cs : List Char) :
    word (c :: cs) = none := by
  rw [word, ident_of_not_start h]
  rfl

/-- A word that is no keyword is read as a name. -/
theorem word_name {id : String} (h : isIdent id.toList = true) (free : id ∉ keywords)
    (apart : Delimits rest) : word (id.toList ++ rest) = some (.name id, rest) := by
  rw [word, ident_append h apart.word, Option.bind_some, String.ofList_toList]
  simp only [keywords, List.mem_cons, List.not_mem_nil, or_false, not_or] at free
  dsimp only
  split
  all_goals simp_all

@[simp] theorem word_none (apart : Delimits rest) :
    word ("None".toList ++ rest) = some (.literal .null, rest) := by
  rw [word, ident_append (by decide) apart.word]
  rfl

@[simp] theorem word_bool (b : Bool) (apart : Delimits rest) :
    word ((if b then "True" else "False").toList ++ rest) = some (.literal (.bool b), rest) := by
  cases b <;> (rw [word, ident_append (by decide) apart.word]; rfl)

/-- A number starts with a digit. A sign is no part of it. -/
theorem number_of_not_digit {c : Char} (h : Text.isDigit c = false) (cs : List Char) :
    number (c :: cs) = none := by
  have no_zero : (c == '0') = false := by
    rw [beq_eq_false_iff_ne]
    rintro rfl
    cases h
  simp [number, wholeDigits, no_zero, h]

/-- The numeral of a positive number does not start with zero. -/
theorem toDigits_eq_cons {n : Nat} (pos : 0 < n) :
    ∃ c cs, Nat.toDigits 10 n = c :: cs ∧ c ≠ '0' := by
  have digit : ∀ m < 10, 0 < m → m.digitChar ≠ '0' := by decide
  induction n using Nat.strongRecOn with
  | ind n ih =>
      rw [Nat.toDigits_eq_if (by decide)]
      split
      · rename_i small
        exact ⟨n.digitChar, [], rfl, digit n small pos⟩
      · rename_i large
        obtain ⟨c, cs, digits, first⟩ := ih (n / 10) (by omega) (by omega)
        exact ⟨c, cs ++ [(n % 10).digitChar], by rw [digits, List.cons_append], first⟩

/-- The numeral of a number is read as a whole, and there is no further digit to take. -/
@[simp] theorem wholeDigits_toDigits (n : Nat) (apart : Delimits rest) :
    wholeDigits (Nat.toDigits 10 n ++ rest) = some (Nat.toDigits 10 n, rest) := by
  rcases Nat.eq_zero_or_pos n with rfl | pos
  · rfl
  · obtain ⟨c, cs, digits, first⟩ := toDigits_eq_cons pos
    have all : ∀ d ∈ c :: cs, Text.isDigit d = true := fun d member =>
      Text.isDigit_of_mem_toDigits (digits ▸ member)
    have no_digits : rest.takeWhile Text.isDigit = [] := by
      cases rest with
      | nil => rfl
      | cons d ds =>
          have no_word := apart.word
          rw [List.takeWhile_cons] at no_word ⊢
          split
          · rename_i digit
            simp [isIdentRest_of_isDigit digit] at no_word
          · rfl
    have others : rest.dropWhile Text.isDigit = rest := by
      have split := List.takeWhile_append_dropWhile (p := Text.isDigit) (l := rest)
      rwa [no_digits, List.nil_append] at split
    have later := fun d member => all d (List.mem_cons_of_mem c member)
    have no_zero : (c == '0') = false := beq_eq_false_iff_ne.mpr first
    simp [digits, wholeDigits, no_zero, all c List.mem_cons_self,
      List.takeWhile_append_of_pos later, List.dropWhile_append_of_pos later, no_digits, others]

/-- A number is read back from its numeral, if it fits into 64 bits. -/
theorem number_toDigits {n : Nat} (fits : n ≤ 9223372036854775807) (apart : Delimits rest) :
    number (Nat.toDigits 10 n ++ rest) = some (.int (Int64.ofNat n), rest) := by
  have value : Text.digitsValue (Nat.toDigits 10 n) = n := by
    rw [Text.digitsValue_eq]
    exact Nat.ofDigitChars_toDigits (by decide) (by decide)
  simp [number, wholeDigits_toDigits n apart, apart.fraction, value, fits]

theorem textLiteral_of_not_quote {c : Char} (single : c ≠ '\'') (double : c ≠ '"')
    (cs : List Char) : textLiteral (c :: cs) = none := by
  simp [textLiteral, single, double]

/-- The characters of texts that can be written: the only control characters are LF, CR and TAB. -/
def IsLiteralChar (c : Char) : Prop := Text.isControl c = true → c = '\n' ∨ c = '\r' ∨ c = '\t'

instance (c : Char) : Decidable (IsLiteralChar c) := inferInstanceAs (Decidable (_ → _))

/-- A character of a literal stands for itself, or an escape stands for it. -/
theorem literalChar_cases {quote c : Char} (h : IsLiteralChar c)
    (letter : escaped? quote = some quote) :
    (Value.literalChar quote c = [c] ∧ c ≠ '\\' ∧ c ≠ quote) ∨
      ∃ e, Value.literalChar quote c = ['\\', e] ∧ escaped? e = some c := by
  simp only [Value.literalChar, beq_iff_eq]
  split_ifs with backslash feed return_ tab quoted control
  · exact .inr ⟨'\\', rfl, backslash.symm ▸ rfl⟩
  · exact .inr ⟨'n', rfl, feed.symm ▸ rfl⟩
  · exact .inr ⟨'r', rfl, return_.symm ▸ rfl⟩
  · exact .inr ⟨'t', rfl, tab.symm ▸ rfl⟩
  · exact .inr ⟨c, rfl, quoted.symm ▸ letter⟩
  · rcases h control with same | same | same
    · exact absurd same feed
    · exact absurd same return_
    · exact absurd same tab
  · exact .inl ⟨rfl, backslash, quoted⟩

/-- A character that is neither a backslash nor the quote stands for itself. -/
theorem literalRest_plain {quote c : Char} (no_backslash : c ≠ '\\') (no_quote : c ≠ quote)
    (cs : List Char) :
    literalRest quote (c :: cs) = (literalRest quote cs).map fun r => (c :: r.1, r.2) := by
  rw [literalRest.eq_def]
  split
  · contradiction
  · rename_i same
    exact absurd (List.cons.inj same).1 no_backslash
  · rename_i same
    obtain ⟨rfl, rfl⟩ := List.cons.inj same
    simp [no_backslash, no_quote]

/-- The quote ends the literal, and what follows is left. -/
theorem literalRest_end {quote : Char} (no_backslash : quote ≠ '\\') (cs : List Char) :
    literalRest quote (quote :: cs) = some ([], cs) := by
  rw [literalRest.eq_def]
  split
  · contradiction
  · rename_i same
    exact absurd (List.cons.inj same).1 no_backslash
  · rename_i same
    obtain ⟨rfl, rfl⟩ := List.cons.inj same
    simp

theorem literalRest_escape {quote c e : Char} (h : escaped? e = some c) (cs : List Char) :
    literalRest quote ('\\' :: e :: cs) = (literalRest quote cs).map fun r => (c :: r.1, r.2) := by
  rw [literalRest, h]

/-- The characters of a text are read back from what is written for each, up to the closing
quote. -/
theorem literalRest_flatMap {quote : Char} (letter : escaped? quote = some quote)
    (no_backslash : quote ≠ '\\') {cs : List Char} (h : ∀ c ∈ cs, IsLiteralChar c)
    (rest : List Char) :
    literalRest quote (cs.flatMap (Value.literalChar quote) ++ quote :: rest) =
      some (cs, rest) := by
  induction cs with
  | nil => exact literalRest_end no_backslash rest
  | cons c cs ih =>
      have others := ih fun d member => h d (List.mem_cons_of_mem c member)
      rw [List.flatMap_cons, List.append_assoc]
      rcases literalChar_cases (h c List.mem_cons_self) letter with
        ⟨written, plain, other⟩ | ⟨e, written, escape⟩
      · rw [written, List.singleton_append, literalRest_plain plain other, others]
        rfl
      · rw [written, List.cons_append, List.singleton_append, literalRest_escape escape, others]
        rfl

theorem quoteFor_cases (cs : List Char) : Value.quoteFor cs = '\'' ∨ Value.quoteFor cs = '"' := by
  rw [Value.quoteFor]
  split
  · exact .inr rfl
  · exact .inl rfl

/-- A text is read back from its literal, whatever follows. -/
theorem textLiteral_append {cs : List Char} (h : ∀ c ∈ cs, IsLiteralChar c) (rest : List Char) :
    textLiteral (Value.textLiteral cs ++ rest) = some (.str (String.ofList cs), rest) := by
  have read {quote : Char} (same : Value.quoteFor cs = quote) (letter : escaped? quote = some quote)
      (no_backslash : quote ≠ '\\') (is_quote : (quote == '\'' || quote == '"') = true) :
      textLiteral (Value.textLiteral cs ++ rest) = some (.str (String.ofList cs), rest) := by
    rw [Value.textLiteral, same, List.cons_append, List.append_assoc, List.singleton_append,
      textLiteral, if_pos is_quote, literalRest_flatMap letter no_backslash h]
    rfl
  rcases quoteFor_cases cs with single | double
  · exact read single rfl (by decide) rfl
  · exact read double rfl (by decide) rfl

end

end Expr

end RemoteDebugger
