import RemoteDebugger.Proofs.Text.Ascii
import RemoteDebugger.Text.Numeral

/-!
# What is read as a number

The readers of numbers follow a grammar: digits, possibly behind a sign, whose value lies in their
range, and nothing else. The decimal numeral of a number consists of digits of which it is the
value, so every numeral in range is read as its number.
-/

namespace RemoteDebugger.Text

/-- The integers that fit into 64 bits. -/
def IsInt64 (i : Int) : Prop := -9223372036854775808 ≤ i ∧ i ≤ 9223372036854775807

instance (i : Int) : Decidable (IsInt64 i) := inferInstanceAs (Decidable (_ ∧ _))

/-- Some ASCII digits, and the number they write. -/
structure IsNumeral (cs : List Char) (n : Nat) : Prop where
  ne_nil : cs ≠ []
  digits : ∀ c ∈ cs, c.isDigit = true
  value : Nat.ofDigitChars 10 cs 0 = n

/-- A number up to a limit, with or without a plus sign. -/
inductive IsUnsigned (limit : Nat) : List Char → Nat → Prop
  | plain {cs : List Char} {n : Nat} (numeral : IsNumeral cs n) (small : n ≤ limit) :
      IsUnsigned limit cs n
  | plus {cs : List Char} {n : Nat} (numeral : IsNumeral cs n) (small : n ≤ limit) :
      IsUnsigned limit ('+' :: cs) n

/-- An integer of 64 bits, with or without a sign. -/
inductive IsSigned : List Char → Int → Prop
  | plain {cs : List Char} {n : Nat} (numeral : IsNumeral cs n) (fits : IsInt64 n) : IsSigned cs n
  | plus {cs : List Char} {n : Nat} (numeral : IsNumeral cs n) (fits : IsInt64 n) :
      IsSigned ('+' :: cs) n
  | minus {cs : List Char} {n : Nat} (numeral : IsNumeral cs n) (fits : IsInt64 (-n)) :
      IsSigned ('-' :: cs) (-n)

section

variable {cs : List Char} {n : Nat}

theorem digitsValue_eq (cs : List Char) : digitsValue cs = Nat.ofDigitChars 10 cs 0 := by
  have step : (fun (n : Nat) (c : Char) => n * 10 + digitValue c) =
      fun n c => 10 * n + (c.toNat - '0'.toNat) := by
    funext n c
    rw [Nat.mul_comm, digitValue]
    rfl
  rw [digitsValue, step, Nat.ofDigitChars_eq_foldl]

/-- Digits are read exactly if there are any and nothing else, with their value in decimal. -/
theorem digits?_eq_some_iff : digits? cs = some n ↔ IsNumeral cs n := by
  have digit (c : Char) : isDigit c = c.isDigit := rfl
  constructor
  · intro read
    rw [digits?] at read
    split at read
    · rename_i only
      simp only [Bool.and_eq_true, Bool.not_eq_true', List.isEmpty_eq_false_iff, List.all_eq_true,
        digit] at only
      refine ⟨only.1, only.2, ?_⟩
      rw [← digitsValue_eq]
      exact Option.some.inj read
    · cases read
  · rintro ⟨ne_nil, only, rfl⟩
    have nonempty : cs.isEmpty = false := List.isEmpty_eq_false_iff.mpr ne_nil
    have all : cs.all isDigit = true := List.all_eq_true.mpr only
    rw [digits?, nonempty, all, digitsValue_eq]
    rfl

/-- A numeral starts with a digit. -/
theorem IsNumeral.ne_sign {sign : Char} (h : IsNumeral cs n) (no_digit : sign.isDigit = false)
    (rest : List Char) : cs ≠ sign :: rest := by
  rintro rfl
  have digit := h.digits sign List.mem_cons_self
  rw [no_digit] at digit
  cases digit

/-- A number without a sign is read exactly if it is a numeral, perhaps after a plus sign, up to the
limit of its type. -/
theorem unsigned?_eq_some_iff {limit : Nat} :
    unsigned? limit cs = some n ↔ IsUnsigned limit cs n := by
  constructor
  · intro read
    unfold unsigned? at read
    obtain ⟨body, small⟩ := Option.filter_eq_some_iff.mp read
    have small : n ≤ limit := of_decide_eq_true small
    split at body
    · exact .plus (digits?_eq_some_iff.mp body) small
    · exact .plain (digits?_eq_some_iff.mp body) small
  · intro grammar
    unfold unsigned?
    cases grammar with
    | plain numeral small =>
        split
        · exact absurd rfl (numeral.ne_sign (by decide) _)
        · exact Option.filter_eq_some_iff.mpr
            ⟨digits?_eq_some_iff.mpr numeral, decide_eq_true small⟩
    | plus numeral small =>
        exact Option.filter_eq_some_iff.mpr
          ⟨digits?_eq_some_iff.mpr numeral, decide_eq_true small⟩

theorem within_iff {i : Int} :
    (-9223372036854775808 ≤ i && i ≤ 9223372036854775807) = true ↔ IsInt64 i := by
  simp [IsInt64]

/-- A number with a sign is read exactly if it is a numeral after at most one sign, within the
bounds of its type. The least one has no positive counterpart. -/
theorem signed?_eq_some_iff {i : Int} : signed? cs = some i ↔ IsSigned cs i := by
  constructor
  · intro read
    unfold signed? at read
    obtain ⟨body, within⟩ := Option.filter_eq_some_iff.mp read
    have fits : IsInt64 i := within_iff.mp within
    split at body
    · obtain ⟨n, numeral, rfl⟩ := Option.map_eq_some_iff.mp body
      exact .plus (digits?_eq_some_iff.mp numeral) fits
    · obtain ⟨n, numeral, rfl⟩ := Option.map_eq_some_iff.mp body
      exact .minus (digits?_eq_some_iff.mp numeral) fits
    · obtain ⟨n, numeral, rfl⟩ := Option.map_eq_some_iff.mp body
      exact .plain (digits?_eq_some_iff.mp numeral) fits
  · intro grammar
    unfold signed?
    cases grammar with
    | plain numeral fits =>
        refine Option.filter_eq_some_iff.mpr ⟨?_, within_iff.mpr fits⟩
        split
        · exact absurd rfl (numeral.ne_sign (by decide) _)
        · exact absurd rfl (numeral.ne_sign (by decide) _)
        · rw [digits?_eq_some_iff.mpr numeral]
          rfl
    | plus numeral fits =>
        refine Option.filter_eq_some_iff.mpr ⟨?_, within_iff.mpr fits⟩
        show (digits? _).map Int.ofNat = _
        rw [digits?_eq_some_iff.mpr numeral]
        rfl
    | minus numeral fits =>
        refine Option.filter_eq_some_iff.mpr ⟨?_, within_iff.mpr fits⟩
        show ((digits? _).map fun n => -Int.ofNat n) = _
        rw [digits?_eq_some_iff.mpr numeral]
        rfl

end

theorem isDigit_of_mem_toDigits {n : Nat} {c : Char} (member : c ∈ Nat.toDigits 10 n) :
    isDigit c = true :=
  Nat.isDigit_of_mem_toDigits (by decide) (by decide) member

theorem isPrintable_of_isDigit {c : Char} (digit : isDigit c = true) : IsPrintable c := by
  have bounds : '0'.toNat ≤ c.toNat ∧ c.toNat ≤ '9'.toNat := by
    simpa [isDigit, Char.le_def, UInt32.le_iff_toNat_le] using digit
  obtain ⟨low, high⟩ := bounds
  exact ⟨Nat.le_trans (by decide) low, Nat.lt_of_le_of_lt high (by decide)⟩

theorem isNumeral_toDigits (n : Nat) : IsNumeral (Nat.toDigits 10 n) n where
  ne_nil := Nat.toDigits_ne_nil
  digits _ member := isDigit_of_mem_toDigits member
  value := Nat.ofDigitChars_toDigits (by decide) (by decide)

theorem digits?_toDigits (n : Nat) : digits? (Nat.toDigits 10 n) = some n :=
  digits?_eq_some_iff.mpr (isNumeral_toDigits n)

theorem digits?_toString (n : Nat) : digits? (toString n).toList = some n := by
  have digits : (toString n).toList = Nat.toDigits 10 n := Nat.toList_repr
  rw [digits, digits?_toDigits]

theorem toDigits_injective {m n : Nat} (same : Nat.toDigits 10 m = Nat.toDigits 10 n) : m = n := by
  have read := digits?_toDigits m
  rw [same, digits?_toDigits] at read
  exact (Option.some.inj read).symm

/-- The characters of the numeral of an integer: a minus sign for a negative one, and digits. -/
theorem toList_toString_int (i : Int) : (toString i).toList =
    if i < 0 then '-' :: Nat.toDigits 10 i.natAbs else Nat.toDigits 10 i.natAbs := by
  cases i with
  | ofNat n =>
      rw [if_neg (by simp)]
      exact Nat.toList_repr
  | negSucc n =>
      rw [if_pos (Int.negSucc_lt_zero n), Int.natAbs_negSucc, ← Nat.toList_repr]
      show ("-" ++ (n + 1).repr).toList = _
      rw [String.toList_append]
      rfl

/-- Different integers have different numerals. -/
theorem toString_int_injective {i j : Int} (same : (toString i).toList = (toString j).toList) :
    i = j := by
  have no_sign (n : Nat) (cs : List Char) : Nat.toDigits 10 n ≠ '-' :: cs := fun signed =>
    absurd (isDigit_of_mem_toDigits (signed ▸ List.mem_cons_self)) (by decide)
  rw [toList_toString_int, toList_toString_int] at same
  split at same
  · split at same
    · have magnitude := toDigits_injective (List.cons.inj same).2
      omega
    · exact absurd same.symm (no_sign _ _)
  · split at same
    · exact absurd same (no_sign _ _)
    · have magnitude := toDigits_injective same
      omega

/-- The text of an integer consists of digits and perhaps a sign. -/
theorem isPrintable_of_mem_toString {i : Int} {c : Char} (member : c ∈ (toString i).toList) :
    IsPrintable c := by
  rw [toList_toString_int] at member
  split at member
  · obtain rfl | digit := List.mem_cons.mp member
    · exact ⟨by decide, by decide⟩
    · exact isPrintable_of_isDigit (isDigit_of_mem_toDigits digit)
  · exact isPrintable_of_isDigit (isDigit_of_mem_toDigits member)

/-- The numeral of a 64-bit integer writes this integer. -/
theorem isSigned_toString {i : Int} (fits : IsInt64 i) : IsSigned (toString i).toList i := by
  rw [toList_toString_int]
  split
  · have value : i = -(i.natAbs : Int) := by omega
    have signed : IsSigned ('-' :: Nat.toDigits 10 i.natAbs) (-(i.natAbs : Int)) :=
      .minus (isNumeral_toDigits i.natAbs) (value ▸ fits)
    rwa [← value] at signed
  · have value : i = (i.natAbs : Int) := by omega
    have signed : IsSigned (Nat.toDigits 10 i.natAbs) (i.natAbs : Int) :=
      .plain (isNumeral_toDigits i.natAbs) (value ▸ fits)
    rwa [← value] at signed

end RemoteDebugger.Text
