import Mathlib
import RemoteDebugger.Proofs.Decimal.Rounding

/-!
# Comparing the floating point numbers of integers

Floating point numbers are compared by their exponents first and then by their mantissas, which is
the order of their values as long as all mantissas have the same number of bits. The number of an
integer is brought into this form by a shift that keeps what it drops as a round bit and a sticky
bit, then rounded, and then shifted once more if rounding took it to a power of two. So it stands
for the rounded integer.
-/

namespace RemoteDebugger.Decimal

open Float.Model Float.Model.UnpackedFloat

/-- The two bits that a shift keeps tell whether what it drops is less than one half, and whether it
is anything but nothing or one half. -/
theorem shiftRight_eq (n k : Nat) :
    (⟨n, false, false⟩ : ExtendedMantissa) >>> k =
      ⟨n / 2 ^ k, decide (2 ^ k ≤ 2 * (n % 2 ^ k)),
        decide (2 * (n % 2 ^ k) ≠ 0 ∧ 2 * (n % 2 ^ k) ≠ 2 ^ k)⟩ := by
  induction k with
  | zero => simp [HShiftRight.hShiftRight, Nat.repeat, Nat.mod_one]
  | succ k ih =>
      have step : (⟨n, false, false⟩ : ExtendedMantissa) >>> (k + 1) =
          ((⟨n, false, false⟩ : ExtendedMantissa) >>> k).shiftRightOne := rfl
      have half : n / 2 ^ k / 2 = n / 2 ^ (k + 1) := by rw [Nat.div_div_eq_div_mul, Nat.pow_succ]
      have rest : n % 2 ^ (k + 1) = n % 2 ^ k + 2 ^ k * (n / 2 ^ k % 2) := by
        rw [Nat.pow_succ, Nat.mod_mul]
      have small := Nat.mod_lt n (Nat.two_pow_pos k)
      have bit : n / 2 ^ k % 2 = 0 ∨ n / 2 ^ k % 2 = 1 := Nat.mod_two_eq_zero_or_one _
      rw [step, ih, ExtendedMantissa.shiftRightOne]
      dsimp only
      rw [half, rest, Nat.pow_succ, ← Bool.decide_or]
      generalize n / 2 ^ k % 2 = b at bit ⊢
      generalize n % 2 ^ k = r at small ⊢
      generalize 2 ^ k = p at small ⊢
      have round : (b != 0) = decide (p * 2 ≤ 2 * (r + p * b)) := by
        rcases bit with rfl | rfl
        · exact (decide_eq_false (by omega)).symm
        · exact (decide_eq_true (by omega)).symm
      have sticky : (p ≤ 2 * r ∨ 2 * r ≠ 0 ∧ 2 * r ≠ p) ↔
          2 * (r + p * b) ≠ 0 ∧ 2 * (r + p * b) ≠ p * 2 := by
        rcases bit with rfl | rfl <;> omega
      rw [round, decide_eq_decide.mpr sticky]

/-- Shifting a mantissa and rounding it is rounding the shifted number, with ties to the even
one. -/
theorem roundedMantissa_shiftRight (n k : Nat) :
    ((⟨n, false, false⟩ : ExtendedMantissa) >>> k).roundedMantissa = roundedShift n k := by
  have pos := Nat.two_pow_pos k
  rw [shiftRight_eq, ExtendedMantissa.roundedMantissa, roundedShift]
  by_cases below : 2 * (n % 2 ^ k) < 2 ^ k
  · rw [if_pos below, decide_eq_false (Nat.not_le.mpr below)]
    cases decide (2 * (n % 2 ^ k) ≠ 0 ∧ 2 * (n % 2 ^ k) ≠ 2 ^ k) <;> rfl
  · rw [if_neg below, decide_eq_true (Nat.not_lt.mp below)]
    by_cases middle : 2 * (n % 2 ^ k) = 2 ^ k
    · rw [if_pos middle, decide_eq_false (fun h => h.2 middle)]
      rfl
    · rw [if_neg middle, decide_eq_true ⟨by omega, middle⟩]
      rfl

/-- A mantissa of 53 bits with an exponent that the format has for it. -/
structure IsNormal (m : Nat) (e : Int) : Prop where
  least : 2 ^ 52 ≤ m
  most : m < 2 ^ 53
  low : -1074 ≤ e
  high : e ≤ 971

section

variable {s : Sign} {m : Nat} {e : Int}

theorem IsNormal.log2 (h : IsNormal m e) : m.log2 = 52 :=
  (Nat.log2_eq_iff (by have := h.least; omega)).mpr ⟨h.least, h.most⟩

theorem IsNormal.pos (h : IsNormal m e) : 0 < m := Nat.lt_of_lt_of_le (by decide) h.least

/-- A mantissa of 53 bits stays where it is. -/
theorem shiftToTargetExponent_of_lt (short : m < 2 ^ 53) (low : -1074 ≤ e) :
    shiftToTargetExponent Format.binary64 m e .exact = (⟨m, false, false⟩, e) := by
  have digits : m.log2 ≤ 52 := by
    rcases Nat.eq_zero_or_pos m with rfl | pos
    · decide
    · have := (Nat.log2_lt (Nat.ne_of_gt pos)).mpr short
      omega
  have unshifted : (Format.binary64.targetExponent (totalExponent m e) - e).toNat = 0 := by
    simp only [Format.targetExponent, totalExponent, Format.mantissaBits, Format.minExponent]
    omega
  rw [shiftToTargetExponent, shiftToExponent, unshifted, Int.natCast_zero, Int.add_zero]
  rfl

/-- One more bit is shifted out. -/
theorem shiftToTargetExponent_pow (low : -1074 ≤ e) :
    shiftToTargetExponent Format.binary64 (2 ^ 53) e .exact = (⟨2 ^ 52, false, false⟩, e + 1) := by
  have shifted : (Format.binary64.targetExponent (totalExponent (2 ^ 53) e) - e).toNat = 1 := by
    simp only [Format.targetExponent, totalExponent, Format.mantissaBits, Format.minExponent,
      Nat.log2_two_pow]
    omega
  rw [shiftToTargetExponent, shiftToExponent, shifted]
  rfl

/-- The number is normal and has a sign and the value `r * 2 ^ scale`. -/
def HasValue (u : UnpackedFloat) (s : Sign) (r : Nat) (scale : Int) : Prop :=
  ∃ m e pos, u = .finite s m e pos ∧ IsNormal m e ∧ scale ≤ e ∧ m * 2 ^ (e - scale).toNat = r

variable {u : UnpackedFloat} {r : Nat} {scale : Int}

theorem IsNormal.hasValue (h : IsNormal m e) (s : Sign) : HasValue (.finite s m e h.pos) s m e :=
  ⟨m, e, h.pos, rfl, h, Int.le_refl _, by simp⟩

/-- The same value on a finer scale. -/
theorem HasValue.rescale (h : HasValue u s r scale) {finer : Int} {k : Nat}
    (le : finer + k = scale) :
    HasValue u s (r * 2 ^ k) finer := by
  obtain ⟨m, e, pos, rfl, normal, least, rfl⟩ := h
  have shift : (e - finer).toNat = (e - scale).toNat + k := by omega
  exact ⟨m, e, pos, rfl, normal, by omega, by rw [shift, Nat.pow_add, Nat.mul_assoc]⟩

/-- A long mantissa is cut to 53 bits. -/
theorem shiftToTargetExponent_of_long {n : Nat} (long : 52 ≤ n.log2) (low : -1074 ≤ e + excess n) :
    shiftToTargetExponent Format.binary64 n e .exact =
      ((⟨n, false, false⟩ : ExtendedMantissa) >>> excess n, e + excess n) := by
  have target : (Format.binary64.targetExponent (totalExponent n e) - e).toNat = excess n := by
    simp only [Format.targetExponent, totalExponent, Format.mantissaBits, Format.minExponent,
      excess] at low ⊢
    omega
  rw [shiftToTargetExponent, shiftToExponent, target]
  rfl

/-- A long mantissa is rounded to 53 bits, unless the rounding takes it beyond them. -/
theorem hasValue_round_of_lt (s : Sign) {n : Nat} (long : 52 ≤ n.log2) (low : -1074 ≤ e + excess n)
    (high : e + excess n ≤ 971) (short : roundedShift n (excess n) < 2 ^ 53) :
    HasValue (roundWithAccuracy Format.binary64 s n e .exact) s (roundedShift n (excess n))
      (e + excess n) := by
  have normal : IsNormal (roundedShift n (excess n)) (e + excess n) :=
    ⟨le_roundedShift_excess long, short, low, high⟩
  rw [roundWithAccuracy, shiftToTargetExponent_of_long long low]
  dsimp only
  rw [roundedMantissa_shiftRight, shiftToTargetExponent_of_lt short low]
  dsimp only
  rw [dif_neg (Nat.ne_of_gt normal.pos)]
  exact normal.hasValue s

/-- A mantissa that is rounded to the next power of two takes one more step. -/
theorem hasValue_round (s : Sign) {n : Nat} (long : 52 ≤ n.log2) (low : -1074 ≤ e + excess n)
    (high : e + excess n < 971) :
    HasValue (roundWithAccuracy Format.binary64 s n e .exact) s (roundedShift n (excess n))
      (e + excess n) := by
  rcases Nat.lt_or_eq_of_le (roundedShift_excess_le n) with short | carry
  · exact hasValue_round_of_lt s long low (Int.le_of_lt high) short
  · have normal : IsNormal (2 ^ 52) (e + excess n + 1) :=
      ⟨Nat.le_refl _, by decide, by omega, by omega⟩
    have next : (e + excess n) + (1 : Nat) = e + excess n + 1 := rfl
    have value := (normal.hasValue s).rescale next
    rw [roundWithAccuracy, shiftToTargetExponent_of_long long low]
    dsimp only
    rw [roundedMantissa_shiftRight, carry, shiftToTargetExponent_pow low]
    exact value

/-- A natural number is rounded to the nearest one, however far its mantissa has been shifted
before. -/
theorem hasValue_round_nat (s : Sign) {n j : Nat} (pos : 0 < n) (small : n < 2 ^ 64)
    (long : 52 ≤ n.log2 + j) :
    HasValue (roundWithAccuracy Format.binary64 s (n * 2 ^ j) (-j) .exact) s (nearestNat n * 2 ^ 52)
      (-52) := by
  have digits := log2_mul_two_pow pos j
  have bits : n.log2 < 64 := (Nat.log2_lt (Nat.ne_of_gt pos)).mpr small
  have scale : -(j : Int) + excess (n * 2 ^ j) = n.log2 - 52 := by
    rw [excess, digits]
    omega
  have rounded := hasValue_round s (n := n * 2 ^ j) (e := -j) (digits ▸ long)
    (by rw [scale]; omega) (by rw [scale]; omega)
  rw [scale] at rounded
  rw [← roundedShift_shifted pos long]
  exact rounded.rescale (by omega)

/-- Multiplying by one changes nothing. -/
theorem HasValue.mul_one (h : HasValue u .positive r scale) :
    HasValue (UnpackedFloat.mul Format.binary64 u (.finite .positive (2 ^ 52) (-52) (by decide)))
      .positive r scale := by
  obtain ⟨m, e, pos, rfl, normal, least, rfl⟩ := h
  have digits : (m * 2 ^ 52).log2 = 104 := by rw [log2_mul_two_pow normal.pos, normal.log2]
  have shift : excess (m * 2 ^ 52) = 52 := by rw [excess, digits]
  have same : e + -52 + ((52 : Nat) : Int) = e := by omega
  have rounded := hasValue_round_of_lt .positive (n := m * 2 ^ 52) (e := e + -52) (by omega)
    (by rw [shift, same]; exact normal.low) (by rw [shift, same]; exact normal.high)
    (by rw [shift, roundedShift_mul]; exact normal.most)
  rw [shift, roundedShift_mul, same] at rounded
  exact rounded.rescale (by omega)

/-- The bit of a mantissa that is not stored is put back. -/
theorem toNat_one_append (h : IsNormal m e) : (1#1 ++ BitVec.ofNat 52 m).toNat = m := by
  have least := h.least
  have most := h.most
  have stored : (BitVec.ofNat 52 m).toNat = m - 2 ^ 52 := by
    rw [BitVec.toNat_ofNat]
    omega
  have one : (1#1).toNat = 1 := rfl
  rw [BitVec.toNat_append, ← Nat.shiftLeft_add_eq_or_of_lt (BitVec.ofNat 52 m).isLt, stored, one,
    Nat.shiftLeft_eq]
  omega

/-- A normal number is read back from its bits. -/
theorem unpack_pack (h : IsNormal m e) (s : Sign) :
    (Float.Model.pack (.finite s m e h.pos)).unpack = .finite s m e h.pos := by
  have low := h.low
  have high := h.high
  let biased : Nat := (e + 1075).toNat
  have bits : (BitVec.ofNat 11 biased).toNat = biased := by
    rw [BitVec.toNat_ofNat]
    exact Nat.mod_eq_of_lt (by omega)
  have nonzero : BitVec.ofNat 11 biased ≠ 0#11 := by
    intro same
    have := congrArg BitVec.toNat same
    rw [bits] at this
    change biased = 0 at this
    omega
  have finite : BitVec.ofNat 11 biased ≠ -1#11 := by
    intro same
    have := congrArg BitVec.toNat same
    rw [bits] at this
    change biased = 2047 at this
    omega
  have packed : UnpackedFloat.pack Format.binary64 (.finite s m e h.pos) =
      packComponents Format.binary64 s (BitVec.ofNat 11 biased) (BitVec.ofNat 52 m) := by
    have exponent : (e + ↑(Format.exponentBias Format.binary64) +
        ↑Format.binary64.mantissaBitsWithoutImplicit).toNat = biased := by
      change (e + 1023 + 52).toNat = (e + 1075).toNat
      omega
    rw [UnpackedFloat.pack]
    simp only [exponent]
    rw [if_neg (show ¬ 2 ^ 11 ≤ biased + 1 by omega), if_pos (by rw [h.log2]; rfl)]
  rw [Float.Model.unpack, Float.Model.pack]
  dsimp only
  rw [packed, UnpackedFloat.unpack]
  simp only [unpackMantissa_packComponents, unpackExponent_packComponents,
    unpackSign_packComponents, Sign.ofBitVec_toBitVec, bits]
  rw [if_neg finite, if_neg nonzero]
  congr 1
  · exact toNat_one_append h
  · change (biased : Int) - (1023 + 52) = e
    omega

theorem HasValue.unpack_pack (h : HasValue u s r scale) :
    HasValue (Float.Model.pack u).unpack s r scale := by
  obtain ⟨m, e, pos, rfl, normal, least, value⟩ := h
  exact ⟨m, e, pos, Decimal.unpack_pack normal s, normal, least, value⟩

theorem HasValue.neg (h : HasValue u s r scale) : HasValue (UnpackedFloat.neg u) (-s) r scale := by
  obtain ⟨m, e, pos, rfl, normal, least, value⟩ := h
  exact ⟨m, e, pos, rfl, normal, least, value⟩

/-- A short number is converted directly. -/
theorem hasValue_toFloat {n : Nat} (pos : 0 < n) (short : n < 2 ^ 53) :
    HasValue (UInt64.toFloat n.toUInt64).toModel.unpack .positive (nearestNat n * 2 ^ 52)
      (-52) := by
  have digits : n.log2 < 53 := (Nat.log2_lt (Nat.ne_of_gt pos)).mpr short
  have value : n.toUInt64.toNat = n := by
    rw [Nat.toUInt64, UInt64.toNat_ofNat']
    exact Nat.mod_eq_of_lt (by omega)
  have target : ((0 : Int) - Format.binary64.targetExponent (totalExponent n 0)).toNat =
      52 - n.log2 := by
    simp only [Format.targetExponent, totalExponent, Format.mantissaBits, Format.minExponent]
    omega
  have rounded : UnpackedFloat.ofUInt64 Format.binary64 n.toUInt64 =
      roundWithAccuracy Format.binary64 .positive (n * 2 ^ (52 - n.log2))
        (-((52 - n.log2 : Nat) : Int))
        .exact := by
    have sign : compare (n : Int) 0 = .gt := Int.compare_eq_gt.mpr (by omega)
    rw [UnpackedFloat.ofUInt64, UnpackedFloat.ofNat, UnpackedFloat.ofInt, value,
      UnpackedFloat.normalize, sign]
    dsimp only
    rw [UnpackedFloat.round, decreaseExponent]
    dsimp only
    rw [Int.toNat_natCast, target, Nat.shiftLeft_eq, Int.zero_sub]
  have converted := hasValue_round_nat .positive pos (by omega) (j := 52 - n.log2) (by omega)
  rw [← rounded] at converted
  exact converted.unpack_pack

/-- A natural number of 64 bits is converted to the nearest floating point number. -/
theorem hasValue_ofNat {n : Nat} (pos : 0 < n) (small : n < 2 ^ 64) :
    HasValue (Float.ofNat n).toModel.unpack .positive (nearestNat n * 2 ^ 52) (-52) := by
  rcases Nat.lt_or_ge n (2 ^ 53) with short | large
  · have direct : Float.ofNat n =
        UInt64.toFloat n.toUInt64 * getElem Float.exactlyRepresentablePowersOfTen 0 (by decide) :=
      dif_pos ⟨short, by decide⟩
    rw [direct]
    exact (hasValue_toFloat pos short).mul_one.unpack_pack
  · have scientific : Float.ofNat n = ⟨Float.Model.ofScientific n 0⟩ :=
      dif_neg fun short => absurd short.1 (Nat.not_lt.mpr large)
    have product : UnpackedFloat.ofScientific Format.binary64 n 0 =
        roundWithAccuracy Format.binary64 .positive (n * 2 ^ 53) (-(53 : Nat)) .exact := by
      have not_tiny : ¬ (0 : Int) < -(2 ^ Format.binary64.exponentBits + (n.log2 : Int)) := by
        have power : (2 : Int) ^ Format.binary64.exponentBits = 2048 := by decide
        omega
      rw [UnpackedFloat.ofScientific, dif_neg (Nat.ne_of_gt pos), if_neg (by decide),
        if_neg not_tiny, if_pos (Int.le_refl 0), UnpackedFloat.mul]
      have mantissa : n <<< Format.binary64.mantissaBits * 10 ^ (0 : Int).toNat = n * 2 ^ 53 := by
        change n <<< 53 * 10 ^ 0 = n * 2 ^ 53
        rw [Nat.shiftLeft_eq, Nat.pow_zero, Nat.mul_one]
      rw [mantissa]
      rfl
    have converted := hasValue_round_nat .positive pos small (j := 53) (by omega)
    rw [← product] at converted
    rw [scientific]
    exact converted.unpack_pack

end

/-- Normal numbers of one sign are ordered by their exponents first. -/
theorem compare_normal {m m' : Nat} {e e' scale : Int} (h : IsNormal m e) (h' : IsNormal m' e')
    (least : scale ≤ e) (least' : scale ≤ e') :
    (compare e e').then (compare m m') =
      compare (m * 2 ^ (e - scale).toNat) (m' * 2 ^ (e' - scale).toNat) := by
  have smaller {m m' : Nat} {e e' : Int} (h : IsNormal m e) (h' : IsNormal m' e')
      (least : scale ≤ e)
      (lt : e < e') : m * 2 ^ (e - scale).toNat < m' * 2 ^ (e' - scale).toNat := by
    have next : (e - scale).toNat + 1 ≤ (e' - scale).toNat := by omega
    calc m * 2 ^ (e - scale).toNat < 2 ^ 53 * 2 ^ (e - scale).toNat :=
          Nat.mul_lt_mul_of_pos_right h.most (Nat.two_pow_pos _)
      _ = 2 ^ 52 * 2 ^ ((e - scale).toNat + 1) := by
        rw [← Nat.pow_add, ← Nat.pow_add]; congr 1; omega
      _ ≤ m' * 2 ^ (e' - scale).toNat :=
          Nat.mul_le_mul h'.least (Nat.pow_le_pow_right (by decide) next)
  rcases Int.lt_trichotomy e e' with lt | rfl | gt
  · rw [Int.compare_eq_lt.mpr lt, Nat.compare_eq_lt.mpr (smaller h h' least lt)]
    rfl
  · have pos := Nat.two_pow_pos (e - scale).toNat
    rw [Int.compare_eq_eq.mpr rfl]
    rcases Nat.lt_trichotomy m m' with lt | rfl | gt
    · rw [Nat.compare_eq_lt.mpr lt, Nat.compare_eq_lt.mpr (Nat.mul_lt_mul_of_pos_right lt pos)]
      rfl
    · rw [Nat.compare_eq_eq.mpr rfl, Nat.compare_eq_eq.mpr rfl]
      rfl
    · rw [Nat.compare_eq_gt.mpr gt, Nat.compare_eq_gt.mpr (Nat.mul_lt_mul_of_pos_right gt pos)]
      rfl
  · rw [Int.compare_eq_gt.mpr gt, Nat.compare_eq_gt.mpr (smaller h' h least' gt)]
    rfl

/-- A floating point number has the value of an integer. Nothing is said of whether it is the
nearest to another one. -/
inductive StandsFor (x : Float) : Int → Prop
  | zero {s : Sign} (h : x.toModel.unpack = .zero s) : StandsFor x 0
  | positive {n : Nat} (h : HasValue x.toModel.unpack .positive (n * 2 ^ 52) (-52)) : StandsFor x n
  | negative {n : Nat} (h : HasValue x.toModel.unpack .negative (n * 2 ^ 52) (-52)) :
      StandsFor x (-n)

/-- The number of an integer of the 64-bit range stands for the nearest one with 53 bits. -/
theorem standsFor_ofInt {x : Int} (small : x.natAbs < 2 ^ 64) :
    StandsFor (Float.ofInt x) (nearest x) := by
  cases x with
  | ofNat n =>
      cases n with
      | zero => exact .zero (s := .positive) rfl
      | succ n =>
          have value : nearest (Int.ofNat (n + 1)) = nearestNat (n + 1) := Int.one_mul _
          rw [value]
          exact .positive (hasValue_ofNat (Nat.succ_pos n) small)
  | negSucc n =>
      have value : nearest (Int.negSucc n) = -(nearestNat (n + 1) : Int) := by
        rw [nearest]
        exact Int.neg_one_mul _
      rw [value]
      exact .negative (hasValue_ofNat (Nat.succ_pos n) small).neg.unpack_pack

/-- What has the value of an integer is finite, and the integer is not zero. -/
theorem HasValue.finite {u : UnpackedFloat} {s : Sign} {n : Nat} {scale : Int}
    (h : HasValue u s (n * 2 ^ 52) scale) : 0 < n ∧ ∃ m e pos, u = .finite s m e pos := by
  obtain ⟨m, e, pos, rfl, normal, least, value⟩ := h
  have positive := Nat.mul_pos pos (Nat.two_pow_pos (e - scale).toNat)
  rw [value] at positive
  exact ⟨Nat.pos_of_mul_pos_right positive, m, e, pos, rfl⟩

/-- A common factor does not change the order. -/
theorem compare_scaled (n n' : Nat) :
    compare (n * 2 ^ 52) (n' * 2 ^ 52) = compare (n : Int) (n' : Int) := by
  have pos := Nat.two_pow_pos 52
  rcases Nat.lt_trichotomy n n' with lt | rfl | gt
  · rw [Nat.compare_eq_lt.mpr (Nat.mul_lt_mul_of_pos_right lt pos),
      Int.compare_eq_lt.mpr (Int.ofNat_lt.mpr lt)]
  · rw [Nat.compare_eq_eq.mpr rfl, Int.compare_eq_eq.mpr rfl]
  · rw [Nat.compare_eq_gt.mpr (Nat.mul_lt_mul_of_pos_right gt pos),
      Int.compare_eq_gt.mpr (Int.ofNat_lt.mpr gt)]

/-- Floating point numbers of known values are in the order of these, turned round for negative
ones. -/
theorem HasValue.compare {u u' : UnpackedFloat} {s : Sign} {n n' : Nat}
    (h : HasValue u s (n * 2 ^ 52) (-52)) (h' : HasValue u' s (n' * 2 ^ 52) (-52)) :
    UnpackedFloat.compare u u' = some (match s with
      | .positive => compare (n : Int) n'
      | .negative => (compare (n : Int) n').swap) := by
  obtain ⟨m, e, pos, rfl, normal, least, value⟩ := h
  obtain ⟨m', e', pos', rfl, normal', least', value'⟩ := h'
  have order := compare_normal normal normal' least least'
  rw [value, value', compare_scaled] at order
  cases s with
  | positive => rw [← order]; rfl
  | negative => rw [← order]; rfl

theorem compare_neg (a b : Int) : compare (-a) (-b) = (compare a b).swap := by
  rcases Int.lt_trichotomy a b with lt | same | gt
  · rw [Int.compare_eq_lt.mpr lt, Int.compare_eq_gt.mpr (Int.neg_lt_neg lt)]
    rfl
  · rw [Int.compare_eq_eq.mpr same, Int.compare_eq_eq.mpr (congrArg _ same)]
    rfl
  · rw [Int.compare_eq_gt.mpr gt, Int.compare_eq_lt.mpr (Int.neg_lt_neg gt)]
    rfl

/-- Numbers that stand for integers are compared as these are. -/
theorem compare_of_standsFor {x y : Float} {a b : Int} (h : StandsFor x a) (h' : StandsFor y b) :
    UnpackedFloat.compare x.toModel.unpack y.toModel.unpack = some (compare a b) := by
  -- Unless the signs are the same, they decide.
  cases h with
  | zero h =>
      cases h' with
      | zero h' =>
          rw [h, h']
          rfl
      | positive h' =>
          obtain ⟨pos, m, e, positive, same⟩ := h'.finite
          rw [h, same, Int.compare_eq_lt.mpr (by omega)]
          rfl
      | negative h' =>
          obtain ⟨pos, m, e, positive, same⟩ := h'.finite
          rw [h, same, Int.compare_eq_gt.mpr (by omega)]
          rfl
  | positive h =>
      obtain ⟨pos, m, e, positive, same⟩ := h.finite
      cases h' with
      | zero h' =>
          rw [same, h', Int.compare_eq_gt.mpr (by omega)]
          rfl
      | positive h' => exact h.compare h'
      | negative h' =>
          obtain ⟨pos', m', e', positive', same'⟩ := h'.finite
          rw [same, same', Int.compare_eq_gt.mpr (by omega)]
          rfl
  | negative h =>
      obtain ⟨pos, m, e, positive, same⟩ := h.finite
      cases h' with
      | zero h' =>
          rw [same, h', Int.compare_eq_lt.mpr (by omega)]
          rfl
      | positive h' =>
          obtain ⟨pos', m', e', positive', same'⟩ := h'.finite
          rw [same, same', Int.compare_eq_lt.mpr (by omega)]
          rfl
      | negative h' => rw [h.compare h', compare_neg]

/-- Floating point numbers that stand for integers are in the order of these. -/
theorem lt_iff_of_standsFor {x y : Float} {a b : Int} (h : StandsFor x a) (h' : StandsFor y b) :
    x < y ↔ a < b := by
  change decide (Float.Model.lt x.toModel y.toModel = true) = true ↔ _
  rw [decide_eq_true_eq]
  change (UnpackedFloat.compare x.toModel.unpack y.toModel.unpack == some .lt) = true ↔ _
  rw [compare_of_standsFor h h', beq_iff_eq, Option.some_inj, Int.compare_eq_lt]

theorem beq_iff_of_standsFor {x y : Float} {a b : Int} (h : StandsFor x a) (h' : StandsFor y b) :
    (x == y) = true ↔ a = b := by
  change (UnpackedFloat.compare x.toModel.unpack y.toModel.unpack == some .eq) = true ↔ _
  rw [compare_of_standsFor h h', beq_iff_eq, Option.some_inj, Int.compare_eq_eq]

end RemoteDebugger.Decimal
