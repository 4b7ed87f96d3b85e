import Mathlib.Algebra.Group.Nat.Defs
import Mathlib.Data.Nat.Log
import Mathlib.Tactic.SplitIfs
import RemoteDebugger.Expression.Eval

/-!
# Integers as floating point numbers

A number of the 64-bit format has a mantissa of 53 bits. An integer with more significant bits than
that is rounded to the nearest one that has no more, and to the one with the even mantissa if two
are equally near. The rounding keeps the order of integers but not their difference, and it changes
none of the integers up to 2 ^ 53. Here all of this is a fact about integers, and the floating point
number of an integer stands for the rounded one: comparing the numbers compares the rounded
integers.
-/

namespace RemoteDebugger.Decimal

/-- A natural number over a power of two, rounded to an integer, and to the even one in the
middle. -/
def roundedShift (n k : Nat) : Nat :=
  if 2 * (n % 2 ^ k) < 2 ^ k then n / 2 ^ k
  else if 2 * (n % 2 ^ k) = 2 ^ k then n / 2 ^ k + n / 2 ^ k % 2
  else n / 2 ^ k + 1

/-- The number of last bits that are rounded away. -/
def excess (n : Nat) : Nat := n.log2 - 52

/-- The nearest number with at most 53 significant bits. -/
def nearestNat (n : Nat) : Nat := roundedShift n (excess n) * 2 ^ excess n

@[inherit_doc nearestNat] def nearest (x : Int) : Int := x.sign * nearestNat x.natAbs

theorem le_roundedShift (n k : Nat) : n / 2 ^ k ≤ roundedShift n k := by
  rw [roundedShift]
  split_ifs <;> omega

theorem roundedShift_le (n k : Nat) : roundedShift n k ≤ n / 2 ^ k + 1 := by
  rw [roundedShift]
  split_ifs <;> omega

/-- Rounding a shifted number keeps the order, though numbers may come to be equal. -/
theorem roundedShift_mono {m n : Nat} (le : m ≤ n) (k : Nat) :
    roundedShift m k ≤ roundedShift n k := by
  rcases Nat.lt_or_eq_of_le (Nat.div_le_div_right (c := 2 ^ k) le) with less | same
  · exact (roundedShift_le m k).trans (Nat.le_trans less (le_roundedShift n k))
  · have rest : m % 2 ^ k ≤ n % 2 ^ k := by
      have hm := Nat.div_add_mod m (2 ^ k)
      have hn := Nat.div_add_mod n (2 ^ k)
      rw [same] at hm
      omega
    rw [roundedShift, roundedShift, same]
    split_ifs <;> omega

/-- What is a multiple of the power of two is not rounded. -/
@[simp] theorem roundedShift_mul (q k : Nat) : roundedShift (q * 2 ^ k) k = q := by
  rw [roundedShift, Nat.mul_mod_left, Nat.mul_div_cancel _ (Nat.two_pow_pos k),
    if_pos (Nat.two_pow_pos k)]

/-- Common powers of two do not matter. -/
theorem roundedShift_mul_mul (n k j : Nat) :
    roundedShift (n * 2 ^ j) (k + j) = roundedShift n k := by
  have pos := Nat.two_pow_pos j
  have quotient : n * 2 ^ j / 2 ^ (k + j) = n / 2 ^ k := by
    rw [Nat.pow_add, Nat.mul_div_mul_right _ _ pos]
  have rest : n * 2 ^ j % 2 ^ (k + j) = n % 2 ^ k * 2 ^ j := by
    rw [Nat.pow_add, Nat.mul_mod_mul_right]
  have scaled : 2 * (n % 2 ^ k * 2 ^ j) = 2 * (n % 2 ^ k) * 2 ^ j := (Nat.mul_assoc _ _ _).symm
  rw [roundedShift, roundedShift, quotient, rest, scaled, Nat.pow_add]
  simp only [Nat.mul_lt_mul_right pos, Nat.mul_left_inj (Nat.ne_of_gt pos)]

section

variable {n : Nat}

/-- What is left of a long number has 53 bits. -/
theorem le_div_excess (long : 52 ≤ n.log2) : 2 ^ 52 ≤ n / 2 ^ excess n := by
  have ne : n ≠ 0 := by
    rintro rfl
    simp at long
  rw [Nat.le_div_iff_mul_le (Nat.two_pow_pos _), ← Nat.pow_add, excess, Nat.add_sub_cancel' long]
  exact Nat.log2_self_le ne

theorem div_excess_lt (n : Nat) : n / 2 ^ excess n < 2 ^ 53 := by
  rw [Nat.div_lt_iff_lt_mul (Nat.two_pow_pos _), ← Nat.pow_add]
  refine Nat.lt_of_lt_of_le Nat.lt_log2_self (Nat.pow_le_pow_right (by decide) ?_)
  rw [excess]
  omega

theorem le_roundedShift_excess (long : 52 ≤ n.log2) : 2 ^ 52 ≤ roundedShift n (excess n) :=
  (le_div_excess long).trans (le_roundedShift _ _)

theorem roundedShift_excess_le (n : Nat) : roundedShift n (excess n) ≤ 2 ^ 53 :=
  (roundedShift_le _ _).trans (div_excess_lt n)

/-- A number of at most 53 bits has none in excess. -/
theorem excess_of_lt (short : n < 2 ^ 53) : excess n = 0 := by
  rw [excess]
  rcases Nat.eq_zero_or_pos n with rfl | pos
  · rfl
  · have := (Nat.log2_lt (Nat.ne_of_gt pos)).mpr short
    omega

theorem nearestNat_of_lt (short : n < 2 ^ 53) : nearestNat n = n := by
  rw [nearestNat, excess_of_lt short, Nat.pow_zero, Nat.mul_one]
  exact (congrArg (roundedShift · 0) (Nat.mul_one n).symm).trans (roundedShift_mul n 0)

/-- Up to 2 ^ 53, every integer is its own floating point number. -/
theorem nearestNat_of_le (short : n ≤ 2 ^ 53) : nearestNat n = n := by
  rcases Nat.lt_or_eq_of_le short with less | rfl
  · exact nearestNat_of_lt less
  · decide

/-- A power of two as a factor makes a number longer by its exponent. -/
theorem log2_mul_two_pow (pos : 0 < n) (j : Nat) : (n * 2 ^ j).log2 = n.log2 + j := by
  induction j with
  | zero => rw [Nat.pow_zero, Nat.mul_one, Nat.add_zero]
  | succ j ih =>
      have nonzero : n * 2 ^ j ≠ 0 := Nat.ne_of_gt (Nat.mul_pos pos (Nat.two_pow_pos j))
      rw [Nat.pow_succ, ← Nat.mul_assoc, Nat.mul_comm, Nat.log2_two_mul nonzero, ih, Nat.add_assoc]

/-- A number that is shifted by enough zeros first is rounded to the nearest number as well. -/
theorem roundedShift_shifted {j : Nat} (pos : 0 < n) (long : 52 ≤ n.log2 + j) :
    roundedShift (n * 2 ^ j) (excess (n * 2 ^ j)) * 2 ^ n.log2 = nearestNat n * 2 ^ 52 := by
  have digits := log2_mul_two_pow pos j
  rcases Nat.lt_or_ge n.log2 52 with short | large
  · -- Not all of the zeros are shifted out again, and nothing else is.
    have back : excess (n * 2 ^ j) + (52 - n.log2) = j := by
      rw [excess, digits]
      omega
    have split : n * 2 ^ j = n * 2 ^ (52 - n.log2) * 2 ^ excess (n * 2 ^ j) := by
      rw [Nat.mul_assoc, ← Nat.pow_add, Nat.add_comm (52 - n.log2), back]
    have unrounded : roundedShift (n * 2 ^ j) (excess (n * 2 ^ j)) = n * 2 ^ (52 - n.log2) := by
      conv => lhs; arg 1; rw [split]
      exact roundedShift_mul _ _
    have small : n < 2 ^ 53 :=
      Nat.lt_of_lt_of_le Nat.lt_log2_self (Nat.pow_le_pow_right (by decide) (by omega))
    rw [unrounded, nearestNat_of_lt small, Nat.mul_assoc, ← Nat.pow_add,
      Nat.sub_add_cancel (Nat.le_of_lt short)]
  · have further : excess (n * 2 ^ j) = excess n + j := by
      rw [excess, excess, digits]
      omega
    have whole : n.log2 = excess n + 52 := (Nat.sub_add_cancel large).symm
    rw [further, roundedShift_mul_mul, nearestNat, Nat.mul_assoc, ← Nat.pow_add, ← whole]

/-- Rounding to the nearest floating point number keeps the order. -/
theorem nearestNat_mono {m n : Nat} (le : m ≤ n) : nearestNat m ≤ nearestNat n := by
  have grows : excess m ≤ excess n := by
    rw [excess, excess, Nat.log2_eq_log_two, Nat.log2_eq_log_two]
    exact Nat.sub_le_sub_right (Nat.log_mono_right le) 52
  rcases Nat.lt_or_eq_of_le grows with less | same
  · -- A longer number is rounded to a power of two at least, and the shorter one to at most that.
    have long : 52 ≤ n.log2 := by
      rw [excess, excess] at less
      omega
    calc nearestNat m ≤ 2 ^ 53 * 2 ^ excess m := Nat.mul_le_mul_right _ (roundedShift_excess_le m)
      _ = 2 ^ 52 * 2 ^ (excess m + 1) := by rw [Nat.pow_succ 2 (excess m)]; omega
      _ ≤ 2 ^ 52 * 2 ^ excess n := Nat.mul_le_mul_left _ (Nat.pow_le_pow_right (by decide) less)
      _ ≤ nearestNat n := Nat.mul_le_mul_right _ (le_roundedShift_excess long)
  · rw [nearestNat, nearestNat, same]
    exact Nat.mul_le_mul_right _ (roundedShift_mono le _)

end

@[simp] theorem nearest_natCast (n : Nat) : nearest n = nearestNat n := by
  cases n with
  | zero => rfl
  | succ n => exact Int.one_mul _

@[simp] theorem nearest_neg (x : Int) : nearest (-x) = -nearest x := by
  rw [nearest, nearest, Int.sign_neg, Int.natAbs_neg, Int.neg_mul]

@[inherit_doc nearestNat_of_le] theorem nearest_of_le {x : Int} (short : x.natAbs ≤ 2 ^ 53) :
    nearest x = x := by
  rw [nearest, nearestNat_of_le short, Int.sign_mul_natAbs]

/-- Rounding integers of either sign keeps the order. -/
theorem nearest_mono {x y : Int} (le : x ≤ y) : nearest x ≤ nearest y := by
  have natural {x y : Int} (nonneg : 0 ≤ x) (le : x ≤ y) : nearest x ≤ nearest y := by
    obtain ⟨m, rfl⟩ := Int.eq_ofNat_of_zero_le nonneg
    obtain ⟨n, rfl⟩ := Int.eq_ofNat_of_zero_le (Int.le_trans nonneg le)
    rw [nearest_natCast, nearest_natCast]
    exact Int.ofNat_le.mpr (nearestNat_mono (Int.ofNat_le.mp le))
  have zero : nearest 0 = 0 := rfl
  rcases Int.le_total 0 x with nonneg | nonpos
  · exact natural nonneg le
  · have below : nearest x ≤ 0 := by
      have mirrored := natural (Int.le_refl 0) (Int.neg_nonneg_of_nonpos nonpos)
      rw [nearest_neg, zero] at mirrored
      omega
    rcases Int.le_total 0 y with nonneg | nonpos'
    · exact Int.le_trans below (zero ▸ natural (Int.le_refl 0) nonneg)
    · have mirrored := natural (Int.neg_nonneg_of_nonpos nonpos') (Int.neg_le_neg le)
      rw [nearest_neg, nearest_neg] at mirrored
      omega

end RemoteDebugger.Decimal
