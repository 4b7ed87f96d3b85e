import RemoteDebugger.Decimal.Binary64

/-!
# Shortest decimals

The decimal with the fewest digits that still reads back as a given binary number, and its
positional form. A binary number stands for an interval of reals, those that round to it; for one
digit, two digits and so on the two neighbours of the number on that decimal grid are tested against
the interval in exact integer arithmetic. The first grid with a hit wins, of two hits the nearer
one, and an even tie goes up.
-/

namespace RemoteDebugger.Decimal

/-- The decimal `digits * 10 ^ exponent`. -/
structure Numeral where
  digits : Nat
  exponent : Int
  deriving DecidableEq, Repr

/-- A positive number `value / unit` with the ends of the interval of reals that round to it, all
over the same unit. The ends belong to the interval if `closed`. -/
structure Interval where
  low : Nat
  value : Nat
  high : Nat
  unit : Nat
  closed : Bool
  deriving DecidableEq, Repr

/-- The interval of the binary number `mantissa * 2 ^ exponent`. At a power of two the lower
neighbour is half as far away as the upper one, except at the least exponent. Ends are included iff
the mantissa is even, as a tie rounds to the even neighbour. -/
def Interval.ofBinary (mantissa : Nat) (exponent : Int) : Interval :=
  let up := pow2 (exponent - 2).toNat
  let unit := pow2 (2 - exponent).toNat
  let below := if mantissa = pow2 52 ∧ exponent ≠ Binary64.minExponent then 1 else 2
  { low := (4 * mantissa - below) * up
    value := 4 * mantissa * up
    high := (4 * mantissa + 2) * up
    unit := unit
    closed := mantissa % 2 == 0 }

namespace Interval

/-- The decimal `digits * 10 ^ exponent` lies in the interval. -/
def contains (i : Interval) (digits : Nat) (exponent : Int) : Bool :=
  let point := digits * pow10 exponent.toNat * i.unit
  let scale := pow10 (-exponent).toNat
  if i.closed then i.low * scale ≤ point && point ≤ i.high * scale
  else i.low * scale < point && point < i.high * scale

/-- The neighbour of the value on the grid of multiples of `10 ^ exponent` that lies in the
interval; of two the nearer, and the upper one if both are equally near. -/
def nearest? (i : Interval) (exponent : Int) : Option Numeral :=
  let num := i.value * pow10 (-exponent).toNat
  let den := i.unit * pow10 exponent.toNat
  let d := num / den
  match i.contains d exponent, i.contains (d + 1) exponent with
  | false, false => none
  | true, false => some ⟨d, exponent⟩
  | false, true => some ⟨d + 1, exponent⟩
  | true, true => some ⟨if 2 * (num % den) < den then d else d + 1, exponent⟩

/-- The exponent of ten of the first digit of the value, found at a scale at which every finite
number of the format exceeds one. -/
def leadExponent (i : Interval) : Int :=
  Int.ofNat (Nat.toDigits 10 (i.value * pow10 400 / i.unit)).length - 401

/-- The first hit, from the grid on which the value has no digit yet, but may round up to one, to
the grid on which it has seventeen. -/
def shortest (i : Interval) : Numeral :=
  let lead := i.leadExponent
  let exponents := (List.range 18).map fun n => lead + 1 - Int.ofNat n
  (exponents.findSome? i.nearest?).getD ⟨i.value / i.unit, 0⟩

end Interval

/-- A numeral in positional notation, without an exponent. Zeros fill up what the digits do not
reach. -/
def Numeral.positional (n : Numeral) : List Char :=
  let ds := Nat.toDigits 10 n.digits
  if 0 ≤ n.exponent then ds ++ List.replicate n.exponent.toNat '0'
  else
    let places := (-n.exponent).toNat
    let padded := List.replicate (places + 1 - ds.length) '0' ++ ds
    padded.take (padded.length - places) ++ '.' :: padded.drop (padded.length - places)

/-- The integer `mantissa * 2 ^ exponent`, if it is one. No precision is lost, as it is never
divided with a remainder. -/
def wholePart? (mantissa : Nat) (exponent : Int) : Option Nat :=
  if 0 ≤ exponent then some (mantissa * pow2 exponent.toNat)
  else
    let unit := pow2 (-exponent).toNat
    if mantissa % unit = 0 then some (mantissa / unit) else none

/-- The text of a floating point number. Whole numbers below `10 ^ 16` have exactly one decimal, all
others the fewest digits that read back, always in positional notation. -/
def text (x : Float) : List Char :=
  match Binary64.ofFloat x with
  | .notANumber => "nan".toList
  | .infinite negative => (if negative then "-inf" else "inf").toList
  | .finite negative mantissa exponent =>
    let sign := if negative then ['-'] else []
    match wholePart? mantissa exponent with
    | some n =>
      if n < pow10 16 then sign ++ Nat.toDigits 10 n ++ ['.', '0']
      else sign ++ (Interval.ofBinary mantissa exponent).shortest.positional
    | none => sign ++ (Interval.ofBinary mantissa exponent).shortest.positional

end RemoteDebugger.Decimal
