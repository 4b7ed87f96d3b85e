/-!
# Binary floating point numbers as exact integers

A finite number of the 64-bit format is a mantissa times a power of two. Reading the bits gives both
as integers; in that form the remainder of a division is computed exactly, and a result that the
format can hold is written back without rounding.
-/

namespace RemoteDebugger.Decimal

/-- Powers of two and of ten. -/
def pow2 (n : Nat) : Nat := Nat.pow 2 n

@[inherit_doc pow2] def pow10 (n : Nat) : Nat := Nat.pow 10 n

/-- A floating point number, taken apart. A finite one is `mantissa * 2 ^ exponent`, negated if so
marked; zero has mantissa zero and keeps its sign. -/
inductive Binary64 where
  | notANumber
  | infinite (negative : Bool)
  | finite (negative : Bool) (mantissa : Nat) (exponent : Int)
  deriving DecidableEq, Repr

namespace Binary64

/-- Number of mantissa bits that are stored, and the least exponent of a finite number. -/
def storedBits : Nat := 52

@[inherit_doc storedBits] def minExponent : Int := -1074

/-- The number of a bit pattern: one sign bit, eleven of the exponent, the rest of the mantissa. -/
def ofBits (bits : Nat) : Binary64 :=
  let negative := bits / pow2 63 % 2 == 1
  let biased := bits / pow2 52 % pow2 11
  let fraction := bits % pow2 52
  if biased = 2047 then if fraction = 0 then .infinite negative else .notANumber
  else if biased = 0 then .finite negative fraction minExponent
  else .finite negative (pow2 52 + fraction) (minExponent + (biased - 1 : Nat))

def ofFloat (x : Float) : Binary64 := ofBits x.toBits.toNat

/-- The bits of a number `mantissa * 2 ^ exponent` that the format can hold. -/
def toBits (negative : Bool) (mantissa : Nat) (exponent : Int) : Nat :=
  let sign := if negative then pow2 63 else 0
  if mantissa = 0 then sign
  else
    let room := storedBits - mantissa.log2
    let shift := min room (exponent - minExponent).toNat
    let scaled := mantissa * pow2 shift
    let biased := (exponent - minExponent).toNat - shift
    if scaled < pow2 52 then sign + scaled
    else sign + (biased + 1) * pow2 52 + (scaled - pow2 52)

/-- The float `mantissa * 2 ^ exponent`, for a number that the format can hold. -/
def toFloat (negative : Bool) (mantissa : Nat) (exponent : Int) : Float :=
  Float.ofBits (UInt64.ofNat (toBits negative mantissa exponent))

/-- What is left of `a` after taking away `b` a whole number of times toward zero. The result has
the sign of `a`; it is exact, because it is a multiple of the smaller of the two last places. -/
def remainder (a b : Float) : Float :=
  match ofFloat a, ofFloat b with
  | .finite negative ma ea, .finite _ mb eb =>
    if mb = 0 then Float.ofBits 0x7FF8000000000000
    else
      let e := min ea eb
      toFloat negative ((ma * pow2 (ea - e).toNat) % (mb * pow2 (eb - e).toNat)) e
  | .finite .., .infinite _ => a
  | _, _ => Float.ofBits 0x7FF8000000000000

end Binary64

end RemoteDebugger.Decimal
