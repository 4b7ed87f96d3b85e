import RemoteDebugger.Text.Numeral
import RemoteDebugger.Text.Utf8

/-!
# Percent encoding of payloads

A payload travels inside one line, so every byte of it outside a small safe set is written as a
percent sign and two hexadecimal digits. Decoding keeps a percent sign that no two hexadecimal
digits follow, and writes U+FFFD where the decoded bytes are no UTF-8.
-/

namespace RemoteDebugger.Wire

/-- Marks that a payload keeps as they are, besides ASCII letters and digits. -/
def safeMarks : List UInt8 := Text.encode "-_.~/<>=\" :,()[]*'".toList

/-- A byte that stands for itself in an encoded payload. All others are written by their two
digits. -/
def isSafe (b : UInt8) : Bool :=
  (48 ≤ b && b ≤ 57) || (65 ≤ b && b ≤ 90) || (97 ≤ b && b ≤ 122) || safeMarks.contains b

def upperHexDigit (n : Nat) : Char :=
  if n < 10 then Char.ofNat (48 + n) else Char.ofNat (55 + n)

/-- A percent sign and the two digits of a byte. -/
def escapeByte (b : UInt8) : List Char :=
  ['%', upperHexDigit (b.toNat / 16), upperHexDigit (b.toNat % 16)]

def quoteByte (b : UInt8) : List Char :=
  if isSafe b then [Char.ofNat b.toNat] else escapeByte b

def quote (s : String) : String := String.ofList ((Text.encode s.toList).flatMap quoteByte)

def hexByteValue? (b : UInt8) : Option Nat := Text.hexValue? (Char.ofNat b.toNat)

/-- Replace every percent sign followed by two hexadecimal digits by the byte they give. -/
def unquoteBytes : List UInt8 → List UInt8
  | b :: h :: l :: rest =>
    if b = 0x25 then
      match hexByteValue? h, hexByteValue? l with
      | some hi, some lo => UInt8.ofNat (16 * hi + lo) :: unquoteBytes rest
      | _, _ => b :: unquoteBytes (h :: l :: rest)
    else b :: unquoteBytes (h :: l :: rest)
  | bytes => bytes

def unquote (s : String) : String :=
  String.ofList (Text.decodeLossy (unquoteBytes (Text.encode s.toList)))

end RemoteDebugger.Wire
