/-!
# Decimal integers

Reading of decimal integers in ASCII digits. An unsigned integer may carry a plus sign, a signed one
a plus or a minus sign; leading zeros are allowed, and a value outside the range of its type is
refused.
-/

namespace RemoteDebugger.Text

/-- Largest unsigned integers of 32 and 64 bits. -/
def maxUInt32 : Nat := 4294967295

@[inherit_doc maxUInt32] def maxUInt64 : Nat := 18446744073709551615

def isDigit (c : Char) : Bool := '0' ≤ c && c ≤ '9'

def digitValue (c : Char) : Nat := c.toNat - 48

def digitsValue (cs : List Char) : Nat := cs.foldl (fun n c => n * 10 + digitValue c) 0

/-- The number written by one or more digits and nothing else. -/
def digits? (cs : List Char) : Option Nat :=
  if !cs.isEmpty && cs.all isDigit then some (digitsValue cs) else none

/-- A number up to `limit` with an optional plus sign. -/
def unsigned? (limit : Nat) (cs : List Char) : Option Nat :=
  let body := match cs with
    | '+' :: rest => rest
    | _ => cs
  (digits? body).filter (· ≤ limit)

/-- An integer of the 64-bit signed range with an optional sign. -/
def signed? (cs : List Char) : Option Int :=
  let value := match cs with
    | '+' :: rest => (digits? rest).map Int.ofNat
    | '-' :: rest => (digits? rest).map fun n => -Int.ofNat n
    | _ => (digits? cs).map Int.ofNat
  value.filter fun n => -9223372036854775808 ≤ n && n ≤ 9223372036854775807

def hexDigit (n : Nat) : Char :=
  if n < 10 then Char.ofNat (48 + n) else Char.ofNat (87 + n)

def hexByte (n : Nat) : List Char := [hexDigit (n / 16 % 16), hexDigit (n % 16)]

/-- The value of a hexadecimal digit of either case. -/
def hexValue? (c : Char) : Option Nat :=
  if isDigit c then some (c.toNat - 48)
  else if 'a' ≤ c && c ≤ 'f' then some (c.toNat - 87)
  else if 'A' ≤ c && c ≤ 'F' then some (c.toNat - 55)
  else none

end RemoteDebugger.Text
