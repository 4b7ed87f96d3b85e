/-!
# UTF-8

Texts as byte sequences and back. Decoding is one pass of a small machine over the bytes: it emits
the characters and, where the bytes are no UTF-8, one fault for each longest prefix of a character
that cannot be continued. Strict decoding refuses a fault, lossy decoding writes U+FFFD for it.
-/

namespace RemoteDebugger.Text

def encode (cs : List Char) : List UInt8 := cs.flatMap String.utf8EncodeChar

/-- What decoding finds next in a byte sequence. -/
inductive Piece where
  /-- A complete character. -/
  | char (c : Char)
  /-- Bytes that start no character, or start one that the next byte cannot continue. -/
  | broken (width : Nat)
  /-- The sequence ends inside a character. -/
  | cut (width : Nat)
  deriving DecidableEq, Repr

/-- A character of which some bytes are still owed; the next one lies between `low` and `high`. -/
structure Pending where
  value : Nat
  seen : Nat
  owed : Nat
  low : UInt8
  high : UInt8
  deriving DecidableEq, Repr

/-- The character announced by a leading byte of a longer sequence. -/
def Pending.ofLead (b : UInt8) : Option Pending :=
  if 0xC2 ≤ b ∧ b ≤ 0xDF then some ⟨b.toNat % 32, 1, 1, 0x80, 0xBF⟩
  else if b = 0xE0 then some ⟨b.toNat % 16, 1, 2, 0xA0, 0xBF⟩
  else if b = 0xED then some ⟨b.toNat % 16, 1, 2, 0x80, 0x9F⟩
  else if 0xE1 ≤ b ∧ b ≤ 0xEF then some ⟨b.toNat % 16, 1, 2, 0x80, 0xBF⟩
  else if b = 0xF0 then some ⟨b.toNat % 8, 1, 3, 0x90, 0xBF⟩
  else if 0xF1 ≤ b ∧ b ≤ 0xF3 then some ⟨b.toNat % 8, 1, 3, 0x80, 0xBF⟩
  else if b = 0xF4 then some ⟨b.toNat % 8, 1, 3, 0x80, 0x8F⟩
  else none

/-- Read a byte where a character may start. -/
def startWith (b : UInt8) : List Piece × Option Pending :=
  if b < 0x80 then ([.char (Char.ofNat b.toNat)], none)
  else match Pending.ofLead b with
    | some p => ([], some p)
    | none => ([.broken 1], none)

/-- Read a byte after part of a character. A byte that cannot continue it starts anew. -/
def Pending.feed (p : Pending) (b : UInt8) : List Piece × Option Pending :=
  if p.low ≤ b ∧ b ≤ p.high then
    let value := p.value * 64 + b.toNat % 64
    if p.owed ≤ 1 then ([.char (Char.ofNat value)], none)
    else ([], some ⟨value, p.seen + 1, p.owed - 1, 0x80, 0xBF⟩)
  else
    let (pieces, next) := startWith b
    (.broken p.seen :: pieces, next)

/-- Read one byte between characters or inside one. A byte that does not go on with a character ends
it and is read anew. -/
def feed : Option Pending → UInt8 → List Piece × Option Pending
  | none, b => startWith b
  | some p, b => p.feed b

/-- The pieces of a byte sequence that continues an unfinished character, if there is one. -/
def piecesFrom : Option Pending → List UInt8 → List Piece
  | none, [] => []
  | some p, [] => [.cut p.seen]
  | p, b :: rest =>
    let (pieces, next) := feed p b
    pieces ++ piecesFrom next rest

/-- The characters and faults of a byte sequence, in order. -/
def pieces (bytes : List UInt8) : List Piece := piecesFrom none bytes

/-- The character a piece stands for in lossy decoding. -/
def Piece.lossy : Piece → Char
  | .char c => c
  | .broken _ => '\uFFFD'
  | .cut _ => '\uFFFD'

def Piece.char? : Piece → Option Char
  | .char c => some c
  | _ => none

/-- The text of a byte sequence, with U+FFFD for every fault. -/
def decodeLossy (bytes : List UInt8) : List Char := (pieces bytes).map Piece.lossy

/-- The text of a byte sequence that is UTF-8. -/
def decode? (bytes : List UInt8) : Option (List Char) := (pieces bytes).mapM Piece.char?

/-- The first fault of a byte sequence: where it is, and how many bytes it has unless the sequence
ends inside a character. -/
structure Fault where
  index : Nat
  width : Option Nat
  deriving DecidableEq, Repr

/-- The first fault among pieces that start at a given byte. -/
def faultFrom : Nat → List Piece → Option Fault
  | _, [] => none
  | i, .char c :: rest => faultFrom (i + c.utf8Size) rest
  | i, .broken n :: _ => some ⟨i, some n⟩
  | i, .cut _ :: _ => some ⟨i, none⟩

/-- The first place where a byte sequence is not UTF-8. -/
def fault? (bytes : List UInt8) : Option Fault := faultFrom 0 (pieces bytes)

def Fault.message (f : Fault) : String :=
  match f.width with
  | some n => s!"invalid utf-8 sequence of {n} bytes from index {f.index}"
  | none => s!"incomplete utf-8 byte sequence from index {f.index}"

@[simp] theorem encode_nil : encode [] = [] := rfl

@[simp] theorem encode_cons (c : Char) (cs : List Char) :
    encode (c :: cs) = String.utf8EncodeChar c ++ encode cs := rfl

@[simp] theorem encode_append (cs ds : List Char) : encode (cs ++ ds) = encode cs ++ encode ds := by
  simp [encode]

@[simp] theorem pieces_nil : pieces [] = [] := rfl

end RemoteDebugger.Text
