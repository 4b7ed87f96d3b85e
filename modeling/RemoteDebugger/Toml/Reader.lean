import RemoteDebugger.Text.Numeral
import RemoteDebugger.Text.Reader
import RemoteDebugger.Toml.Basic

/-!
# Reading TOML

A document is a sequence of lines, each with a header, a key and its value, a comment or nothing.
Values nest in brackets and braces to a limited depth; the reader of a value is a function of the
reader for what stands inside.
-/

namespace RemoteDebugger.Toml

open Reader

/-- Deepest nesting of brackets and braces, and most parts of a dotted key. -/
def maxDepth : Nat := 79

def isSpace (c : Char) : Bool := c == ' ' || c == '\t'

/-- Characters that may stand in comments and, apart from quotes, in texts. -/
def isPrintable (c : Char) : Bool := c == '\t' || (0x20 ≤ c.toNat && c.toNat != 0x7F)

def skipSpace (s : List Char) : List Char := s.dropWhile isSpace

def lineEnd : Reader Unit := fun s =>
  match s with
  | '\n' :: rest => some ((), rest)
  | '\r' :: '\n' :: rest => some ((), rest)
  | _ => none

def skipComment (s : List Char) : List Char :=
  match s with
  | '#' :: rest => rest.dropWhile isPrintable
  | _ => s

/-- The rest of a line that holds nothing more, with the line end unless the document ends. -/
def restOfLine : Reader Unit := fun s =>
  match skipComment (skipSpace s) with
  | [] => some ((), [])
  | s => lineEnd s

/-- Blanks, comments and line ends, at most `fuel` lines of them. -/
def skipLinesUpTo : Nat → List Char → List Char
  | 0, s => s
  | fuel + 1, s =>
    let s := skipComment (skipSpace s)
    match lineEnd s with
    | some (_, s) => skipLinesUpTo fuel s
    | none => s

/-- Blanks, comments and line ends. -/
def skipLines (s : List Char) : List Char := skipLinesUpTo (s.length + 1) s

def hexNumber? (cs : List Char) : Option Nat :=
  cs.foldlM (fun n c => (Text.hexValue? c).map fun d => n * 16 + d) 0

/-- The character of a code point written by a fixed number of hexadecimal digits. -/
def codePoint (width : Nat) : Reader Char := fun s =>
  let digits := s.take width
  if digits.length = width then
    match hexNumber? digits with
    | some n => if n.isValidChar then some (Char.ofNat n, s.drop width) else none
    | none => none
  else none

/-- What a backslash and the text after it stand for. -/
def escapeSequence : Reader Char := fun s =>
  match s with
  | 'b' :: rest => some ('\x08', rest)
  | 't' :: rest => some ('\t', rest)
  | 'n' :: rest => some ('\n', rest)
  | 'f' :: rest => some ('\x0c', rest)
  | 'r' :: rest => some ('\r', rest)
  | '"' :: rest => some ('"', rest)
  | '\\' :: rest => some ('\\', rest)
  | 'u' :: rest => codePoint 4 rest
  | 'U' :: rest => codePoint 8 rest
  | _ => none

/-- One character of a text on one line. Escapes are read if the quote is the double one. -/
def lineChar (quote : Char) : Reader Char := fun s =>
  match s with
  | [] => none
  | c :: rest =>
    if c == quote then none
    else if c == '\\' && quote == '"' then escapeSequence rest
    else if isPrintable c then some (c, rest)
    else none

def lineText (quote : Char) : Reader String := fun s =>
  match s with
  | [] => none
  | c :: rest =>
    if c != quote then none
    else
      let (cs, rest) := manyUpTo (lineChar quote) rest.length rest
      match rest with
      | [] => none
      | d :: rest => if d == quote then some (String.ofList cs, rest) else none

/-- Skip blanks and line ends, at most `fuel` of them. -/
def skipWhiteUpTo : Nat → List Char → List Char
  | 0, s => s
  | fuel + 1, s =>
    match lineEnd s with
    | some (_, s) => skipWhiteUpTo fuel s
    | none =>
      match s with
      | c :: rest => if isSpace c then skipWhiteUpTo fuel rest else s
      | [] => []

/-- A backslash at the end of a line, with the white space it takes away. -/
def lineJoin : Reader Unit := fun s =>
  match s with
  | '\\' :: rest =>
    match lineEnd (skipSpace rest) with
    | some (_, rest) => some ((), skipWhiteUpTo rest.length rest)
    | none => none
  | _ => none

/-- One piece of a text over several lines: some characters, or none for a joined line. Line ends
count as line feeds. -/
def blockPiece (quote : Char) : Reader (List Char) := fun s =>
  match s with
  | [] => none
  | c :: rest =>
    if c == quote then none
    else match lineEnd s with
      | some (_, rest) => some (['\n'], rest)
      | none =>
        if c == '\\' && quote == '"' then
          match lineJoin s with
          | some (_, rest) => some ([], rest)
          | none => (escapeSequence rest).map fun r => ([r.1], r.2)
        else if isPrintable c then some ([c], rest)
        else none

/-- The rest of a text over several lines. Up to two quotes in a row belong to the text, also right
before the three that close it. -/
def blockRest (quote : Char) : Nat → List Char → Option (List Char × List Char)
  | 0, _ => none
  | fuel + 1, s =>
    match blockPiece quote s with
    | some (piece, rest) => (blockRest quote fuel rest).map fun r => (piece ++ r.1, r.2)
    | none =>
      let run := (s.takeWhile (· == quote)).length
      if run = 0 then none
      else if run < 3 then
        (blockRest quote fuel (s.drop run)).map fun r => (List.replicate run quote ++ r.1, r.2)
      else
        let kept := min (run - 3) 2
        some (List.replicate kept quote, s.drop (kept + 3))

/-- A text over several lines; a line end right after the opening quotes does not count. -/
def blockText (quote : Char) : Reader String := fun s =>
  match text [quote, quote, quote] s with
  | none => none
  | some (_, s) =>
    let s := ((lineEnd s).map Prod.snd).getD s
    (blockRest quote (s.length + 1) s).map fun r => (String.ofList r.1, r.2)

def anyText : Reader String :=
  orElse (blockText '"') (orElse (blockText '\'') (orElse (lineText '"') (lineText '\'')))

def isKeyChar (c : Char) : Bool :=
  ('a' ≤ c && c ≤ 'z') || ('A' ≤ c && c ≤ 'Z') || ('0' ≤ c && c ≤ '9') || c == '-' || c == '_'

/-- One part of a key, with blanks around it. -/
def keyPart : Reader String := fun s =>
  let s := skipSpace s
  let plain : Reader String := fun s =>
    match s.takeWhile isKeyChar with
    | [] => none
    | cs => some (String.ofList cs, s.dropWhile isKeyChar)
  (orElse (lineText '"') (orElse (lineText '\'') plain) s).map fun r => (r.1, skipSpace r.2)

/-- A key: parts separated by points. -/
def key : Reader (List String) := fun s =>
  match seq keyPart (many (map Prod.snd (seq (text ['.']) keyPart))) s with
  | some ((k, ks), s) => if ks.length < maxDepth then some (k :: ks, s) else none
  | none => none

/-- Digits of a class, with single underscores between them. -/
def digitRun (isDigit : Char → Bool) : Reader (List Char) := fun s =>
  let digit : Reader Char := fun s =>
    match s with
    | c :: rest => if isDigit c then some (c, rest) else none
    | [] => none
  let next := orElse digit (map Prod.snd (seq (text ['_']) digit))
  map (fun r => r.1 :: r.2) (seq digit (many next)) s

def sign (s : List Char) : Bool × List Char :=
  match s with
  | '-' :: rest => (true, rest)
  | '+' :: rest => (false, rest)
  | _ => (false, s)

def decimalDigits : Reader (List Char) := fun s =>
  match s with
  | '0' :: rest => some (['0'], rest)
  | _ => digitRun Text.isDigit s

def exponent : Reader Int := fun s =>
  match s with
  | c :: rest =>
    if c == 'e' || c == 'E' then
      let (negative, rest) := sign rest
      (digitRun Text.isDigit rest).map fun r =>
        let n : Int := Text.digitsValue r.1
        (if negative then -n else n, r.2)
    else none
  | [] => none

/-- The number `digits * 10 ^ e` is too large for a floating point number. -/
def overflows (digits : Nat) (e : Int) : Bool :=
  if digits = 0 then false
  else if e > 400 then true
  else if e < -(Int.ofNat (Nat.toDigits 10 digits).length) then false
  else !(Float.ofScientific digits (e < 0) e.natAbs).isFinite

/-- A number with a fraction or an exponent. Positive ones must not be too large. -/
def fractional : Reader Toml := fun s =>
  let (negative, s) := sign s
  match decimalDigits s with
  | none => none
  | some (whole, s) =>
    let (fraction, s, marked) := match seq (text ['.']) (digitRun Text.isDigit) s with
      | some ((_, fraction), s) => (fraction, s, true)
      | none => ([], s, false)
    let (e, s, marked) := match exponent s with
      | some (e, s) => (e, s, true)
      | none => (0, s, marked)
    if !marked then none
    else if !negative && overflows (Text.digitsValue (whole ++ fraction))
      (e - fraction.length) then none
    else some (.float, s)

def specialNumber : Reader Toml := fun s =>
  map (fun _ => .float) (orElse (text "inf".toList) (text "nan".toList)) (sign s).2

def boundedInt (n : Int) (s : List Char) : Option (Toml × List Char) :=
  if -9223372036854775808 ≤ n ∧ n ≤ 9223372036854775807 then some (.int n, s) else none

/-- An integer in another base, given its letter and the class of its digits. -/
def basedInt (letter : Char) (base : Nat) (isDigit : Char → Bool) : Reader Toml := fun s =>
  match seq (text ['0', letter]) (digitRun isDigit) s with
  | some ((_, ds), s) =>
    boundedInt (ds.foldl (fun n c => n * base + (Text.hexValue? c).getD 0) (0 : Nat)) s
  | none => none

def decimalInt : Reader Toml := fun s =>
  let (negative, s) := sign s
  match decimalDigits s with
  | some (ds, s) =>
    let n : Int := Text.digitsValue ds
    boundedInt (if negative then -n else n) s
  | none => none

def integer : Reader Toml :=
  orElse (basedInt 'x' 16 fun c => (Text.hexValue? c).isSome)
    (orElse (basedInt 'o' 8 fun c => '0' ≤ c && c ≤ '7')
      (orElse (basedInt 'b' 2 fun c => c == '0' || c == '1') decimalInt))

/-- A number of exactly so many digits between two bounds. -/
def fixedDigits (width low high : Nat) : Reader Nat := fun s =>
  let ds := s.take width
  if ds.length = width && ds.all Text.isDigit then
    let n := Text.digitsValue ds
    if low ≤ n && n ≤ high then some (n, s.drop width) else none
  else none

def daysOf (year month : Nat) : Nat :=
  if month = 2 then if year % 4 = 0 ∧ (year % 100 ≠ 0 ∨ year % 400 = 0) then 29 else 28
  else if month = 4 ∨ month = 6 ∨ month = 9 ∨ month = 11 then 30
  else 31

def date : Reader Unit := fun s =>
  match seq (seq (fixedDigits 4 0 9999) (text ['-'])) (seq (fixedDigits 2 1 12) (text ['-'])) s with
  | some (((year, _), (month, _)), s) => (fixedDigits 2 1 (daysOf year month) s).map fun r =>
      ((), r.2)
  | none => none

def time : Reader Unit := fun s =>
  match seq (seq (fixedDigits 2 0 23) (text [':'])) (seq (seq (fixedDigits 2 0 59) (text [':']))
      (fixedDigits 2 0 60)) s with
  | some (_, s) =>
    match s with
    | '.' :: c :: rest =>
      if Text.isDigit c then some ((), rest.dropWhile Text.isDigit) else none
    | '.' :: [] => none
    | _ => some ((), s)
  | none => none

def offset : Reader Unit := fun s =>
  match s with
  | c :: rest =>
    if c == 'Z' || c == 'z' then some ((), rest)
    else if c == '+' || c == '-' then
      (seq (seq (fixedDigits 2 0 23) (text [':'])) (fixedDigits 2 0 59) rest).map fun r => ((), r.2)
    else none
  | [] => none

def moment : Reader Toml := fun s =>
  match date s with
  | some (_, s) =>
    let timed := match s with
      | c :: rest => if c == 'T' || c == 't' || c == ' ' then time rest else none
      | [] => none
    match timed with
    | some (_, s) => some (.datetime, ((offset s).map Prod.snd).getD s)
    | none => some (.datetime, s)
  | none => (time s).map fun r => (.datetime, r.2)

/-- A value without values inside. -/
def scalar : Reader Toml :=
  orElse (map .str anyText)
    (orElse (map (fun _ => .bool true) (text "true".toList))
      (orElse (map (fun _ => .bool false) (text "false".toList))
        (orElse moment (orElse fractional (orElse specialNumber integer)))))

/-- An array, given a reader for its elements. A comma may follow the last one. -/
def arrayOf (inner : Reader Toml) : Reader Toml := fun s =>
  match text ['['] s with
  | none => none
  | some (_, s) =>
    let element : Reader Toml := fun s => (inner (skipLines s)).map fun r => (r.1, skipLines r.2)
    match separated (text [',']) element s with
    | some (items, s) => (text [']'] (skipLines s)).map fun r => (.array items, r.2)
    | none => none

/-- A key with its value, given a reader for values. -/
def pairOf (inner : Reader Toml) : Reader (List String × Toml) := fun s =>
  match seq key (text ['=']) s with
  | some ((path, _), s) => (inner (skipSpace s)).map fun r => ((path, r.1), r.2)
  | none => none

/-- Set the pairs of an inline table one after the other. -/
def inlineTable (pairs : List (List String × Toml)) : Option Toml :=
  pairs.foldlM (fun t p => changeHere (setPath p.1 p.2) t) (.table .inline [])

/-- An inline table, given a reader for its values. No comma may follow the last one. -/
def inlineOf (inner : Reader Toml) : Reader Toml := fun s =>
  match text ['\x7b'] s with
  | none => none
  | some (_, s) =>
    let pair : Reader (List String × Toml) := fun s =>
      (pairOf inner s).map fun r => (r.1, skipSpace r.2)
    let next := map Prod.snd (seq (text [',']) pair)
    let (pairs, s) := match pair s with
      | some (p, s) =>
        let (ps, s) := manyUpTo next s.length s
        (p :: ps, s)
      | none => ([], s)
    match text ['\x7d'] (skipSpace s) with
    | some (_, s) => (inlineTable pairs).map fun t => (t, s)
    | none => none

/-- A value that opens at most so many brackets and braces within each other. -/
def value : Nat → Reader Toml
  | 0 => scalar
  | depth + 1 => orElse (arrayOf (value depth)) (orElse (inlineOf (value depth)) scalar)

/-- A document that has been read up to some line: its tables and the header in force. -/
structure Progress where
  root : Toml := .table .header []
  current : List String := []

namespace Progress

def change (p : Progress) (f : Change) : Option Progress :=
  (changeHere f p.root).map fun root => { p with root := root }

def line (p : Progress) (s : List Char) : Option (Progress × List Char) :=
  match skipSpace s with
  | '[' :: '[' :: rest => do
    let (path, rest) ← seq key (text [']', ']']) rest
    let (_, rest) ← restOfLine rest
    let p ← p.change (followHeader appendTable path.1)
    pure ({ p with current := path.1 }, rest)
  | '[' :: rest => do
    let (path, rest) ← seq key (text [']']) rest
    let (_, rest) ← restOfLine rest
    let p ← p.change (followHeader defineTable path.1)
    pure ({ p with current := path.1 }, rest)
  | s =>
    match restOfLine s with
    | some (_, rest) => some (p, rest)
    | none => do
      let ((path, v), rest) ← pairOf (value maxDepth) s
      let (_, rest) ← restOfLine rest
      let p ← p.change (inTable p.current (setPath path v))
      pure (p, rest)

/-- Read lines to the end of the document. Every line takes at least one character. -/
def lines : Nat → Progress → List Char → Option Toml
  | 0, _, _ => none
  | fuel + 1, p, s =>
    match s with
    | [] => some p.root
    | s => (p.line s).bind fun r => lines fuel r.1 r.2

end Progress

/-- Read a document; a byte order mark at its front does not count. -/
def parse (document : String) : Option Toml :=
  let cs := match document.toList with
    | '\uFEFF' :: rest => rest
    | cs => cs
  Progress.lines (cs.length + 1) {} cs

end RemoteDebugger.Toml
