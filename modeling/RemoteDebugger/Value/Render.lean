import RemoteDebugger.Decimal.Shortest
import RemoteDebugger.Text.Blank
import RemoteDebugger.Text.Numeral
import RemoteDebugger.Value.Basic

/-!
# Texts of values

The text of a value is written into a bounded writer, which stops at its limit and marks the cut
with an ellipsis, so a huge value costs no more than what is shown of it. A container that is
already being written, and one nested too deeply, is replaced by a marker; therefore the text of a
cyclic value ends.
-/

namespace RemoteDebugger

/-- A text that refuses to grow past a number of characters, if there is a limit. -/
structure Writer where
  text : String := ""
  room : Option Nat
  cut : Bool := false

namespace Writer

/-- An empty text of at most `limit` characters. -/
def bounded (limit : Nat) : Writer := { room := some limit }

/-- An empty text without a limit. -/
def unbounded : Writer := { room := none }

/-- Append a character; the first one that does not fit cuts the text. -/
def putChar (w : Writer) (c : Char) : Writer :=
  if w.cut then w
  else match w.room with
    | none => { w with text := w.text.push c }
    | some 0 => { w with cut := true }
    | some (n + 1) => { w with text := w.text.push c, room := some n }

def put (w : Writer) (cs : List Char) : Writer := cs.foldl putChar w

def putStr (w : Writer) (s : String) : Writer := w.put s.toList

def putItems {α : Type} (w : Writer) (item : Writer → α → Writer) : List α → Writer
  | [] => w
  | x :: rest => rest.foldl (fun w y => if w.cut then w else item (w.putStr ", ") y) (item w x)

def finish (w : Writer) : String := if w.cut then w.text ++ "..." else w.text

end Writer

/-- How much of a value is written: nesting levels of containers, and characters. -/
structure Limits where
  depth : Nat := 8
  length : Nat := 1000
  deriving DecidableEq, Repr

namespace Value

/-- The quote around a text: the single one, unless only that occurs in the text. -/
def quoteFor (cs : List Char) : Char :=
  if cs.contains '\'' && !cs.contains '"' then '"' else '\''

def literalChar (quote c : Char) : List Char :=
  if c == '\\' then ['\\', '\\']
  else if c == '\n' then ['\\', 'n']
  else if c == '\r' then ['\\', 'r']
  else if c == '\t' then ['\\', 't']
  else if c == quote then ['\\', c]
  else if Text.isControl c then '\\' :: 'x' :: Text.hexByte c.toNat
  else [c]

def textLiteral (cs : List Char) : List Char :=
  let quote := quoteFor cs
  quote :: (cs.flatMap (literalChar quote) ++ [quote])

def literalByte (b : UInt8) : List Char :=
  if b = 0x5C then ['\\', '\\']
  else if b = 0x27 then ['\\', '\'']
  else if b = 0x0A then ['\\', 'n']
  else if b = 0x0D then ['\\', 'r']
  else if b = 0x09 then ['\\', 't']
  else if 0x20 ≤ b ∧ b ≤ 0x7E then [Char.ofNat b.toNat]
  else '\\' :: 'x' :: Text.hexByte b.toNat

def bytesLiteral (bytes : List UInt8) : List Char :=
  'b' :: '\'' :: (bytes.flatMap literalByte ++ ['\''])

inductive Container where
  | list (at_ : Ref)
  | tuple (at_ : Ref)
  | set (at_ : Ref)
  | dict (at_ : Ref)
  deriving DecidableEq, Repr

/-- The marker in the place of a container that is not written. -/
def Container.marker : Container → String
  | .list _ => "[...]"
  | .tuple _ => "(...)"
  | .set _ => "{...}"
  | .dict _ => "{...}"

/-- What there is to write for a value: a finished text, or a container. -/
inductive Shape where
  | text (cs : List Char)
  | container (c : Container)

/-- The shape of a value. Objects are written by their type alone. -/
def shape : Value → Shape
  | .null => .text "None".toList
  | .bool b => .text (if b then "True" else "False").toList
  | .int n => .text (toString n.toInt).toList
  | .float x => .text (Decimal.text x)
  | .str s => .text (textLiteral s.toList)
  | .bytes b => .text (bytesLiteral b)
  | .foreign _ _ text => .text text.toList
  | .object t _ => .text ("<" ++ t.text ++ " object>").toList
  | .list r => .container (.list r)
  | .tuple r => .container (.tuple r)
  | .set r => .container (.set r)
  | .dict r => .container (.dict r)

/-- Write a container, given how its elements are written. -/
def Container.write (h : Heap) (item : Writer → Value → Writer) (w : Writer) :
    Container → Writer
  | .list r => ((w.putStr "[").putItems item (h.lists.get r)).putStr "]"
  | .tuple r =>
    match h.tuples.get r with
    | [x] => (item (w.putStr "(") x).putStr ",)"
    | items => ((w.putStr "(").putItems item items).putStr ")"
  | .set r =>
    match h.sets.get r with
    | [] => w.putStr "set()"
    | items => ((w.putStr "\x7b").putItems item items).putStr "\x7d"
  | .dict r =>
    ((w.putStr "\x7b").putItems (fun w e => item ((item w e.1).putStr ": ") e.2)
      (h.dicts.get r)).putStr "\x7d"

/-- Write a value inside the given open containers, with so many nesting levels left. -/
def write (h : Heap) : Nat → List Container → Writer → Value → Writer
  | levels, opened, w, v =>
    if w.cut then w
    else match v.shape with
      | .text cs => w.put cs
      | .container c =>
        if opened.contains c then w.putStr c.marker
        else match levels with
          | 0 => w.putStr c.marker
          | levels + 1 => c.write h (write h levels (c :: opened)) w

def render (h : Heap) (v : Value) (limits : Limits) : String :=
  (v.write h limits.depth [] (Writer.bounded limits.length)).finish

end Value

end RemoteDebugger
