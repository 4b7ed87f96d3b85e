import RemoteDebugger.Text.Blank

/-!
# Readers

Reading from the front of a text by ordered choice: an alternative that fails gives back its input,
and a repetition stops before the first item that cannot be read.
-/

namespace RemoteDebugger

/-- A reader takes something off the front of a text, or fails. -/
abbrev Reader (α : Type) := List Char → Option (α × List Char)

namespace Reader

variable {α β : Type}

/-- The first reader, or the second one if that fails. -/
def orElse (p q : Reader α) : Reader α := fun s =>
  match p s with
  | some r => some r
  | none => q s

def seq (p : Reader α) (q : Reader β) : Reader (α × β) := fun s =>
  match p s with
  | none => none
  | some (a, s) =>
    match q s with
    | none => none
    | some (b, s) => some ((a, b), s)

def map (f : α → β) (p : Reader α) : Reader β := fun s => (p s).map fun r => (f r.1, r.2)

/-- Skip blanks on both sides of what a reader takes. -/
def padded (p : Reader α) : Reader α := fun s =>
  (p (Text.skipBlank s)).map fun r => (r.1, Text.skipBlank r.2)

def text (expected : List Char) : Reader Unit := fun s =>
  if expected.isPrefixOf s then some ((), s.drop expected.length) else none

/-- Items in a row, at most `fuel` of them. -/
def manyUpTo (p : Reader α) : Nat → List Char → List α × List Char
  | 0, s => ([], s)
  | fuel + 1, s =>
    match p s with
    | none => ([], s)
    | some (a, rest) =>
      let (as, rest) := manyUpTo p fuel rest
      (a :: as, rest)

/-- As many items in a row as can be read. Every item takes at least one character, so there are no
more items than characters. -/
def many (p : Reader α) : Reader (List α) := fun s => some (manyUpTo p s.length s)

/-- Items separated by a mark, possibly none; a mark after the last item is allowed. -/
def separated (mark : Reader Unit) (item : Reader α) : Reader (List α) := fun s =>
  match item s with
  | none => some ([], s)
  | some (a, s) =>
    let (as, s) := manyUpTo (map Prod.snd (seq mark item)) s.length s
    match mark s with
    | none => some (a :: as, s)
    | some (_, s) => some (a :: as, s)

def between (opening closing : Reader Unit) (p : Reader α) : Reader α :=
  map (fun r => r.1.2) (seq (seq opening p) closing)

end Reader

end RemoteDebugger
