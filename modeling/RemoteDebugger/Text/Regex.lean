/-!
# Regular expressions

The regular expressions that glob patterns stand for: characters, the two anchors, and `.*` for any
characters without a line feed. A character that has a meaning of its own is written with a
backslash. An expression matches a text if it takes some part of it; an anchor holds only at its end
of the text.
-/

namespace RemoteDebugger.Text

inductive RegexPart where
  | char (c : Char)
  | anything
  | start
  | stop
  deriving DecidableEq, Repr

/-- Parts that take the text one after the other. -/
abbrev Regex := List RegexPart

namespace Regex

/-- The character has a meaning of its own in a regular expression, which a backslash takes away. -/
def isMeta (c : Char) : Bool := "\\.+*?()|[]\x7b\x7d^$#&-~".toList.contains c

/-- The text of an expression that stands for the given characters. -/
def escape (cs : List Char) : List Char := cs.flatMap fun c => if isMeta c then ['\\', c] else [c]

/-- Read an expression. Other signs than the ones above are not read. -/
def read : List Char → Option Regex
  | [] => some []
  | '\\' :: c :: cs => if isMeta c then (read cs).map (.char c :: ·) else none
  | '.' :: '*' :: cs => (read cs).map (.anything :: ·)
  | '^' :: cs => (read cs).map (.start :: ·)
  | '$' :: cs => (read cs).map (.stop :: ·)
  | c :: cs => if isMeta c then none else (read cs).map (.char c :: ·)

/-- An expression takes a part of a text, with the given characters before it and after it. -/
inductive Takes : Regex → (before taken after : List Char) → Prop
  | nothing {before after : List Char} : Takes [] before [] after
  | char {c : Char} {r : Regex} {before taken after : List Char}
      (rest : Takes r (before ++ [c]) taken after) : Takes (.char c :: r) before (c :: taken) after
  | anything {r : Regex} {before w taken after : List Char} (line : '\n' ∉ w)
      (rest : Takes r (before ++ w) taken after) : Takes (.anything :: r) before (w ++ taken) after
  | start {r : Regex} {taken after : List Char} (rest : Takes r [] taken after) :
      Takes (.start :: r) [] taken after
  | stop {r : Regex} {before : List Char} (rest : Takes r before [] []) :
      Takes (.stop :: r) before [] []

/-- The expression takes some part of the text. -/
def Matches (r : Regex) (text : List Char) : Prop :=
  ∃ before taken after, text = before ++ taken ++ after ∧ Takes r before taken after

end Regex

end RemoteDebugger.Text
