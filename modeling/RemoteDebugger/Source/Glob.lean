import RemoteDebugger.Text.Regex

/-!
# Glob patterns

A pattern matches a whole text. A star stands for any characters without a line feed, every other
character for itself.
-/

namespace RemoteDebugger.Source.Glob

def isMatch : List Char → List Char → Bool
  | [], s => s.isEmpty
  | c :: pattern, s =>
    if c == '*' then starMatch (isMatch pattern) s
    else match s with
      | [] => false
      | d :: s => c == d && isMatch pattern s
where
  /-- Some end of the text matches what follows a star, and no line feed comes before it. -/
  starMatch (rest : List Char → Bool) : List Char → Bool
    | [] => rest []
    | d :: s => rest (d :: s) || (d != '\n' && starMatch rest s)

/-- The pattern as the text of a regular expression: what is between its stars, escaped and with
`.*` in the place of each star, from one end of a text to the other. -/
def expression (pattern : List Char) : List Char :=
  '^' :: (['.', '*'].intercalate ((pattern.splitOn '*').map Text.Regex.escape) ++ ['$'])

end RemoteDebugger.Source.Glob
