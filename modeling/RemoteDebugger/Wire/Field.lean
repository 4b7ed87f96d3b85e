import RemoteDebugger.Wire.Percent

/-!
# Fields of a payload

The payload of most requests is a list of fields separated by tabs. Inside a field, tabs, line
breaks and percent signs are escaped, so a field may hold any text; the payload as a whole is then
percent-encoded once more for the line it travels in.
-/

namespace RemoteDebugger.Wire

def escapeChar (c : Char) : List Char :=
  match c with
  | '%' => ['%', '2', '5']
  | '\t' => ['%', '0', '9']
  | '\n' => ['%', '0', 'A']
  | '\r' => ['%', '0', 'D']
  | c => [c]

def escapeField (field : String) : String := String.ofList (field.toList.flatMap escapeChar)

def unescapeField (field : String) : String := unquote field

def joinFields (fields : List String) : String := "\t".intercalate (fields.map escapeField)

def splitFields (payload : String) : List String :=
  (payload.toList.splitOn '\t').map fun field => unescapeField (String.ofList field)

end RemoteDebugger.Wire
