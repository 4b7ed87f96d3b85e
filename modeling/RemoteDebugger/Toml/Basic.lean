/-!
# TOML documents

The values of a TOML document and how its statements build the tables. A table remembers how it came
about, since a table is defined once: headers may fill in tables that earlier headers only implied,
dotted keys may extend tables that dotted keys made, and nothing may be added to an inline table or
set twice.
-/

namespace RemoteDebugger

/-- How a table came about. -/
inductive Toml.Origin where
  /-- Written in braces. -/
  | inline
  /-- Named by a header of its own; the document itself counts as such. -/
  | header
  /-- Only passed through by a longer header. -/
  | implied
  /-- Passed through by a dotted key. -/
  | dotted
  deriving DecidableEq, Repr

/-- A TOML value. Dates and fractional numbers are known by kind alone. -/
inductive Toml where
  | str (s : String)
  | int (n : Int)
  | float
  | bool (b : Bool)
  | datetime
  | array (items : List Toml)
  | table (origin : Toml.Origin) (entries : List (String × Toml))
  /-- Tables under one header each, which together are an array. -/
  | tables (elements : List Toml)

namespace Toml

instance : Inhabited Toml := ⟨.datetime⟩

abbrev Entries := List (String × Toml)

/-- Replace the value of a key, or append it. -/
def putEntry (key : String) (value : Toml) : Entries → Entries
  | [] => [(key, value)]
  | (k, v) :: rest => if k = key then (k, value) :: rest else (k, v) :: putEntry key value rest

/-- A table that a path passes through for the first time. -/
def fresh (dotted : Bool) : Toml := .table (if dotted then .dotted else .implied) []

/-- A change of a table, which may fail. -/
abbrev Change := Origin → Entries → Option Toml

/-- Apply a change to a table, or to the last one of tables under a repeated header. -/
def changeHere (f : Change) : Toml → Option Toml
  | .table o es => f o es
  | .tables elements =>
    match elements.getLast? with
    | some (.table o es) => (f o es).map fun t => .tables (elements.dropLast ++ [t])
    | _ => none
  | _ => none

/-- A path may pass through a value: headers pass through every table that is no plain value, dotted
keys only through tables that no header names. -/
def passable (dotted : Bool) : Toml → Bool
  | .table .inline _ => false
  | .table .header _ => !dotted
  | _ => true

/-- Apply a change to the table at a path, making the tables on the way. -/
def changeAt (dotted : Bool) (f : Change) : List String → Change
  | [], o, es => f o es
  | key :: path, o, es =>
    let child := (es.lookup key).getD (fresh dotted)
    if passable dotted child then
      (changeHere (changeAt dotted f path) child).map fun t => .table o (putEntry key t es)
    else none

/-- Set a key of a table. The key must be new, and a dotted key must not end in a table that a
header implied. -/
def setKey (dotted : Bool) (key : String) (value : Toml) : Change := fun o es =>
  if (es.lookup key).isSome || (dotted != (o == .dotted)) then none
  else some (.table o (es ++ [(key, value)]))

def setPath (path : List String) (value : Toml) : Change := fun o es =>
  match path.getLast? with
  | none => none
  | some key =>
    let parents := path.dropLast
    changeAt true (setKey (!parents.isEmpty) key value) parents o es

def defineTable (key : String) : Change := fun o es =>
  match es.lookup key with
  | none => some (.table o (es ++ [(key, .table .header [])]))
  | some (.table .implied inner) => some (.table o (putEntry key (.table .header inner) es))
  | some _ => none

/-- Begin another table under a repeated header. -/
def appendTable (key : String) : Change := fun o es =>
  let table : Toml := .table .header []
  match es.lookup key with
  | none => some (.table o (es ++ [(key, .tables [table])]))
  | some (.tables elements) => some (.table o (putEntry key (.tables (elements ++ [table])) es))
  | some _ => none

/-- Follow a header: `define` makes the table of the last key. -/
def followHeader (define : String → Change) (path : List String) : Change := fun o es =>
  match path.getLast? with
  | none => none
  | some key => changeAt false (define key) path.dropLast o es

/-- Inside the table of the current header. -/
def inTable (current : List String) (f : Change) : Change := changeAt false f current

end Toml

end RemoteDebugger
