import RemoteDebugger.Error
import RemoteDebugger.Expression.Basic
import RemoteDebugger.Text.Numeral
import RemoteDebugger.Text.Reader
import RemoteDebugger.Text.Utf8

/-!
# Reading expressions

A recursive descent reader with ordered choice: an alternative that fails gives back its input, and
a repetition stops before the first item that cannot be read. From the loosest binding to the
tightest the levels are `or`, `and`, `not`, comparisons, sums, products, unary minus, suffixes and
atoms; blanks are allowed around every token. All levels between two brackets are ordinary functions
of a reader for what stands inside the brackets, so the recursion of the grammar is over the nesting
of brackets alone.
-/

namespace RemoteDebugger

namespace Expr

open Reader

def ident : Reader String := fun s =>
  match s with
  | [] => none
  | c :: rest =>
    if isIdentStart c then
      some (String.ofList (c :: rest.takeWhile isIdentRest), rest.dropWhile isIdentRest)
    else none

def keyword (word : String) : Reader Unit :=
  padded fun s => (ident s).bind fun r => if r.1 = word then some ((), r.2) else none

def mark (symbol : String) : Reader Unit := padded (text symbol.toList)

/-- The digits of a number before its point: zero alone, or digits of which the first is not
zero. -/
def wholeDigits : Reader (List Char) := fun s =>
  match s with
  | [] => none
  | c :: rest =>
    if c == '0' then some (['0'], rest)
    else if Text.isDigit c then some (c :: rest.takeWhile Text.isDigit, rest.dropWhile Text.isDigit)
    else none

/-- A point and the digits after it. A point without digits is left for an attribute. -/
def fractionDigits : Reader (List Char) := fun s =>
  match s with
  | '.' :: c :: rest =>
    if Text.isDigit c then some (c :: rest.takeWhile Text.isDigit, rest.dropWhile Text.isDigit)
    else none
  | _ => none

/-- A number: an integer of the 64-bit range, or a decimal fraction. -/
def number : Reader Literal := fun s =>
  match wholeDigits s with
  | none => none
  | some (whole, s) =>
    match fractionDigits s with
    | some (fraction, s) =>
      some (.float (Float.ofScientific (Text.digitsValue (whole ++ fraction)) true fraction.length),
        s)
    | none =>
      let n := Text.digitsValue whole
      if n ≤ 9223372036854775807 then some (.int (Int64.ofNat n), s) else none

/-- The character written by a backslash and a letter. -/
def escaped? (c : Char) : Option Char :=
  match c with
  | '\\' => some '\\'
  | '\'' => some '\''
  | '"' => some '"'
  | 'n' => some '\n'
  | 't' => some '\t'
  | 'r' => some '\r'
  | _ => none

/-- The rest of a text literal up to and including its closing quote. -/
def literalRest (quote : Char) : List Char → Option (List Char × List Char)
  | [] => none
  | '\\' :: e :: rest =>
    match escaped? e with
    | some c => (literalRest quote rest).map fun r => (c :: r.1, r.2)
    | none => none
  | c :: rest =>
    if c == quote then some ([], rest)
    else if c == '\\' then none
    else (literalRest quote rest).map fun r => (c :: r.1, r.2)

def textLiteral : Reader Literal := fun s =>
  match s with
  | [] => none
  | c :: rest =>
    if c == '\'' || c == '"' then
      (literalRest c rest).map fun r => (.str (String.ofList r.1), r.2)
    else none

/-- A name, or a literal that is a word. The words that are operators are no names. -/
def word : Reader Expr := fun s =>
  (ident s).bind fun r =>
    match r.1 with
    | "None" => some (.literal .null, r.2)
    | "True" => some (.literal (.bool true), r.2)
    | "False" => some (.literal (.bool false), r.2)
    | "and" | "or" | "not" => none
    | id => some (.name id, r.2)

/-- What may follow an operand: an attribute, an index or arguments. -/
inductive Suffix where
  | attr (id : String)
  | index (position : Expr)
  | call (args : List Expr)

def Suffix.apply (e : Expr) : Suffix → Expr
  | .attr id => .attr e id
  | .index position => .index e position
  | .call args => .call e args

/-- A left-associative level: operands separated by operators. -/
def leftAssoc (op : Reader BinaryOp) (operand : Reader Expr) : Reader Expr :=
  map (fun r => r.2.foldl (fun e p => .binary p.1 e p.2) r.1) (seq operand (many (seq op operand)))

/-- A level of operators before their operand. -/
def withOps (op : Reader UnaryOp) (operand : Reader Expr) : Reader Expr :=
  map (fun r => r.1.foldr (fun o e => .unary o e) r.2) (seq (many op) operand)

/-- A literal, a name or an expression in parentheses. -/
def atom (inner : Reader Expr) : Reader Expr :=
  padded (orElse (map Expr.literal (orElse number textLiteral))
    (orElse word (between (mark "(") (mark ")") inner)))

def suffixForm (inner : Reader Expr) : Reader Suffix :=
  orElse (map (fun r => Suffix.attr r.2) (seq (mark ".") ident))
    (orElse (map Suffix.index (between (mark "[") (mark "]") inner))
      (map Suffix.call (between (mark "(") (mark ")") (separated (mark ",") inner))))

def suffixed (inner : Reader Expr) : Reader Expr :=
  map (fun r => r.2.foldl Suffix.apply r.1) (seq (atom inner) (many (suffixForm inner)))

def negated (inner : Reader Expr) : Reader Expr :=
  withOps (map (fun _ => .neg) (mark "-")) (suffixed inner)

def productOp : Reader BinaryOp :=
  orElse (map (fun _ => .mul) (mark "*"))
    (orElse (map (fun _ => .div) (mark "/")) (map (fun _ => .mod) (mark "%")))

def sumOp : Reader BinaryOp :=
  orElse (map (fun _ => .add) (mark "+")) (map (fun _ => .sub) (mark "-"))

/-- The comparison operators; the longer ones come first. -/
def comparisonOp : Reader BinaryOp :=
  padded (orElse (map (fun _ => .eq) (text "==".toList))
    (orElse (map (fun _ => .ne) (text "!=".toList))
      (orElse (map (fun _ => .le) (text "<=".toList))
        (orElse (map (fun _ => .ge) (text ">=".toList))
          (orElse (map (fun _ => .lt) (text "<".toList)) (map (fun _ => .gt) (text ">".toList)))))))

def product (inner : Reader Expr) : Reader Expr := leftAssoc productOp (negated inner)

def sum (inner : Reader Expr) : Reader Expr := leftAssoc sumOp (product inner)

def comparison (inner : Reader Expr) : Reader Expr := leftAssoc comparisonOp (sum inner)

def negation (inner : Reader Expr) : Reader Expr :=
  withOps (map (fun _ => .not) (keyword "not")) (comparison inner)

def conjunction (inner : Reader Expr) : Reader Expr :=
  leftAssoc (map (fun _ => .and) (keyword "and")) (negation inner)

/-- Disjunctions: all levels of the grammar, given a reader for what stands inside brackets. -/
def disjunction (inner : Reader Expr) : Reader Expr :=
  leftAssoc (map (fun _ => .or) (keyword "or")) (conjunction inner)

/-- Expressions whose brackets are nested less than `depth` deep. -/
def nested : Nat → Reader Expr
  | 0 => fun _ => none
  | depth + 1 => disjunction (nested depth)

/-- The text from front to end, with brackets nested less than `depth` deep. -/
def readNested (depth : Nat) (s : List Char) : Option Expr :=
  match padded (nested depth) s with
  | some (e, []) => some e
  | _ => none

/-- The text from front to end by the unrestricted grammar. Each bracket takes a character, so the
length of the text bounds its nesting. -/
def read (s : List Char) : Option Expr := readNested (s.length + 1) s

/-- Where the scan for brackets is: inside a text literal, perhaps after a backslash, or outside. -/
structure NestingScan where
  depth : Nat := 0
  quote : Option Char := none
  escaped : Bool := false
  deriving DecidableEq, Repr

/-- Scan one character. Brackets inside text literals do not count, and a closing bracket without an
opening one is ignored. -/
def NestingScan.step (scan : NestingScan) (c : Char) : NestingScan :=
  match scan.quote with
  | some q =>
    if scan.escaped then { scan with escaped := false }
    else if c == '\\' then { scan with escaped := true }
    else if c == q then { scan with quote := none }
    else scan
  | none =>
    if c == '\'' || c == '"' then { scan with quote := some c }
    else if c == '(' || c == '[' then { scan with depth := scan.depth + 1 }
    else if c == ')' || c == ']' then { scan with depth := scan.depth - 1 }
    else scan

/-- Some prefix of the text opens more than `maxNesting` brackets that it does not close. -/
def tooDeepFrom : NestingScan → List Char → Bool
  | _, [] => false
  | scan, c :: rest =>
    let next := scan.step c
    next.depth > maxNesting || tooDeepFrom next rest

/-- Refuse texts that are too long or nested too deeply to be read. -/
def checkNesting (s : List Char) : Except ParseFault Unit :=
  if (Text.encode s).length > maxExpressionLength then .error .tooLong
  else if tooDeepFrom {} s then .error .tooDeep
  else .ok ()

def parse (input : String) : Except ParseFault Expr :=
  match checkNesting input.toList with
  | .error fault => .error fault
  | .ok () =>
    match read input.toList with
    | some e => .ok e
    | none => .error .malformed

end Expr

end RemoteDebugger
