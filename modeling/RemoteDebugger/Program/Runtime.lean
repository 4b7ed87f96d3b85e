import RemoteDebugger.Expression.Eval

/-!
# The host runtime

What the engine asks of the language runtime it is embedded in, always for a thread stopped inside
the engine. A host may answer everything in its own way; the built-in runtime answers with the
expression language.
-/

namespace RemoteDebugger

/-- A proposal to complete what a user has typed. -/
structure Completion where
  name : String
  doc : String := ""
  args : String := ""
  kind : Nat
  deriving DecidableEq, Repr

/-- Kinds of completions: variables and attributes. -/
def Completion.variableKind : Nat := 11

@[inherit_doc Completion.variableKind] def Completion.attributeKind : Nat := 13

/-- Evaluation of a text in a frame: the value, and the heap with what evaluation has added. -/
abbrev Evaluator := Program → FrameRef → String → Except Error (Value × Heap)

structure Runtime where
  evaluate : Evaluator
  execute : Evaluator
  completions : Program → FrameRef → String → Except Error (List Completion)
  customOperation : Heap → Value → (style code function : String) → Except Error String
  reloadModule : String → Except Error Bool

namespace Runtime

def splitLastPoint (token : List Char) : Option (List Char × List Char) :=
  let tail := token.reverse.takeWhile (· != '.')
  match token.reverse.dropWhile (· != '.') with
  | [] => none
  | _ :: head => some (head.reverse, tail.reverse)

/-- The first occurrence of every name. The order of what remains is kept. -/
def distinct (names : List String) : List String :=
  names.foldl (fun seen n => if seen.contains n then seen else seen ++ [n]) []

/-- Completions among names: those that begin with the typed text, each once. -/
def matching (typed : List Char) (kind : Nat) (names : List String) : List Completion :=
  (distinct (names.filter fun n => typed.isPrefixOf n.toList)).map fun n =>
    { name := n, kind := kind }

/-- Completions of a token: variables of the frame, or after a point the attributes of the object
before it. -/
def completionsOf (evaluate : Evaluator) (p : Program) (r : FrameRef) (token : String) :
    Except Error (List Completion) :=
  match splitLastPoint token.toList with
  | none =>
    let f := p.frame r
    .ok (matching token.toList Completion.variableKind ((f.locals ++ f.globals).map Prod.fst))
  | some (base, typed) => do
    match ← evaluate p r (String.ofList base) with
    | (.object _ o, h) =>
      pure (matching typed Completion.attributeKind ((h.objects.get o).map Prod.fst))
    | _ => pure []

/-- A runtime that can evaluate and nothing else. -/
def ofEvaluator (evaluate : Evaluator) : Runtime where
  evaluate := evaluate
  execute := evaluate
  completions := completionsOf evaluate
  customOperation := fun _ _ _ _ _ => .error (.unsupported "custom operation")
  reloadModule := fun _ => .error (.unsupported "code reload")

/-- The runtime of the expression language. -/
def builtin : Runtime := ofEvaluator Expr.evaluate

end Runtime

end RemoteDebugger
