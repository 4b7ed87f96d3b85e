import RemoteDebugger.Proofs.Expression.Lexeme

/-!
# The nesting of brackets in a written expression

Which expressions have a text in the grammar, and how deep the brackets of this text are nested,
read off the tree: an index, an argument and an expression in parentheses is one bracket further in
than what stands around it. The scan of the text finds this depth and nothing more. The brackets
inside a text literal are no concern of it, because it leaves the literal exactly at its closing
quote.
-/

namespace RemoteDebugger

/-- The literals that are written as themselves: negative numbers and floating point numbers are
not. -/
def Literal.IsWritable : Literal → Prop
  | .null | .bool _ => True
  | .int n => 0 ≤ n.toInt
  | .float _ => False
  | .str s => ∀ c ∈ s.toList, Expr.IsLiteralChar c

instance (l : Literal) : Decidable l.IsWritable :=
  match l with
  | .null | .bool _ => .isTrue trivial
  | .int n => inferInstanceAs (Decidable (0 ≤ n.toInt))
  | .float _ => .isFalse id
  | .str s => List.decidableBAll Expr.IsLiteralChar s.toList

namespace Expr

/-- The expressions that have a text in the grammar. Every word that is an identifier may be an
attribute, and all but the keywords are names. -/
inductive IsWritable : Expr → Prop
  | literal {l : Literal} (h : l.IsWritable) : IsWritable (.literal l)
  | name {id : String} (ident : isIdent id.toList = true) (free : id ∉ keywords) :
      IsWritable (.name id)
  | attr {base : Expr} {id : String} (h : IsWritable base) (ident : isIdent id.toList = true) :
      IsWritable (.attr base id)
  | index {base position : Expr} (h : IsWritable base) (inside : IsWritable position) :
      IsWritable (.index base position)
  | call {callee : Expr} {args : List Expr} (h : IsWritable callee)
      (inside : ∀ a ∈ args, IsWritable a) : IsWritable (.call callee args)
  | unary (op : UnaryOp) {operand : Expr} (h : IsWritable operand) : IsWritable (.unary op operand)
  | binary (op : BinaryOp) {lhs rhs : Expr} (left : IsWritable lhs) (right : IsWritable rhs) :
      IsWritable (.binary op lhs rhs)

mutual

/-- How deep brackets are nested in the text of an expression in a place of the given level. -/
def nestingAt (level : Nat) : Expr → Nat
  | .literal _ => 0
  | .name _ => 0
  | .attr base _ => nestingAt suffixLevel base
  | .index base position => max (nestingAt suffixLevel base) (nestingAt 0 position + 1)
  | .call callee args => max (nestingAt suffixLevel callee) (nestingArgs args + 1)
  | .unary op operand => nestingAt op.level operand + if op.level < level then 1 else 0
  | .binary op lhs rhs =>
    max (nestingAt op.level lhs) (nestingAt (op.level + 1) rhs) + if op.level < level then 1 else 0

@[inherit_doc nestingAt] def nestingArgs : List Expr → Nat
  | [] => 0
  | e :: rest => max (nestingAt 0 e) (nestingArgs rest)

end

/-- How deep brackets are nested in the text of an expression. -/
def nesting (e : Expr) : Nat := nestingAt 0 e

theorem le_nestingArgs {args : List Expr} {a : Expr} (member : a ∈ args) :
    nestingAt 0 a ≤ nestingArgs args := by
  induction args with
  | nil => cases member
  | cons b rest ih =>
      rw [nestingArgs]
      rcases List.mem_cons.mp member with rfl | later
      · exact Nat.le_max_left _ _
      · exact Nat.le_trans (ih later) (Nat.le_max_right _ _)

def NestingScan.outside (depth : Nat) : NestingScan := { depth := depth }

def NestingScan.within (depth : Nat) (quote : Char) : NestingScan :=
  { depth := depth, quote := some quote }

open NestingScan (outside within)

/-- Neither a bracket nor a quote. -/
def IsPlain (c : Char) : Prop := c ∉ ['\'', '"', '(', '[', ')', ']']

instance (c : Char) : Decidable (IsPlain c) := inferInstanceAs (Decidable (_ ∉ _))

instance (cs : List Char) : Decidable (∀ c ∈ cs, IsPlain c) := List.decidableBAll IsPlain cs

section

variable {depth : Nat} {rest : List Char}

/-- The scan passes over characters that are neither brackets nor quotes. -/
theorem tooDeepFrom_plain (small : depth ≤ maxNesting) {cs : List Char}
    (plain : ∀ c ∈ cs, IsPlain c) :
    tooDeepFrom (outside depth) (cs ++ rest) = tooDeepFrom (outside depth) rest := by
  induction cs with
  | nil => rfl
  | cons c cs ih =>
      have here := plain c List.mem_cons_self
      simp only [IsPlain, List.mem_cons, List.not_mem_nil, or_false, not_or] at here
      have same : (outside depth).step c = outside depth := by
        simp [NestingScan.step, outside, here]
      rw [List.cons_append, tooDeepFrom, same, ih fun d later =>
        plain d (List.mem_cons_of_mem c later)]
      simp [outside, Nat.not_lt.mpr small]

theorem tooDeepFrom_opening {c : Char} (opening : c = '(' ∨ c = '[') :
    tooDeepFrom (outside depth) (c :: rest) =
      (decide (maxNesting < depth + 1) || tooDeepFrom (outside (depth + 1)) rest) := by
  rcases opening with rfl | rfl <;> rfl

/-- A closing bracket takes the scan one level up. -/
theorem tooDeepFrom_closing (small : depth ≤ maxNesting) {c : Char} (closing : c = ')' ∨ c = ']') :
    tooDeepFrom (outside (depth + 1)) (c :: rest) = tooDeepFrom (outside depth) rest := by
  have same : (outside (depth + 1)).step c = outside depth := by
    rcases closing with rfl | rfl <;> rfl
  rw [tooDeepFrom, same]
  simp [outside, Nat.not_lt.mpr small]

theorem step_within_plain {quote c : Char} (no_backslash : c ≠ '\\') (no_quote : c ≠ quote) :
    (within depth quote).step c = within depth quote := by
  simp [NestingScan.step, within, no_backslash, no_quote]

/-- The character after a backslash is passed over, whatever it is. -/
theorem tooDeepFrom_escape (small : depth ≤ maxNesting) (quote e : Char) :
    tooDeepFrom (within depth quote) ('\\' :: e :: rest) =
      tooDeepFrom (within depth quote) rest := by
  simp [tooDeepFrom, NestingScan.step, within, Nat.not_lt.mpr small]

/-- Inside a text literal the scan passes over everything, quotes and brackets of the text
included. -/
theorem tooDeepFrom_flatMap (small : depth ≤ maxNesting) {quote : Char}
    (letter : escaped? quote = some quote) {cs : List Char} (h : ∀ c ∈ cs, IsLiteralChar c) :
    tooDeepFrom (within depth quote) (cs.flatMap (Value.literalChar quote) ++ rest) =
      tooDeepFrom (within depth quote) rest := by
  induction cs with
  | nil => rfl
  | cons c cs ih =>
      have others := ih fun d later => h d (List.mem_cons_of_mem c later)
      rw [List.flatMap_cons, List.append_assoc]
      rcases literalChar_cases (h c List.mem_cons_self) letter with
        ⟨written, plain, other⟩ | ⟨e, written, -⟩
      · rw [written, List.singleton_append, tooDeepFrom, step_within_plain plain other, others]
        simp [within, Nat.not_lt.mpr small]
      · rw [written, List.cons_append, List.singleton_append, tooDeepFrom_escape small, others]

/-- The scan passes over a text literal, whatever the text is. -/
theorem tooDeepFrom_textLiteral (small : depth ≤ maxNesting) {cs : List Char}
    (h : ∀ c ∈ cs, IsLiteralChar c) :
    tooDeepFrom (outside depth) (Value.textLiteral cs ++ rest) =
      tooDeepFrom (outside depth) rest := by
  have not_deep : ¬ maxNesting < depth := Nat.not_lt.mpr small
  have scan {quote : Char} (same : Value.quoteFor cs = quote) (letter : escaped? quote = some quote)
      (enter : (outside depth).step quote = within depth quote)
      (leave : (within depth quote).step quote = outside depth) :
      tooDeepFrom (outside depth) (Value.textLiteral cs ++ rest) =
        tooDeepFrom (outside depth) rest := by
    rw [Value.textLiteral, same, List.cons_append, List.append_assoc, List.singleton_append,
      tooDeepFrom, enter, tooDeepFrom_flatMap small letter h, tooDeepFrom, leave]
    simp [outside, within, not_deep]
  rcases quoteFor_cases cs with single | double
  · exact scan single rfl rfl rfl
  · exact scan double rfl rfl rfl

end

theorem isPlain_of_isIdentRest {c : Char} (h : isIdentRest c = true) : IsPlain c := by
  have no (d : Char) (apart : isIdentRest d = false) : c ≠ d := by
    rintro rfl
    rw [apart] at h
    cases h
  simp [IsPlain, no '\'' (by decide), no '"' (by decide), no '(' (by decide), no '[' (by decide),
    no ')' (by decide), no ']' (by decide)]

theorem isPlain_of_isIdent {cs : List Char} (h : isIdent cs = true) : ∀ c ∈ cs, IsPlain c :=
  fun c member => isPlain_of_isIdentRest (isIdentRest_of_mem h c member)

theorem isPlain_of_isDigit {c : Char} (h : Text.isDigit c = true) : IsPlain c :=
  isPlain_of_isIdentRest (isIdentRest_of_isDigit h)

theorem isPlain_symbol (op : BinaryOp) : ∀ c ∈ op.symbol.toList, IsPlain c := by
  cases op <;> decide

theorem isPlain_sign (op : UnaryOp) : ∀ c ∈ op.symbol.toList, IsPlain c := by
  cases op <;> decide

/-- Brackets are nested `n` deep in a text, and the text closes all that it opens. -/
def Deepens (n : Nat) (cs : List Char) : Prop :=
  ∀ depth rest, depth ≤ maxNesting → tooDeepFrom (outside depth) (cs ++ rest) =
    (decide (maxNesting < depth + n) || tooDeepFrom (outside depth) rest)

theorem Deepens.plain {cs : List Char} (plain : ∀ c ∈ cs, IsPlain c) : Deepens 0 cs := by
  intro depth rest small
  rw [tooDeepFrom_plain small plain]
  simp [Nat.not_lt.mpr small]

theorem Deepens.textLiteral {cs : List Char} (h : ∀ c ∈ cs, IsLiteralChar c) :
    Deepens 0 (Value.textLiteral cs) := by
  intro depth rest small
  rw [tooDeepFrom_textLiteral small h]
  simp [Nat.not_lt.mpr small]

/-- Of two texts one after the other, the deeper one counts. -/
theorem Deepens.append {m n : Nat} {cs ds : List Char} (first : Deepens m cs)
    (second : Deepens n ds) :
    Deepens (max m n) (cs ++ ds) := by
  intro depth rest small
  have either : decide (maxNesting < depth + max m n) =
      (decide (maxNesting < depth + m) || decide (maxNesting < depth + n)) := by
    rw [← Bool.decide_or, decide_eq_decide]
    omega
  rw [List.append_assoc, first depth _ small, second depth rest small, either, Bool.or_assoc]

/-- Brackets around a text make it one deeper. -/
theorem Deepens.bracket {n : Nat} {cs : List Char} (h : Deepens n cs) {c d : Char}
    (opening : c = '(' ∨ c = '[') (closing : d = ')' ∨ d = ']') :
    Deepens (n + 1) (c :: (cs ++ [d])) := by
  intro depth rest small
  rw [List.cons_append, List.append_assoc, List.singleton_append, tooDeepFrom_opening opening]
  by_cases deep : maxNesting < depth + 1
  · have deeper : maxNesting < depth + (n + 1) := by omega
    simp [deep, deeper]
  · rw [h (depth + 1) _ (Nat.not_lt.mp deep), tooDeepFrom_closing small closing]
    simp [deep, Nat.add_comm, Nat.add_left_comm]

theorem Deepens.enclose {n : Nat} {cs : List Char} (h : Deepens n cs) (needed : Bool) :
    Deepens (n + if needed then 1 else 0) (enclose needed cs) := by
  cases needed with
  | false => exact h
  | true => exact h.bracket (.inl rfl) (.inl rfl)

theorem Deepens.of_eq {m n : Nat} {cs ds : List Char} (h : Deepens m cs) (size : m = n)
    (text : cs = ds) :
    Deepens n ds := size ▸ text ▸ h

def argsTail (args : List Expr) : List Char := args.flatMap fun e => ',' :: ' ' :: printAt 0 e

/-- The arguments are written one after the other, with a comma before each but the first. -/
theorem printArgs_cons (a : Expr) (args : List Expr) :
    printArgs (a :: args) = printAt 0 a ++ argsTail args := by
  induction args generalizing a with
  | nil => rw [printArgs, argsTail, List.flatMap_nil, List.append_nil]
  | cons b rest ih =>
      rw [printArgs, ih, argsTail, argsTail, List.flatMap_cons]
      · rfl
      · exact fun h => nomatch h

/-- A literal has no brackets, as far as the scan is concerned. -/
theorem deepens_literalText {l : Literal} (h : l.IsWritable) : Deepens 0 (literalText l) := by
  cases l with
  | null => exact .plain (by decide)
  | bool b => cases b <;> exact .plain (by decide)
  | int n =>
      refine .plain ?_
      rw [literalText, Text.toList_toString_int, if_neg (Int.not_lt.mpr h)]
      exact fun c member => isPlain_of_isDigit (Text.isDigit_of_mem_toDigits member)
  | float x => cases h
  | str s => exact .textLiteral h

/-- Arguments are nested as deep as the deepest of them. -/
theorem deepens_printArgs {args : List Expr}
    (h : ∀ a ∈ args, Deepens (nestingAt 0 a) (printAt 0 a)) :
    Deepens (nestingArgs args) (printArgs args) := by
  have tail (as : List Expr) (h : ∀ a ∈ as, Deepens (nestingAt 0 a) (printAt 0 a)) :
      Deepens (nestingArgs as) (argsTail as) := by
    induction as with
    | nil => exact .plain nofun
    | cons a as ih =>
        have separator : Deepens 0 [',', ' '] := .plain (by decide)
        have here := separator.append (h a List.mem_cons_self)
        have both := here.append (ih fun b later => h b (List.mem_cons_of_mem a later))
        exact both.of_eq (by rw [nestingArgs, Nat.zero_max]) (by simp [argsTail])
  cases args with
  | nil => exact .plain nofun
  | cons a as =>
      rw [printArgs_cons, nestingArgs]
      exact (h a List.mem_cons_self).append (tail as fun b later =>
        h b (List.mem_cons_of_mem a later))

/-- The brackets of a written expression are nested as deep as its tree says. -/
theorem deepens_printAt {e : Expr} (h : IsWritable e) (level : Nat) :
    Deepens (nestingAt level e) (printAt level e) := by
  induction h generalizing level with
  | literal h =>
      rw [nestingAt, printAt]
      exact deepens_literalText h
  | name ident =>
      rw [nestingAt, printAt]
      exact .plain (isPlain_of_isIdent ident)
  | @attr base id _ ident ih =>
      have suffix : Deepens 0 ('.' :: id.toList) := by
        refine .plain fun c member => ?_
        rcases List.mem_cons.mp member with rfl | inside
        · decide
        · exact isPlain_of_isIdent ident c inside
      rw [nestingAt, printAt]
      exact ((ih suffixLevel).append suffix).of_eq (Nat.max_zero _) rfl
  | index _ _ ih inside =>
      rw [nestingAt, printAt]
      exact (ih suffixLevel).append ((inside 0).bracket (.inr rfl) (.inr rfl))
  | call _ _ ih inside =>
      rw [nestingAt, printAt]
      have args := deepens_printArgs fun a member => inside a member 0
      exact (ih suffixLevel).append (args.bracket (.inl rfl) (.inl rfl))
  | unary op _ ih =>
      have sign : Deepens 0 op.symbol.toList := .plain (isPlain_sign op)
      have bare := (sign.append (ih op.level)).of_eq (Nat.zero_max _) rfl
      rw [nestingAt, printAt]
      exact (bare.enclose _).of_eq (by simp) rfl
  | binary op _ _ ihl ihr =>
      have symbol : Deepens 0 (' ' :: (op.symbol.toList ++ [' '])) := by
        refine .plain fun c member => ?_
        simp only [List.mem_cons, List.mem_append, List.not_mem_nil, or_false] at member
        rcases member with rfl | inside | rfl
        · decide
        · exact isPlain_symbol op c inside
        · decide
      have bare := (ihl op.level).append (symbol.append (ihr (op.level + 1)))
      rw [nestingAt, printAt]
      exact (bare.enclose (decide (op.level < level))).of_eq (by simp) (by simp)

theorem length_enclose (needed : Bool) (cs : List Char) :
    cs.length + (if needed then 1 else 0) ≤ (enclose needed cs).length := by
  cases needed <;> simp [enclose]

/-- Each level of nesting costs the arguments at least one character. -/
theorem nestingArgs_le_length {args : List Expr}
    (h : ∀ a ∈ args, nestingAt 0 a ≤ (printAt 0 a).length) :
    nestingArgs args ≤ (printArgs args).length := by
  have tail (as : List Expr) (h : ∀ a ∈ as, nestingAt 0 a ≤ (printAt 0 a).length) :
      nestingArgs as ≤ (argsTail as).length := by
    induction as with
    | nil => exact Nat.le_refl 0
    | cons a as ih =>
        have here := h a List.mem_cons_self
        have later := ih fun b member => h b (List.mem_cons_of_mem a member)
        simp only [nestingArgs, argsTail, List.flatMap_cons, List.length_append,
          List.length_cons] at later ⊢
        omega
  cases args with
  | nil => exact Nat.le_refl 0
  | cons a as =>
      have here := h a List.mem_cons_self
      have later := tail as fun b member => h b (List.mem_cons_of_mem a member)
      rw [printArgs_cons, nestingArgs, List.length_append]
      omega

/-- Every bracket is a character. -/
theorem nestingAt_le_length {e : Expr} (h : IsWritable e) (level : Nat) :
    nestingAt level e ≤ (printAt level e).length := by
  induction h generalizing level with
  | literal | name => exact Nat.zero_le _
  | attr _ _ ih =>
      have base := ih suffixLevel
      rw [nestingAt, printAt, List.length_append]
      omega
  | index _ _ ih inside =>
      have base := ih suffixLevel
      have position := inside 0
      simp only [nestingAt, printAt, List.length_append, List.length_cons]
      omega
  | call _ _ ih inside =>
      have base := ih suffixLevel
      have args := nestingArgs_le_length fun a member => inside a member 0
      simp only [nestingAt, printAt, List.length_append, List.length_cons]
      omega
  | unary op _ ih =>
      have operand := ih op.level
      rw [nestingAt, printAt]
      refine Nat.le_trans ?_ (length_enclose _ _)
      simp only [List.length_append, decide_eq_true_eq]
      omega
  | binary op _ _ ihl ihr =>
      have left := ihl op.level
      have right := ihr (op.level + 1)
      rw [nestingAt, printAt]
      refine Nat.le_trans ?_ (length_enclose _ _)
      simp only [List.length_append, List.length_cons, decide_eq_true_eq]
      omega

/-- The scan refuses the text of an expression exactly if its brackets are nested too deeply. -/
theorem tooDeepFrom_print {e : Expr} (h : IsWritable e) :
    tooDeepFrom {} (printAt 0 e) = decide (maxNesting < e.nesting) := by
  have scanned := deepens_printAt h 0 0 [] (Nat.zero_le _)
  rw [List.append_nil, Nat.zero_add] at scanned
  rw [nesting]
  exact scanned.trans (Bool.or_false _)

end Expr

end RemoteDebugger
