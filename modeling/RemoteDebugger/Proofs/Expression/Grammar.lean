import RemoteDebugger.Proofs.Expression.Lexeme

/-!
# The levels of the grammar

The readers of expressions as one family, from disjunctions down to atoms with their suffixes. A
level is either one of operators between operands or one of operators before an operand, and both
are read operator by operator: every reader takes at least one character, so no bound on the number
of operators is felt. What may stand behind an expression depends on the level it is written for. A
closing mark and an operator that binds less tightly belong to no reader of this level, so each of
them stops there.
-/

namespace RemoteDebugger

theorem BinaryOp.level_lt (op : BinaryOp) : op.level < Expr.suffixLevel := by
  cases op <;> decide

theorem UnaryOp.level_lt (op : UnaryOp) : op.level < Expr.suffixLevel := by
  cases op <;> decide

namespace Expr

open Reader

def operatorAt : Nat → Reader BinaryOp
  | 0 => map (fun _ => .or) (keyword "or")
  | 1 => map (fun _ => .and) (keyword "and")
  | 3 => comparisonOp
  | 4 => sumOp
  | _ => productOp

def leadingAt : Nat → Reader UnaryOp
  | 2 => map (fun _ => .not) (keyword "not")
  | _ => map (fun _ => .neg) (mark "-")

def levelReader (inner : Reader Expr) : Nat → Reader Expr
  | 0 => disjunction inner
  | 1 => conjunction inner
  | 2 => negation inner
  | 3 => comparison inner
  | 4 => sum inner
  | 5 => product inner
  | 6 => negated inner
  | _ => suffixed inner

theorem levelReader_binary (inner : Reader Expr) (op : BinaryOp) :
    levelReader inner op.level =
      leftAssoc (operatorAt op.level) (levelReader inner (op.level + 1)) := by
  cases op <;> rfl

theorem levelReader_unary (inner : Reader Expr) (op : UnaryOp) :
    levelReader inner op.level =
      withOps (leadingAt op.level) (levelReader inner (op.level + 1)) := by
  cases op <;> rfl

@[simp] theorem nested_succ (depth : Nat) : nested (depth + 1) = levelReader (nested depth) 0 := rfl

/-- Every level above the suffixes is one of operators. -/
theorem level_cases {level : Nat} (h : level < suffixLevel) :
    (∃ op : BinaryOp, op.level = level) ∨ ∃ op : UnaryOp, op.level = level := by
  match level with
  | 0 => exact .inl ⟨.or, rfl⟩
  | 1 => exact .inl ⟨.and, rfl⟩
  | 2 => exact .inr ⟨.not, rfl⟩
  | 3 => exact .inl ⟨.eq, rfl⟩
  | 4 => exact .inl ⟨.add, rfl⟩
  | 5 => exact .inl ⟨.mul, rfl⟩
  | 6 => exact .inr ⟨.neg, rfl⟩
  | _ + 7 => exact absurd h (by simp [suffixLevel])

/-- What holds at one level, and is handed on by every level of operators to the next looser one,
holds at all looser levels. -/
theorem level_induction {motive : Nat → Prop} {top : Nat} (le : top ≤ suffixLevel)
    (start : motive top)
    (binary : ∀ op : BinaryOp, op.level < top → motive (op.level + 1) → motive op.level)
    (unary : ∀ op : UnaryOp, op.level < top → motive (op.level + 1) → motive op.level)
    {level : Nat} (below : level ≤ top) : motive level := by
  refine Nat.decreasingInduction (motive := fun level _ => motive level) ?_ start below
  intro k small above
  rcases level_cases (Nat.lt_of_lt_of_le small le) with ⟨op, rfl⟩ | ⟨op, rfl⟩
  · exact binary op small above
  · exact unary op small above

theorem takes_ident : Takes 1 ident := by
  intro s id rest read
  cases s with
  | nil => cases read
  | cons c cs =>
      rw [ident] at read
      split at read
      · cases read
        have suffix : cs.dropWhile isIdentRest <:+ cs := List.dropWhile_suffix _
        exact ⟨suffix.trans (List.suffix_cons c cs), Nat.succ_le_succ suffix.length_le⟩
      · cases read

/-- What holds of how identifiers are read holds of keywords, if the blanks around them do not
matter to it. -/
theorem leaves_keyword {R : List Char → List Char → Prop} (h : Leaves R ident)
    (around : ∀ s rest, R (Text.skipBlank s) rest → R s (Text.skipBlank rest)) (word : String) :
    Leaves R (keyword word) := by
  refine (h.bind _ ?_).padded around
  intro r b found
  split at found
  · cases found
    rfl
  · cases found

theorem takes_keyword (word : String) : Takes 1 (keyword word) :=
  leaves_keyword takes_ident (fun _ _ => Takes.around) word

theorem takes_mark {symbol : String} (nonempty : 1 ≤ symbol.toList.length) :
    Takes 1 (mark symbol) :=
  ((takes_text symbol.toList).mono nonempty).padded

theorem leaves_word {R : List Char → List Char → Prop} (h : Leaves R ident) : Leaves R word := by
  refine h.bind _ ?_
  intro r b found
  split at found
  case h_4 | h_5 | h_6 => cases found
  all_goals
    cases found
    rfl

theorem takes_word : Takes 1 word := leaves_word takes_ident

theorem takes_wholeDigits : Takes 1 wholeDigits := by
  intro s ds rest read
  cases s with
  | nil => cases read
  | cons c cs =>
      rw [wholeDigits] at read
      split at read
      · cases read
        exact ⟨List.suffix_cons c rest, Nat.le_refl _⟩
      · split at read
        · cases read
          have suffix : cs.dropWhile Text.isDigit <:+ cs := List.dropWhile_suffix _
          exact ⟨suffix.trans (List.suffix_cons c cs), Nat.succ_le_succ suffix.length_le⟩
        · cases read

theorem takes_fractionDigits : Takes 0 fractionDigits := by
  intro s ds rest read
  rw [fractionDigits.eq_def] at read
  split at read
  · rename_i c cs
    split at read
    · cases read
      have suffix : cs.dropWhile Text.isDigit <:+ '.' :: c :: cs :=
        (List.dropWhile_suffix _).trans (List.suffix_append ['.', c] cs)
      exact ⟨suffix, suffix.length_le⟩
    · cases read
  · cases read

/-- What holds of the whole part and of the fraction holds of a number, if it may be composed. -/
theorem leaves_number {R S : List Char → List Char → Prop} (whole : Leaves R wholeDigits)
    (fraction : Leaves S fractionDigits) (compose : ∀ s t rest, R s t → S t rest → R s rest) :
    Leaves R number := by
  intro s l rest read
  rw [number] at read
  split at read
  · cases read
  · rename_i digits middle first
    have before := whole s digits middle first
    split at read
    · rename_i fractions rest' second
      cases read
      exact compose s middle _ before (fraction middle fractions _ second)
    · dsimp only at read
      split at read
      · cases read
        exact before
      · cases read

theorem takes_number : Takes 1 number :=
  leaves_number takes_wholeDigits takes_fractionDigits
    fun _ _ _ taken taken' => ⟨taken'.1.trans taken.1,
      Nat.le_trans (Nat.succ_le_succ taken'.2) taken.2⟩

/-- The rest of a text literal takes its closing quote at least. -/
theorem takes_literalRest (quote : Char) : Takes 1 (literalRest quote) := by
  intro s cs rest read
  fun_induction literalRest quote s generalizing cs with
  | case1 => cases read
  | case2 e s c _ ih =>
      obtain ⟨⟨cs', rest'⟩, others, same⟩ := Option.map_eq_some_iff.mp read
      cases same
      obtain ⟨suffix, taken⟩ := ih _ others
      have shorter := suffix.trans (List.suffix_append ['\\', e] s)
      exact ⟨shorter, Nat.le_add_right_of_le (Nat.le_add_right_of_le taken)⟩
  | case3 => cases read
  | case4 c s =>
      cases read
      exact ⟨List.suffix_cons c rest, Nat.le_refl _⟩
  | case5 => cases read
  | case6 c s _ _ _ ih =>
      obtain ⟨⟨cs', rest'⟩, others, same⟩ := Option.map_eq_some_iff.mp read
      cases same
      obtain ⟨suffix, taken⟩ := ih _ others
      exact ⟨suffix.trans (List.suffix_cons c s), Nat.le_trans taken (by simp)⟩

/-- A text literal takes a character at least, even if the text is empty. -/
theorem takes_textLiteral : Takes 1 textLiteral := by
  intro s l rest read
  cases s with
  | nil => cases read
  | cons c cs =>
      rw [textLiteral] at read
      split at read
      · obtain ⟨⟨cs', rest'⟩, inside, same⟩ := Option.map_eq_some_iff.mp read
        cases same
        obtain ⟨suffix, taken⟩ := takes_literalRest c cs cs' _ inside
        exact ⟨suffix.trans (List.suffix_cons c cs), Nat.le_trans taken (by simp)⟩
      · cases read

section

variable {inner : Reader Expr}

/-- An atom takes a character at least, whatever is read inside brackets. -/
theorem takes_atom (h : Takes 0 inner) : Takes 1 (atom inner) := by
  have literals : Takes 1 (map Expr.literal (orElse number textLiteral)) :=
    (takes_number.orElse takes_textLiteral).map _
  have parentheses : Takes 1 (between (mark "(") (mark ")") inner) :=
    .between (takes_mark (by decide)) ((takes_mark (by decide)).mono (by decide)) h
  exact (literals.orElse (takes_word.orElse parentheses)).padded

/-- A suffix takes a character at least, so reading suffixes comes to an end. -/
theorem takes_suffixForm (h : Takes 0 inner) : Takes 1 (suffixForm inner) := by
  have marks {symbol : String} (nonempty : 1 ≤ symbol.toList.length) : Takes 0 (mark symbol) :=
    (takes_mark nonempty).mono (by decide)
  have attr : Takes 1 (seq (mark ".") ident) :=
    ((takes_mark (by decide)).seq takes_ident).mono (by decide)
  have index : Takes 1 (between (mark "[") (mark "]") inner) :=
    .between (takes_mark (by decide)) (marks (by decide)) h
  have call : Takes 1 (between (mark "(") (mark ")") (separated (mark ",") inner)) :=
    .between (takes_mark (by decide)) (marks (by decide)) (.separated (marks (by decide)) h)
  exact (attr.map _).orElse ((index.map _).orElse (call.map _))

/-- What holds of keywords and of the minus sign holds of the operators before an operand, at every
level. -/
theorem leaves_leadingAt {R : List Char → List Char → Prop} (words : ∀ w, Leaves R (keyword w))
    (sign : Leaves R (mark "-")) (level : Nat) : Leaves R (leadingAt level) := by
  rw [leadingAt.eq_def]
  split
  · exact (words "not").map _
  · exact sign.map _

theorem takes_leadingAt (level : Nat) : Takes 1 (leadingAt level) :=
  leaves_leadingAt takes_keyword (takes_mark (by decide)) level

/-- What holds of keywords and of the symbols holds of the operators between operands, at every
level. -/
theorem leaves_operatorAt {R : List Char → List Char → Prop} (words : ∀ w, Leaves R (keyword w))
    (symbols : ∀ op : BinaryOp, Leaves R (text op.symbol.toList))
    (around : ∀ s rest, R (Text.skipBlank s) rest → R s (Text.skipBlank rest)) (level : Nat) :
    Leaves R (operatorAt level) := by
  have bare (op : BinaryOp) : Leaves R (map (fun _ => op) (text op.symbol.toList)) :=
    (symbols op).map _
  have marked (op : BinaryOp) : Leaves R (map (fun _ => op) (mark op.symbol)) :=
    ((symbols op).padded around).map _
  rw [operatorAt.eq_def]
  split
  · exact (words "or").map _
  · exact (words "and").map _
  · exact Leaves.padded ((bare .eq).orElse ((bare .ne).orElse ((bare .le).orElse ((bare .ge).orElse
      ((bare .lt).orElse (bare .gt)))))) around
  · exact (marked .add).orElse (marked .sub)
  · exact (marked .mul).orElse ((marked .div).orElse (marked .mod))

theorem takes_operatorAt (level : Nat) : Takes 1 (operatorAt level) := by
  have symbols (op : BinaryOp) : Takes 1 (text op.symbol.toList) :=
    (takes_text _).mono (by cases op <;> decide)
  exact leaves_operatorAt takes_keyword symbols (fun _ _ => Takes.around) level

theorem takes_leftAssoc {op : Reader BinaryOp} {operand : Reader Expr} (marks : Takes 1 op)
    (h : Takes 1 operand) : Takes 1 (leftAssoc op operand) :=
  (h.seq (marks.seq h).many).map _

theorem takes_withOps {op : Reader UnaryOp} {operand : Reader Expr} (marks : Takes 1 op)
    (h : Takes 1 operand) : Takes 1 (withOps op operand) :=
  ((marks.many.seq h).mono (by decide)).map _

theorem takes_suffixed (h : Takes 0 inner) : Takes 1 (suffixed inner) :=
  ((takes_atom h).seq (takes_suffixForm h).many).map _

/-- Every level takes a character at least. -/
theorem takes_levelReader (h : Takes 0 inner) {level : Nat} (le : level ≤ suffixLevel) :
    Takes 1 (levelReader inner level) := by
  refine level_induction (motive := fun level => Takes 1 (levelReader inner level)) (Nat.le_refl _)
    (takes_suffixed h) ?_ ?_ le
  · intro op _ above
    rw [levelReader_binary]
    exact takes_leftAssoc (takes_operatorAt _) above
  · intro op _ above
    rw [levelReader_unary]
    exact takes_withOps (takes_leadingAt _) above

theorem takes_nested (depth : Nat) : Takes 1 (nested depth) := by
  induction depth with
  | zero => exact takes_fail
  | succ depth ih => exact takes_levelReader (ih.mono (by decide)) (Nat.zero_le suffixLevel)

end

theorem withOps_of_none {op : Reader UnaryOp} {operand : Reader Expr} {s : List Char}
    (h : op s = none) : withOps op operand s = operand s := by
  rw [withOps, Reader.map, Reader.seq, many_of_none h]
  dsimp only
  cases operand s <;> rfl

/-- An operator before an operand is applied to what is read after it. -/
theorem withOps_of_some {op : Reader UnaryOp} (takes : Takes 1 op) {operand : Reader Expr}
    {s rest : List Char} {o : UnaryOp} (h : op s = some (o, rest)) :
    withOps op operand s = (withOps op operand rest).map fun r => (.unary o r.1, r.2) := by
  rw [withOps, Reader.map, Reader.map, Reader.seq, Reader.seq, many_of_some takes h, many,
    Option.map_some]
  dsimp only
  cases operand (manyUpTo op rest.length rest).2 <;> rfl

/-- What may stand behind an expression in a place of the given level: nothing more, a closing mark,
or an operator that binds less tightly. -/
inductive Follows (level : Nat) : List Char → Prop
  | nothing : Follows level []
  | closing {c : Char} (h : c = ')' ∨ c = ']' ∨ c = ',') (rest : List Char) :
      Follows level (c :: rest)
  | operator (op : BinaryOp) (looser : op.level < level) (rest : List Char) :
      Follows level (' ' :: (op.symbol.toList ++ ' ' :: rest))

variable {level : Nat} {rest left : List Char}

/-- What may follow in a place may follow in one that binds more tightly. -/
theorem Follows.mono {level' : Nat} (h : Follows level rest) (le : level ≤ level') :
    Follows level' rest := by
  cases h with
  | nothing => exact .nothing
  | closing mark rest => exact .closing mark rest
  | operator op looser rest => exact .operator op (Nat.lt_of_lt_of_le looser le) rest

/-- What follows an expression goes on with no word and no number. -/
theorem Follows.delimits (h : Follows level rest) : Delimits rest := by
  cases h with
  | nothing => exact delimits_nil
  | closing mark rest =>
      rcases mark with rfl | rfl | rfl <;> exact delimits_cons (by decide) (by decide) rest
  | operator op looser rest => exact delimits_cons (by decide) (by decide) _

/-- Blanks before an operator do not matter. -/
theorem skipsBlank_operatorAt (level : Nat) : SkipsBlank (operatorAt level) := by
  have symbol (op : BinaryOp) (s : String) : SkipsBlank (map (fun _ => op) (mark s)) :=
    (skipsBlank_padded _).map _
  rw [operatorAt.eq_def]
  split
  · exact (skipsBlank_padded _).map _
  · exact (skipsBlank_padded _).map _
  · exact skipsBlank_padded _
  · exact (symbol .add "+").orElse (symbol .sub "-")
  · exact (symbol .mul "*").orElse ((symbol .div "/").orElse (symbol .mod "%"))

/-- The operator of a level is read together with the blanks around it. -/
@[simp] theorem operatorAt_symbol (op : BinaryOp) (rest : List Char) :
    operatorAt op.level (' ' :: (op.symbol.toList ++ ' ' :: rest)) =
      some (op, Text.skipBlank rest) := by
  cases op <;> rfl

/-- So is an operator before its operand. -/
@[simp] theorem leadingAt_symbol (op : UnaryOp) (rest : List Char) :
    leadingAt op.level (op.symbol.toList ++ rest) = some (op, Text.skipBlank rest) := by
  cases op <;> rfl

/-- What follows an expression goes on with no operator of its level or a tighter one. -/
theorem Follows.operatorAt_eq_none (h : Follows level rest) {op : BinaryOp}
    (le : level ≤ op.level) :
    operatorAt op.level rest = none := by
  cases h with
  | nothing => cases op <;> rfl
  | closing mark rest => rcases mark with rfl | rfl | rfl <;> cases op <;> rfl
  | operator op' looser rest =>
      have lt : op'.level < op.level := Nat.lt_of_lt_of_le looser le
      have levels : op.level = 0 ∨ op.level = 1 ∨ op.level = 3 ∨ op.level = 4 ∨ op.level = 5 := by
        cases op <;> decide
      rcases levels with same | same | same | same | same
      all_goals
        rw [same] at lt ⊢
        cases op' <;> first | exact absurd lt (by decide) | rfl

theorem skipsBlank_suffixForm (inner : Reader Expr) : SkipsBlank (suffixForm inner) := by
  have marks (symbol : String) : SkipsBlank (mark symbol) := skipsBlank_padded _
  exact (((marks ".").seq _).map _).orElse
    ((((marks "[").between _ _).map _).orElse (((marks "(").between _ _).map _))

/-- Neither does it go on with a suffix. -/
theorem Follows.suffixForm_eq_none (h : Follows level rest) (inner : Reader Expr) :
    suffixForm inner rest = none := by
  cases h with
  | nothing => rfl
  | closing mark rest => rcases mark with rfl | rfl | rfl <;> rfl
  | operator op looser rest => cases op <;> rfl

/-- No expression starts with a closing mark. -/
theorem levelReader_closing (inner : Reader Expr) {c : Char} (h : c = ')' ∨ c = ']' ∨ c = ',')
    (rest : List Char) {level : Nat} (le : level ≤ suffixLevel) :
    levelReader inner level (c :: rest) = none := by
  refine level_induction (motive := fun level => levelReader inner level (c :: rest) = none)
    (Nat.le_refl _) ?_ ?_ ?_ le
  · rcases h with rfl | rfl | rfl <;> rfl
  · intro op _ above
    rw [levelReader_binary]
    exact map_of_none (seq_of_none above)
  · intro op _ above
    have no_sign : leadingAt op.level (c :: rest) = none := by
      rcases h with rfl | rfl | rfl <;> cases op <;> rfl
    rw [levelReader_unary, withOps_of_none no_sign, above]

/-- At no depth does an expression start with a closing mark. -/
theorem nested_closing (depth : Nat) {c : Char} (h : c = ')' ∨ c = ']' ∨ c = ',')
    (rest : List Char) :
    nested depth (c :: rest) = none := by
  cases depth with
  | zero => rfl
  | succ depth => exact levelReader_closing (nested depth) h rest (Nat.zero_le suffixLevel)

end Expr

end RemoteDebugger
