import RemoteDebugger.Proofs.Expression.Grammar
import RemoteDebugger.Proofs.Expression.Nesting

/-!
# Written expressions are read back

An expression is written with the parentheses that the levels of the grammar ask for and no others,
and its text is read as the very tree it was written from. The induction is over the tree, for all
levels at once. Without parentheses, an expression is read at the level of its own operator: the
operands before an operator lead up to it, so a chain of operators that associate to the left is
read from its first operand on. All tighter levels meet the expression in parentheses, and all
looser ones find no operator of theirs.
-/

namespace RemoteDebugger

namespace Expr

open Reader
open Text (skipBlank)

/-- The level at which an expression needs no parentheses. -/
def level : Expr → Nat
  | .unary op _ => op.level
  | .binary op _ _ => op.level
  | _ => suffixLevel

theorem level_le (e : Expr) : e.level ≤ suffixLevel := by
  cases e with
  | unary op => exact Nat.le_of_lt op.level_lt
  | binary op => exact Nat.le_of_lt op.level_lt
  | _ => exact Nat.le_refl _

section

variable {e : Expr} {place : Nat}

theorem printAt_of_le (le : place ≤ e.level) : printAt place e = printAt 0 e := by
  cases e with
  | unary op x => simp [printAt, show ¬ op.level < place from Nat.not_lt.mpr le]
  | binary op l r => simp [printAt, show ¬ op.level < place from Nat.not_lt.mpr le]
  | _ => simp only [printAt]

/-- In a place that binds more tightly than it does, an expression is written in brackets. -/
theorem printAt_of_lt (lt : e.level < place) (le : place ≤ suffixLevel) :
    printAt place e = '(' :: (printAt 0 e ++ [')']) := by
  cases e with
  | unary op x => simp [printAt, enclose, show op.level < place from lt]
  | binary op l r => simp [printAt, enclose, show op.level < place from lt]
  | _ => exact absurd (Nat.lt_of_lt_of_le lt le) (Nat.lt_irrefl _)

theorem nestingAt_of_le (le : place ≤ e.level) : nestingAt place e = e.nesting := by
  cases e with
  | unary op x => simp [nesting, nestingAt, show ¬ op.level < place from Nat.not_lt.mpr le]
  | binary op l r => simp [nesting, nestingAt, show ¬ op.level < place from Nat.not_lt.mpr le]
  | _ => simp only [nesting, nestingAt]

/-- These brackets make it one deeper. -/
theorem nestingAt_of_lt (lt : e.level < place) (le : place ≤ suffixLevel) :
    nestingAt place e = e.nesting + 1 := by
  cases e with
  | unary op x => simp [nesting, nestingAt, show op.level < place from lt]
  | binary op l r => simp [nesting, nestingAt, show op.level < place from lt]
  | _ => exact absurd (Nat.lt_of_lt_of_le lt le) (Nat.lt_irrefl _)

end

/-- The text of an expression in a place of the given level starts with a character that is no
blank, and only in the loose places is it a minus sign. -/
def Begins (place : Nat) (cs : List Char) : Prop :=
  ∃ c rest, cs = c :: rest ∧ Text.isBlank c = false ∧ (suffixLevel ≤ place → c ≠ '-')

theorem Begins.append {cs : List Char} (h : Begins suffixLevel cs) (place : Nat) (ds : List Char) :
    Begins place (cs ++ ds) := by
  obtain ⟨c, rest, rfl, blank, no_sign⟩ := h
  exact ⟨c, rest ++ ds, rfl, blank, fun _ => no_sign (Nat.le_refl _)⟩

/-- Where no parentheses are needed, an operator does not stand in a place of suffixes. -/
theorem Begins.enclose {level place : Nat} {cs : List Char} (h : Begins level cs)
    (loose : level < suffixLevel) : Begins place (enclose (level < place) cs) := by
  by_cases enclosed : level < place
  · rw [decide_eq_true enclosed]
    exact ⟨'(', _, rfl, by decide, fun _ => by decide⟩
  · obtain ⟨c, rest, rfl, blank, -⟩ := h
    rw [decide_eq_false enclosed]
    exact ⟨c, rest, rfl, blank, fun tight => absurd (Nat.lt_of_lt_of_le loose tight) enclosed⟩

theorem begins_of_isIdentRest {c : Char} (h : isIdentRest c = true) (place : Nat) (cs : List Char) :
    Begins place (c :: cs) :=
  ⟨c, cs, rfl, (not_blank_of_isIdentRest h).1, fun _ => (not_blank_of_isIdentRest h).2⟩

theorem begins_of_isIdent {cs : List Char} (h : isIdent cs = true) (place : Nat) :
    Begins place cs := by
  cases cs with
  | nil => cases h
  | cons c rest =>
      rw [isIdent, Bool.and_eq_true] at h
      exact begins_of_isIdentRest (by simp [isIdentRest, h.1]) place rest

theorem toDigits_eq_digit_cons (n : Nat) :
    ∃ c cs, Nat.toDigits 10 n = c :: cs ∧ Text.isDigit c = true := by
  obtain ⟨c, cs, digits⟩ :=
    List.exists_cons_of_ne_nil (Nat.toDigits_ne_nil (n := n) (b := 10))
  exact ⟨c, cs, digits, Text.isDigit_of_mem_toDigits (digits ▸ List.mem_cons_self)⟩

theorem begins_literalText {l : Literal} (h : l.IsWritable) (place : Nat) :
    Begins place (literalText l) := by
  cases l with
  | null => exact begins_of_isIdent (by decide) place
  | bool b => cases b <;> exact begins_of_isIdent (by decide) place
  | int n =>
      obtain ⟨c, cs, digits, digit⟩ := toDigits_eq_digit_cons n.toInt.natAbs
      rw [literalText, Text.toList_toString_int, if_neg (Int.not_lt.mpr h), digits]
      exact begins_of_isIdentRest (isIdentRest_of_isDigit digit) place cs
  | float x => cases h
  | str s =>
      rw [literalText, Value.textLiteral]
      rcases quoteFor_cases s.toList with single | double
      · exact ⟨'\'', _, by rw [single], by decide, fun _ => by decide⟩
      · exact ⟨'"', _, by rw [double], by decide, fun _ => by decide⟩

/-- What is written for an expression begins one, so it is not taken for an operator or a closing
mark. -/
theorem begins_printAt {e : Expr} (h : IsWritable e) (place : Nat) :
    Begins place (printAt place e) := by
  induction h generalizing place with
  | literal h =>
      rw [printAt]
      exact begins_literalText h place
  | name ident =>
      rw [printAt]
      exact begins_of_isIdent ident place
  | attr _ _ ih =>
      rw [printAt]
      exact (ih suffixLevel).append place _
  | index _ _ ih =>
      rw [printAt]
      exact (ih suffixLevel).append place _
  | call _ _ ih =>
      rw [printAt]
      exact (ih suffixLevel).append place _
  | unary op =>
      have sign (cs : List Char) : Begins op.level (op.symbol.toList ++ cs) := by
        cases op <;> exact ⟨_, _, rfl, by decide, fun tight => absurd tight (by decide)⟩
      rw [printAt]
      exact (sign _).enclose op.level_lt
  | binary op _ _ ih =>
      obtain ⟨c, cs, text, blank, -⟩ := ih op.level
      have bare (ds : List Char) : Begins op.level (c :: cs ++ ds) :=
        ⟨c, cs ++ ds, rfl, blank, fun tight => absurd tight (Nat.not_le.mpr op.level_lt)⟩
      rw [printAt, text]
      exact (bare _).enclose op.level_lt

theorem skipBlank_printAt {e : Expr} (h : IsWritable e) (place : Nat) (rest : List Char) :
    skipBlank (printAt place e ++ rest) = printAt place e ++ rest := by
  obtain ⟨c, cs, text, blank, -⟩ := begins_printAt h place
  rw [text, List.cons_append, Text.skipBlank_cons blank]

theorem keyword_not_literalText {l : Literal} (h : l.IsWritable) {rest : List Char}
    (apart : Delimits rest) : keyword "not" (literalText l ++ rest) = none := by
  cases l with
  | null => exact keyword_of_ne (by decide) (by decide) apart.word
  | bool b => cases b <;> exact keyword_of_ne (by decide) (by decide) apart.word
  | int n =>
      obtain ⟨c, cs, digits, digit⟩ := toDigits_eq_digit_cons n.toInt.natAbs
      have blank := (not_blank_of_isIdentRest (isIdentRest_of_isDigit digit)).1
      rw [literalText, Text.toList_toString_int, if_neg (Int.not_lt.mpr h), digits,
        List.cons_append, keyword_of_not_start (isIdentStart_of_isDigit digit) blank]
  | float x => cases h
  | str s =>
      rw [literalText, Value.textLiteral, List.cons_append]
      rcases quoteFor_cases s.toList with single | double
      · rw [single, keyword_of_not_start (by decide) (by decide)]
      · rw [double, keyword_of_not_start (by decide) (by decide)]

/-- In a place for comparisons or a tighter one, no expression starts with the word of negations. -/
theorem keyword_not_printAt {e : Expr} (h : IsWritable e) {place : Nat}
    (tight : UnaryOp.not.level < place)
    {rest : List Char} (apart : Delimits rest) :
    keyword "not" (printAt place e ++ rest) = none := by
  have parenthesis (cs : List Char) : keyword "not" ('(' :: cs) = none :=
    keyword_of_not_start (by decide) (by decide) _ _
  induction h generalizing place rest with
  | literal h =>
      rw [printAt]
      exact keyword_not_literalText h apart
  | name ident free =>
      rw [printAt]
      exact keyword_of_ne ident (by rintro rfl; exact free (by decide)) apart.word
  | attr _ ident ih =>
      rw [printAt, List.append_assoc]
      exact ih (by decide) (delimits_attr ident rest)
  | index _ _ ih =>
      rw [printAt, List.append_assoc]
      exact ih (by decide) (delimits_cons (by decide) (by decide) _)
  | call _ _ ih =>
      rw [printAt, List.append_assoc]
      exact ih (by decide) (delimits_cons (by decide) (by decide) _)
  | unary op =>
      by_cases enclosed : op.level < place
      · rw [printAt, decide_eq_true enclosed]
        exact parenthesis _
      · rw [printAt, decide_eq_false enclosed]
        cases op with
        | not => exact absurd tight enclosed
        | neg => exact keyword_of_not_start (by decide) (by decide) _ _
  | binary op _ _ ih =>
      by_cases enclosed : op.level < place
      · rw [printAt, decide_eq_true enclosed]
        exact parenthesis _
      · rw [printAt, decide_eq_false enclosed, enclose, if_neg Bool.false_ne_true,
          List.append_assoc]
        exact ih (Nat.lt_of_lt_of_le tight (Nat.not_lt.mp enclosed))
          (delimits_cons (by decide) (by decide) _)

/-- No operator of a level stands before an operand of this level. -/
theorem leadingAt_printAt {e : Expr} (h : IsWritable e) (op : UnaryOp) {rest : List Char}
    (apart : Delimits rest) : leadingAt op.level (printAt (op.level + 1) e ++ rest) = none := by
  cases op with
  | not =>
      have no_word := keyword_not_printAt h (Nat.lt_succ_self UnaryOp.not.level) apart
      exact map_of_none (f := fun _ => UnaryOp.not) no_word
  | neg =>
      obtain ⟨c, cs, text, blank, no_sign⟩ := begins_printAt h (UnaryOp.neg.level + 1)
      have no_mark : mark "-" (c :: (cs ++ rest)) = none := by
        rw [mark, padded, Text.skipBlank_cons blank]
        simp [Reader.text, (no_sign (by decide)).symm]
      rw [text]
      exact map_of_none (f := fun _ => UnaryOp.neg) no_mark

/-- A reader reads an expression back from its text in a place, whatever may follow it there. -/
def ReadsBack (reader : Reader Expr) (place : Nat) (e : Expr) : Prop :=
  ∀ rest, Follows place rest →
    ∃ left, Remains rest left ∧ reader (printAt place e ++ rest) = some (e, left)

/-- An operator of a level and the operand after it. -/
def operation (inner : Reader Expr) (level : Nat) : Reader (BinaryOp × Expr) :=
  seq (operatorAt level) (levelReader inner (level + 1))

/-- The reader of a level gets through an expression as far as to the operators of this level behind
it. -/
def LeadsOperators (inner : Reader Expr) (level : Nat) (e : Expr) : Prop :=
  ∀ rest, Follows (level + 1) rest → ∃ left, Remains rest left ∧
    levelReader inner level (printAt level e ++ rest) =
      (many (operation inner level) left).map fun r =>
        (r.1.foldl (fun e p => .binary p.1 e p.2) e, r.2)

/-- The reader of suffixes gets through an expression as far as to the suffixes behind it. -/
def LeadsSuffixes (inner : Reader Expr) (e : Expr) : Prop :=
  ∀ rest, Delimits rest → ∃ left, Remains rest left ∧
    suffixed inner (printAt suffixLevel e ++ rest) =
      (many (suffixForm inner) left).map fun r => (r.1.foldl Suffix.apply e, r.2)

section

variable {inner : Reader Expr} {e : Expr}

theorem skipsBlank_operation (inner : Reader Expr) (level : Nat) :
    SkipsBlank (operation inner level) :=
  (skipsBlank_operatorAt level).seq _

theorem takes_operation (takes : Takes 0 inner) (op : BinaryOp) :
    Takes 1 (operation inner op.level) :=
  ((takes_operatorAt op.level).seq (takes_levelReader takes op.level_lt)).mono (by decide)

/-- An expression that leads operators is read back where none follows. -/
theorem LeadsOperators.readsBack {op : BinaryOp} (h : LeadsOperators inner op.level e) :
    ReadsBack (levelReader inner op.level) op.level e := by
  intro rest follows
  obtain ⟨left, remains, read⟩ := h rest (follows.mono (Nat.le_succ _))
  have no_operator : operation inner op.level left = none := by
    rw [skipsBlank_operation inner op.level left rest remains.skipBlank_eq]
    exact seq_of_none (follows.operatorAt_eq_none (Nat.le_refl _))
  refine ⟨left, remains, ?_⟩
  rw [read, many_of_none no_operator]
  rfl

/-- An expression that leads suffixes is read back where none follows. -/
theorem LeadsSuffixes.readsBack (h : LeadsSuffixes inner e) :
    ReadsBack (levelReader inner suffixLevel) suffixLevel e := by
  intro rest follows
  obtain ⟨left, remains, read⟩ := h rest follows.delimits
  have no_suffix : suffixForm inner left = none := by
    rw [skipsBlank_suffixForm inner left rest remains.skipBlank_eq]
    exact follows.suffixForm_eq_none inner
  refine ⟨left, remains, ?_⟩
  rw [levelReader, read, many_of_none no_suffix]
  · rfl
  all_goals simp [suffixLevel]

/-- An expression written the same for the next tighter level is the first operand of its level. -/
theorem ReadsBack.leadsOperators {op : BinaryOp}
    (h : ReadsBack (levelReader inner (op.level + 1)) (op.level + 1) e)
    (same : printAt op.level e = printAt (op.level + 1) e) : LeadsOperators inner op.level e := by
  intro rest follows
  obtain ⟨left, remains, read⟩ := h rest follows
  refine ⟨left, remains, ?_⟩
  rw [levelReader_binary, leftAssoc, same, Reader.map, Reader.seq, read]
  rfl

/-- What is read back at one level is read back at the next looser one of unary operators, unless it
has such an operator itself. -/
theorem ReadsBack.unary_level {op : UnaryOp} (writable : IsWritable e)
    (h : ReadsBack (levelReader inner (op.level + 1)) (op.level + 1) e)
    (same : printAt op.level e = printAt (op.level + 1) e) :
    ReadsBack (levelReader inner op.level) op.level e := by
  intro rest follows
  obtain ⟨left, remains, read⟩ := h rest (follows.mono (Nat.le_succ _))
  refine ⟨left, remains, ?_⟩
  rw [levelReader_unary, same, withOps_of_none (leadingAt_printAt writable op follows.delimits),
    read]

/-- What is read back at a level is read back at every looser one, as long as it is written the
same. -/
theorem ReadsBack.looser (writable : IsWritable e) {bottom top : Nat} (le : top ≤ suffixLevel)
    (same : ∀ place, bottom ≤ place → place ≤ top → printAt place e = printAt top e)
    (h : ReadsBack (levelReader inner top) top e) {place : Nat} (least : bottom ≤ place)
    (most : place ≤ top) : ReadsBack (levelReader inner place) place e := by
  refine level_induction
    (motive := fun place => bottom ≤ place → ReadsBack (levelReader inner place) place e)
    le (fun _ => h) ?_ ?_ most least
  · intro op small above least
    have next := above (Nat.le_succ_of_le least)
    refine (next.leadsOperators ?_).readsBack
    rw [same _ least (Nat.le_of_lt small), same _ (Nat.le_succ_of_le least) small]
  · intro op small above least
    have next := above (Nat.le_succ_of_le least)
    refine next.unary_level writable ?_
    rw [same _ least (Nat.le_of_lt small), same _ (Nat.le_succ_of_le least) small]

/-- A binary expression leads further operators of its level, as these bind to the left. -/
theorem LeadsOperators.binary (takes : Takes 0 inner) (op : BinaryOp) {lhs rhs : Expr}
    (writable : IsWritable rhs) (left : LeadsOperators inner op.level lhs)
    (right : ReadsBack (levelReader inner (op.level + 1)) (op.level + 1) rhs) :
    LeadsOperators inner op.level (.binary op lhs rhs) := by
  intro rest follows
  obtain ⟨last, remains, readRight⟩ := right rest follows
  obtain ⟨middle, between, readLeft⟩ := left
    (' ' :: (op.symbol.toList ++ ' ' :: (printAt (op.level + 1) rhs ++ rest)))
    (.operator op (Nat.lt_succ_self _) _)
  have step : operation inner op.level middle = some ((op, rhs), last) := by
    rw [skipsBlank_operation inner op.level _ _ between.skipBlank_eq]
    refine seq_of_some (operatorAt_symbol op _) ?_
    rw [skipBlank_printAt writable, readRight]
  have text : printAt op.level (.binary op lhs rhs) ++ rest = printAt op.level lhs ++
      ' ' :: (op.symbol.toList ++ ' ' :: (printAt (op.level + 1) rhs ++ rest)) := by
    rw [printAt, decide_eq_false (Nat.lt_irrefl _), enclose, if_neg Bool.false_ne_true]
    simp
  refine ⟨last, remains, ?_⟩
  rw [text, readLeft, many_of_some (takes_operation takes op) step, Option.map_map]
  rfl

/-- A unary expression is read back from its operator and its operand. -/
theorem ReadsBack.unary (op : UnaryOp) {operand : Expr} (writable : IsWritable operand)
    (h : ReadsBack (levelReader inner op.level) op.level operand) :
    ReadsBack (levelReader inner op.level) op.level (.unary op operand) := by
  intro rest follows
  obtain ⟨left, remains, read⟩ := h rest follows
  have sign : leadingAt op.level (op.symbol.toList ++ (printAt op.level operand ++ rest)) =
      some (op, printAt op.level operand ++ rest) := by
    rw [leadingAt_symbol, skipBlank_printAt writable]
  refine ⟨left, remains, ?_⟩
  rw [levelReader_unary] at read ⊢
  rw [printAt, decide_eq_false (Nat.lt_irrefl _), enclose, if_neg Bool.false_ne_true,
    List.append_assoc, withOps_of_some (takes_leadingAt _) sign, read]
  rfl

/-- After an atom, the suffixes are read and applied one after the other. -/
theorem suffixed_of_atom {s rest left : List Char} (remains : Remains rest left)
    (h : atom inner s = some (e, left)) : ∃ left, Remains rest left ∧
    suffixed inner s =
      (many (suffixForm inner) left).map fun r => (r.1.foldl Suffix.apply e, r.2) := by
  refine ⟨left, remains, ?_⟩
  rw [suffixed, Reader.map, Reader.seq, h]
  rfl

/-- What is read as a literal, a word or an expression in brackets is an atom. -/
theorem atom_of_some {s rest : List Char} (no_blank : skipBlank s = s)
    (h : orElse (map Expr.literal (orElse number textLiteral))
      (orElse word (between (mark "(") (mark ")") inner)) s = some (e, rest)) :
    atom inner s = some (e, skipBlank rest) := by
  rw [atom, padded, no_blank, h]
  rfl

/-- Neither a number nor a text literal starts with this character. -/
theorem literals_eq_none {c : Char} (no_digit : Text.isDigit c = false) (single : c ≠ '\'')
    (double : c ≠ '"') (cs : List Char) :
    map Expr.literal (orElse number textLiteral) (c :: cs) = none := by
  refine map_of_none ?_
  rw [orElse_of_none (number_of_not_digit no_digit cs), textLiteral_of_not_quote single double]

/-- An identifier is not taken for a literal. -/
theorem literals_eq_none_of_isIdent {cs : List Char} (h : isIdent cs = true) (rest : List Char) :
    map Expr.literal (orElse number textLiteral) (cs ++ rest) = none := by
  cases cs with
  | nil => cases h
  | cons c cs =>
      rw [isIdent, Bool.and_eq_true] at h
      have no_digit : Text.isDigit c = false := by
        by_contra digit
        rw [isIdentStart_of_isDigit (Bool.not_eq_false _ ▸ digit)] at h
        cases h.1
      have letter (d : Char) (apart : isIdentStart d = false) : c ≠ d := by
        rintro rfl
        rw [apart] at h
        cases h.1
      exact literals_eq_none no_digit (letter '\'' (by decide)) (letter '"' (by decide)) _

/-- A literal leads suffixes. The words among the literals are told from names by the keywords. -/
theorem leadsSuffixes_literal {l : Literal} (h : l.IsWritable) :
    LeadsSuffixes inner (.literal l) := by
  intro rest apart
  have no_blank := skipBlank_printAt (.literal h) suffixLevel rest
  have value (read : orElse number textLiteral (literalText l ++ rest) = some (l, rest)) :
      map Expr.literal (orElse number textLiteral) (literalText l ++ rest) =
        some (.literal l, rest) := map_of_some read
  rw [printAt] at no_blank ⊢
  refine suffixed_of_atom (.inr rfl) (atom_of_some no_blank ?_)
  cases l with
  | null =>
      rw [literalText, orElse_of_none (literals_eq_none_of_isIdent (by decide) rest)]
      exact orElse_of_some (word_none apart)
  | bool b =>
      have ident : isIdent (literalText (.bool b)) = true := by cases b <;> decide
      rw [orElse_of_none (literals_eq_none_of_isIdent ident rest)]
      exact orElse_of_some (word_bool b apart)
  | int n =>
      refine orElse_of_some (value (orElse_of_some ?_))
      have fits : n.toInt.natAbs ≤ 9223372036854775807 := by
        have bound : n.toInt < 9223372036854775808 := n.toInt_lt
        have sign : 0 ≤ n.toInt := h
        omega
      have same : Int64.ofNat n.toInt.natAbs = n := by
        rw [← Int64.ofInt_eq_ofNat, Int.natAbs_of_nonneg h, Int64.ofInt_toInt]
      rw [literalText, Text.toList_toString_int, if_neg (Int.not_lt.mpr h),
        number_toDigits fits apart, same]
  | float x => cases h
  | str s =>
      refine orElse_of_some (value ?_)
      have no_number : number (Value.textLiteral s.toList ++ rest) = none := by
        rw [Value.textLiteral, List.cons_append]
        rcases quoteFor_cases s.toList with single | double
        · rw [single, number_of_not_digit (by decide)]
        · rw [double, number_of_not_digit (by decide)]
      rw [literalText, orElse_of_none no_number, textLiteral_append h, String.ofList_toList]

theorem leadsSuffixes_name {id : String} (ident : isIdent id.toList = true) (free : id ∉ keywords) :
    LeadsSuffixes inner (.name id) := by
  intro rest apart
  have no_blank := skipBlank_printAt (.name ident free) suffixLevel rest
  rw [printAt] at no_blank ⊢
  refine suffixed_of_atom (.inr rfl) (atom_of_some no_blank ?_)
  rw [orElse_of_none (literals_eq_none_of_isIdent ident rest)]
  exact orElse_of_some (word_name ident free apart)

/-- What stands between two brackets is read between them. -/
theorem between_brackets {α : Type} {p : Reader α} {a : α} (first last : Reader Unit)
    (opening closing : Char) (opens : ∀ cs, first (opening :: cs) = some ((), skipBlank cs))
    (closes : ∀ cs, last (closing :: cs) = some ((), skipBlank cs)) {cs rest : List Char}
    (no_blank : skipBlank (cs ++ closing :: rest) = cs ++ closing :: rest)
    (inside : p (cs ++ closing :: rest) = some (a, closing :: rest)) :
    between first last p (opening :: (cs ++ [closing]) ++ rest) = some (a, skipBlank rest) := by
  rw [List.cons_append, List.append_assoc, List.singleton_append]
  refine between_of_some ?_ inside (closes rest)
  rw [opens, no_blank]

/-- An expression is read back before a closing mark. -/
theorem ReadsBack.before_closing (h : ReadsBack inner 0 e) {closing : Char}
    (mark : closing = ')' ∨ closing = ']' ∨ closing = ',') (no_blank : Text.isBlank closing = false)
    (rest : List Char) : inner (printAt 0 e ++ closing :: rest) = some (e, closing :: rest) := by
  obtain ⟨left, remains, read⟩ := h (closing :: rest) (.closing mark rest)
  obtain rfl := remains.eq_cons no_blank
  exact read

/-- An expression in parentheses is an atom. -/
theorem leadsSuffixes_parentheses (writable : IsWritable e) (loose : e.level < suffixLevel)
    (h : ReadsBack inner 0 e) : LeadsSuffixes inner e := by
  intro rest apart
  have read := between_brackets (mark "(") (mark ")") '(' ')' (fun _ => rfl) (fun _ => rfl)
    (skipBlank_printAt writable 0 _) (h.before_closing (.inl rfl) rfl rest)
  rw [printAt_of_lt loose (Nat.le_refl _)]
  refine suffixed_of_atom (.inr (Text.skipBlank_skipBlank rest))
    (atom_of_some (Text.skipBlank_cons rfl _) ?_)
  rw [List.cons_append, orElse_of_none (literals_eq_none rfl (by decide) (by decide) _),
    orElse_of_none (word_of_not_start rfl _)]
  exact read

/-- A suffix is applied to what was read before it. -/
theorem LeadsSuffixes.suffix (takes : Takes 0 inner) (h : LeadsSuffixes inner e) (suffix : Suffix)
    {cs : List Char} (text : printAt suffixLevel (suffix.apply e) = printAt suffixLevel e ++ cs)
    (delimits : ∀ rest, Delimits (cs ++ rest))
    (read : ∀ rest, Delimits rest → ∃ left, Remains rest left ∧
      suffixForm inner (cs ++ rest) = some (suffix, left)) : LeadsSuffixes inner
        (suffix.apply e) := by
  intro rest apart
  obtain ⟨left, remains, readSuffix⟩ := read rest apart
  obtain ⟨middle, between, readBase⟩ := h (cs ++ rest) (delimits rest)
  have step : suffixForm inner middle = some (suffix, left) := by
    rw [skipsBlank_suffixForm inner _ _ between.skipBlank_eq, readSuffix]
  refine ⟨left, remains, ?_⟩
  rw [text, List.append_assoc, readBase, many_of_some (takes_suffixForm takes) step, Option.map_map]
  rfl

theorem skipBlank_ident {cs : List Char} (h : isIdent cs = true) (rest : List Char) :
    skipBlank (cs ++ rest) = cs ++ rest := by
  obtain ⟨c, tail, rfl, blank, -⟩ := begins_of_isIdent h 0
  exact Text.skipBlank_cons blank (tail ++ rest)

theorem leadsSuffixes_attr (takes : Takes 0 inner) {id : String} (ident : isIdent id.toList = true)
    (h : LeadsSuffixes inner e) : LeadsSuffixes inner (.attr e id) := by
  refine h.suffix takes (.attr id) (by rw [Suffix.apply, printAt]) (delimits_attr ident) ?_
  intro rest apart
  have point : mark "." ('.' :: (id.toList ++ rest)) = some ((), id.toList ++ rest) :=
    congrArg (fun cs => some ((), cs)) (skipBlank_ident ident rest)
  have attr := seq_of_some point (ident_append ident apart.word)
  rw [String.ofList_toList] at attr
  exact ⟨rest, .refl rest, orElse_of_some (map_of_some attr)⟩

/-- An element of a container leads further suffixes. The index is read on its own, inside the
brackets. -/
theorem leadsSuffixes_index (takes : Takes 0 inner) {position : Expr}
    (writable : IsWritable position)
    (h : LeadsSuffixes inner e) (inside : ReadsBack inner 0 position) :
    LeadsSuffixes inner (.index e position) := by
  have bracket (cs : List Char) : Delimits ('[' :: cs) := delimits_cons (by decide) (by decide) cs
  refine h.suffix takes (.index position) (by rw [Suffix.apply, printAt]) (fun _ => bracket _) ?_
  intro rest _
  have index := between_brackets (mark "[") (mark "]") '[' ']' (fun _ => rfl) (fun _ => rfl)
    (skipBlank_printAt writable 0 _) (inside.before_closing (.inr (.inl rfl)) rfl rest)
  have no_point : mark "." ('[' :: (printAt 0 position ++ [']']) ++ rest) = none := rfl
  refine ⟨skipBlank rest, .inr rfl, ?_⟩
  rw [suffixForm, orElse_of_none (map_of_none (seq_of_none no_point))]
  exact orElse_of_some (map_of_some index)

/-- What follows an argument is a comma or the closing bracket. -/
theorem follows_argsTail (as : List Expr) (rest : List Char) :
    Follows 0 (argsTail as ++ ')' :: rest) := by
  cases as with
  | nil => exact .closing (.inl rfl) rest
  | cons a as =>
      rw [argsTail, List.flatMap_cons]
      exact .closing (.inr (.inr rfl)) _

theorem skipBlank_argsTail (as : List Expr) (rest : List Char) :
    skipBlank (argsTail as ++ ')' :: rest) = argsTail as ++ ')' :: rest := by
  cases as with
  | nil => rfl
  | cons a as => rfl

/-- An argument is read back, whatever arguments come after it. -/
theorem read_argument (h : ReadsBack inner 0 e) (as : List Expr) (rest : List Char) :
    inner (printAt 0 e ++ (argsTail as ++ ')' :: rest)) = some (e, argsTail as ++ ')' :: rest) := by
  obtain ⟨left, remains, read⟩ := h _ (follows_argsTail as rest)
  have same : left = argsTail as ++ ')' :: rest := by
    rcases remains with same | same
    · exact same
    · rw [same, skipBlank_argsTail]
  rw [read, same]

/-- An argument and the comma before it. -/
def argument (inner : Reader Expr) : Reader Expr := map Prod.snd (seq (mark ",") inner)

theorem takes_argument (takes : Takes 0 inner) : Takes 1 (argument inner) :=
  (((takes_mark (by decide)).seq takes).mono (by decide)).map _

/-- The arguments after the first are read back, up to the closing bracket. -/
theorem many_argument (takes : Takes 0 inner) {as : List Expr}
    (h : ∀ a ∈ as, IsWritable a ∧ ReadsBack inner 0 a) (rest : List Char) :
    many (argument inner) (argsTail as ++ ')' :: rest) = some (as, ')' :: rest) := by
  induction as with
  | nil => exact many_of_none rfl
  | cons a as ih =>
      obtain ⟨writable, back⟩ := h a List.mem_cons_self
      have text : argsTail (a :: as) ++ ')' :: rest =
          ',' :: ' ' :: (printAt 0 a ++ (argsTail as ++ ')' :: rest)) := by
        simp [argsTail]
      have comma : mark "," (',' :: ' ' :: (printAt 0 a ++ (argsTail as ++ ')' :: rest))) =
          some ((), printAt 0 a ++ (argsTail as ++ ')' :: rest)) :=
        congrArg (fun cs => some ((), cs)) (skipBlank_printAt writable 0 _)
      have step := map_of_some (f := Prod.snd) (seq_of_some comma (read_argument back as rest))
      rw [text, many_of_some (takes_argument takes) step,
        ih fun b later => h b (List.mem_cons_of_mem a later)]
      rfl

/-- All arguments are read back, also if there is none. -/
theorem separated_printArgs (takes : Takes 0 inner) {args : List Expr}
    (h : ∀ a ∈ args, IsWritable a ∧ ReadsBack inner 0 a) (rest : List Char)
    (closing : inner (')' :: rest) = none) :
    separated (mark ",") inner (printArgs args ++ ')' :: rest) = some (args, ')' :: rest) := by
  cases args with
  | nil =>
      rw [printArgs, List.nil_append]
      exact separated_of_none closing
  | cons a as =>
      have first := read_argument (h a List.mem_cons_self).2 as rest
      have others := many_argument takes (fun b later => h b (List.mem_cons_of_mem a later)) rest
      have no_comma : mark "," (')' :: rest) = none := rfl
      rw [printArgs_cons, List.append_assoc]
      exact separated_of_some first others no_comma

/-- A call leads further suffixes. -/
theorem leadsSuffixes_call (takes : Takes 0 inner) (closing : ∀ rest, inner (')' :: rest) = none)
    {args : List Expr} (h : LeadsSuffixes inner e)
    (inside : ∀ a ∈ args, IsWritable a ∧ ReadsBack inner 0 a) :
    LeadsSuffixes inner (.call e args) := by
  have bracket (cs : List Char) : Delimits ('(' :: cs) := delimits_cons (by decide) (by decide) cs
  refine h.suffix takes (.call args) (by rw [Suffix.apply, printAt]) (fun _ => bracket _) ?_
  intro rest _
  have no_blank : skipBlank (printArgs args ++ ')' :: rest) = printArgs args ++ ')' :: rest := by
    cases args with
    | nil => rfl
    | cons a as =>
        rw [printArgs_cons, List.append_assoc, skipBlank_printAt (inside a List.mem_cons_self).1]
  have call := between_brackets (mark "(") (mark ")") '(' ')' (fun _ => rfl) (fun _ => rfl)
    no_blank (separated_printArgs takes inside rest (closing rest))
  have no_point : mark "." ('(' :: (printArgs args ++ [')']) ++ rest) = none := rfl
  have no_bracket : mark "[" ('(' :: (printArgs args ++ [')']) ++ rest) = none := rfl
  refine ⟨skipBlank rest, .inr rfl, ?_⟩
  rw [suffixForm, orElse_of_none (map_of_none (seq_of_none no_point)),
    orElse_of_none (map_of_none (between_of_none no_bracket))]
  exact map_of_some call

end

/-- With so many brackets an expression is read back wherever its text has no more of them. -/
structure IsRead (depth : Nat) (e : Expr) : Prop where
  suffixes : nestingAt suffixLevel e ≤ depth → LeadsSuffixes (nested depth) e
  operators : ∀ op : BinaryOp, nestingAt op.level e ≤ depth →
    LeadsOperators (nested depth) op.level e
  back : ∀ place, place ≤ suffixLevel → nestingAt place e ≤ depth →
    ReadsBack (levelReader (nested depth) place) place e

/-- An expression is read at its own level without parentheses. -/
def OwnRead (depth : Nat) : Expr → Prop
  | .unary op operand =>
    ReadsBack (levelReader (nested depth) op.level) op.level (.unary op operand)
  | .binary op lhs rhs => LeadsOperators (nested depth) op.level (.binary op lhs rhs)
  | e => LeadsSuffixes (nested depth) e

theorem takes_inner (depth : Nat) : Takes 0 (nested depth) := (takes_nested depth).mono (by decide)

section

variable {depth : Nat} {e : Expr}

/-- An expression that is read at its own level without brackets is read back there. -/
theorem OwnRead.readsBack (h : OwnRead depth e) :
    ReadsBack (levelReader (nested depth) e.level) e.level e := by
  cases e with
  | unary op operand => exact h
  | binary op lhs rhs => exact LeadsOperators.readsBack h
  | _ => exact LeadsSuffixes.readsBack h

/-- An expression that needs no brackets before suffixes leads them. -/
theorem OwnRead.suffixes (h : OwnRead depth e) (tight : ¬ e.level < suffixLevel) :
    LeadsSuffixes (nested depth) e := by
  cases e with
  | unary op operand => exact absurd op.level_lt tight
  | binary op lhs rhs => exact absurd op.level_lt tight
  | _ => exact h

theorem OwnRead.operators (h : OwnRead depth e) {op : BinaryOp} (same : op.level = e.level) :
    LeadsOperators (nested depth) op.level e := by
  cases e with
  | unary op' operand => cases op <;> cases op' <;> cases same
  | binary op' lhs rhs =>
      rw [same]
      exact h
  | _ => exact absurd same (Nat.ne_of_lt op.level_lt)

/-- What stands inside brackets is read with one pair of brackets less. -/
theorem IsRead.inside (h : ∀ depth, IsRead depth e) (small : e.nesting < depth) :
    ReadsBack (nested depth) 0 e := by
  obtain ⟨depth, rfl⟩ := Nat.exists_eq_add_of_lt small
  exact (h _).back 0 (Nat.zero_le _) (Nat.le_add_right _ _)

/-- Once an expression is read at its own level, it is read everywhere: as it is at the looser
levels, and in parentheses at the tighter ones. -/
theorem isRead_of_ownRead (writable : IsWritable e)
    (own : ∀ depth, e.nesting ≤ depth → OwnRead depth e) :
    ∀ depth, IsRead depth e := by
  have loose {depth place : Nat} (le : place ≤ e.level) (small : e.nesting ≤ depth) :
      ReadsBack (levelReader (nested depth) place) place e := by
    refine (own depth small).readsBack.looser writable (level_le e) ?_ (Nat.zero_le place) le
    intro place _ le
    rw [printAt_of_le le, printAt_of_le (Nat.le_refl _)]
  have parentheses {depth : Nat} (bare : e.level < suffixLevel) (small : e.nesting < depth) :
      LeadsSuffixes (nested depth) e := by
    obtain ⟨depth, rfl⟩ := Nat.exists_eq_add_of_lt small
    exact leadsSuffixes_parentheses writable bare (loose (Nat.zero_le _) (Nat.le_add_right _ _))
  have tight {depth place : Nat} (lt : e.level < place) (le : place ≤ suffixLevel)
      (small : e.nesting < depth) : ReadsBack (levelReader (nested depth) place) place e := by
    have top := (parentheses (Nat.lt_of_lt_of_le lt le) small).readsBack
    refine top.looser writable (Nat.le_refl _) ?_ (Nat.succ_le_of_lt lt) le
    intro place lt le
    rw [printAt_of_lt lt le, printAt_of_lt (Nat.lt_of_lt_of_le lt le) (Nat.le_refl _)]
  have back {depth place : Nat} (le : place ≤ suffixLevel) (small : nestingAt place e ≤ depth) :
      ReadsBack (levelReader (nested depth) place) place e := by
    rcases Nat.lt_or_ge e.level place with lt | ge
    · rw [nestingAt_of_lt lt le] at small
      exact tight lt le small
    · rw [nestingAt_of_le ge] at small
      exact loose ge small
  intro depth
  refine ⟨fun small => ?_, fun op small => ?_, fun place => back⟩
  · by_cases bare : e.level < suffixLevel
    · rw [nestingAt_of_lt bare (Nat.le_refl _)] at small
      exact parentheses bare small
    · rw [nestingAt_of_le (Nat.not_lt.mp bare)] at small
      exact (own depth small).suffixes bare
  · by_cases same : op.level = e.level
    · rw [nestingAt_of_le (Nat.le_of_eq same)] at small
      exact (own depth small).operators same
    · have next : nestingAt (op.level + 1) e ≤ depth ∧
          printAt op.level e = printAt (op.level + 1) e := by
        rcases Nat.lt_or_gt_of_ne same with above | below
        · rw [nestingAt_of_le (Nat.le_of_lt above)] at small
          rw [nestingAt_of_le above, printAt_of_le above, printAt_of_le (Nat.le_of_lt above)]
          exact ⟨small, rfl⟩
        · have le := Nat.le_of_lt op.level_lt
          rw [nestingAt_of_lt below le] at small
          rw [nestingAt_of_lt (Nat.lt_succ_of_lt below) op.level_lt,
            printAt_of_lt (Nat.lt_succ_of_lt below) op.level_lt, printAt_of_lt below le]
          exact ⟨small, rfl⟩
      exact (back op.level_lt next.1).leadsOperators next.2

end

/-- Every writable expression is read back from its text, at every level. -/
theorem isRead {e : Expr} (h : IsWritable e) : ∀ depth, IsRead depth e := by
  induction h with
  | literal h => exact isRead_of_ownRead (.literal h) fun _ _ => leadsSuffixes_literal h
  | name ident free =>
      exact isRead_of_ownRead (.name ident free) fun _ _ => leadsSuffixes_name ident free
  | attr h ident ih =>
      refine isRead_of_ownRead (.attr h ident) fun depth small => ?_
      rw [nesting, nestingAt] at small
      exact leadsSuffixes_attr (takes_inner depth) ident ((ih depth).suffixes small)
  | index h inside ih ihInside =>
      refine isRead_of_ownRead (.index h inside) fun depth small => ?_
      rw [nesting, nestingAt, Nat.max_le] at small
      exact leadsSuffixes_index (takes_inner depth) inside ((ih depth).suffixes small.1)
        (IsRead.inside ihInside small.2)
  | call h inside ih ihInside =>
      refine isRead_of_ownRead (.call h inside) fun depth small => ?_
      rw [nesting, nestingAt, Nat.max_le] at small
      refine leadsSuffixes_call (takes_inner depth) (nested_closing depth (.inl rfl))
        ((ih depth).suffixes small.1) fun a member => ⟨inside a member, ?_⟩
      exact IsRead.inside (ihInside a member)
        (Nat.lt_of_le_of_lt (le_nestingArgs member) small.2)
  | unary op h ih =>
      refine isRead_of_ownRead (.unary op h) fun depth small => ?_
      rw [nesting, nestingAt, if_neg (Nat.not_lt_zero _), Nat.add_zero] at small
      exact ReadsBack.unary op h ((ih depth).back op.level (Nat.le_of_lt op.level_lt) small)
  | binary op left right ihl ihr =>
      refine isRead_of_ownRead (.binary op left right) fun depth small => ?_
      rw [nesting, nestingAt, if_neg (Nat.not_lt_zero _), Nat.add_zero, Nat.max_le] at small
      exact .binary (takes_inner depth) op right ((ihl depth).operators op small.1)
        ((ihr depth).back (op.level + 1) op.level_lt small.2)

/-- A written expression is read back. The limit of nesting does not come into it here. -/
theorem read_printAt {e : Expr} (h : IsWritable e) : read (printAt 0 e) = some e := by
  have small : e.nesting ≤ (printAt 0 e).length := nestingAt_le_length h 0
  obtain ⟨left, remains, reads⟩ := (isRead h _).back 0 (Nat.zero_le _) small [] .nothing
  have nothing : left = [] := by rcases remains with rfl | rfl <;> rfl
  have text := skipBlank_printAt h 0 []
  rw [List.append_nil] at text reads
  rw [read, readNested, padded, text, nested_succ, reads, nothing]
  rfl

/-- The reader of expressions inverts the printer. A printed text is refused only for its length or
for the depth of its brackets. -/
theorem parse_print {e : Expr} (writable : e.IsWritable)
    (short : (Text.encode (print e).toList).length ≤ maxExpressionLength)
    (shallow : e.nesting ≤ maxNesting) : parse (print e) = .ok e := by
  have accepted : checkNesting (print e).toList = .ok () := by
    rw [checkNesting, if_neg (Nat.not_lt.mpr short), print, String.toList_ofList,
      tooDeepFrom_print writable, decide_eq_false (Nat.not_lt.mpr shallow),
        if_neg Bool.false_ne_true]
  rw [parse, accepted]
  dsimp only
  rw [print, String.toList_ofList, read_printAt writable]

/-- A condition with an attribute that is called like an operator, operands that need parentheses
and others that do not, and a text that holds quotes of both kinds. -/
def mixedCondition : Expr :=
  .binary .and
    (.binary .or (.name "a") (.name "b"))
    (.unary .not
      (.binary .le
        (.unary .neg (.attr (.literal (.int 5)) "not"))
        (.call
          (.index (.name "f") (.binary .sub (.literal (.int 1))
            (.binary .sub (.name "x") (.name "y"))))
          [.literal (.str "it's \"\n"), .call (.literal .null) []])))

/-- The example is an expression that has a text. -/
theorem mixedCondition_isWritable : mixedCondition.IsWritable := by
  have name (id : String) (ident : isIdent id.toList = true) (free : id ∉ keywords) :
      IsWritable (.name id) := .name ident free
  refine .binary _ (.binary _ (name _ rfl (by decide)) (name _ rfl (by decide)))
    (.unary _ (.binary _ ?_ ?_))
  · exact .unary _ (.attr (.literal (by decide)) rfl)
  · refine .call (.index (name _ rfl (by decide)) ?_) ?_
    · exact .binary _ (.literal (by decide))
        (.binary _ (name _ rfl (by decide)) (name _ rfl (by decide)))
    · intro a member
      rcases List.mem_pair.mp member with rfl | rfl
      · exact .literal (by decide)
      · exact .call (.literal trivial) nofun

/-- The printed condition is its own tree again. -/
theorem mixedCondition_is_read :
    print mixedCondition = "(a or b) and not -5.not <= f[1 - (x - y)]('it\\'s \"\\n', None())" ∧
      parse (print mixedCondition) = .ok mixedCondition :=
  ⟨by decide, parse_print mixedCondition_isWritable (by decide) (by decide)⟩

end Expr

end RemoteDebugger
