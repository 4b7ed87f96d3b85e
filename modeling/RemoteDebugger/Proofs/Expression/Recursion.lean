import RemoteDebugger.Proofs.Expression.Scan

/-!
# How deep the grammar goes

The grammar of one level of brackets is written down as a form: a tree of tokens and of the ways to
combine readers, with a hole wherever the rule for expressions stands. Reading a form gives back the
reader of the grammar, so the tree is the same grammar and only makes visible where the rule is
entered. The places met on any branch, also on those that fail later, are a relation over this tree.

Every hole stands in brackets, hence each entry of the rule is one bracket further in. What is read
between two entries is whole to the scan, so the scan has counted exactly the brackets that are open
there, and a text it accepts never brings the rule deeper than the bound.
-/

namespace RemoteDebugger

namespace Expr

open Reader

/-- A part of the grammar, with holes for expressions. What a form reads is told by `reader`, and
where it enters a hole by `Meets`. -/
inductive Form : Type → Type 1
  | token {α : Type} (p : Reader α) (whole : Balanced p) : Form α
  | expression : Form Expr
  | enclosed {α : Type} (b : Bracket) (p : Form α) : Form α
  | map {α β : Type} (f : α → β) (p : Form α) : Form β
  | padded {α : Type} (p : Form α) : Form α
  | orElse {α : Type} (p q : Form α) : Form α
  | seq {α β : Type} (p : Form α) (q : Form β) : Form (α × β)
  | many {α : Type} (p : Form α) : Form (List α)
  | separated {α : Type} (mark : Reader Unit) (whole : Balanced mark) (item : Form α) :
      Form (List α)

namespace Form

/-- The reader of a form, given a reader for its holes. -/
def reader (inner : Reader Expr) : {α : Type} → Form α → Reader α
  | _, token p _ => p
  | _, expression => inner
  | _, enclosed b p => between (mark b.opening) (mark b.closing) (p.reader inner)
  | _, map f p => Reader.map f (p.reader inner)
  | _, padded p => Reader.padded (p.reader inner)
  | _, orElse p q => Reader.orElse (p.reader inner) (q.reader inner)
  | _, seq p q => Reader.seq (p.reader inner) (q.reader inner)
  | _, many p => Reader.many (p.reader inner)
  | _, separated mark _ item => Reader.separated mark (item.reader inner)

/-- Every hole stands in brackets. -/
def Guarded : {α : Type} → Form α → Prop
  | _, token _ _ => True
  | _, expression => False
  | _, enclosed _ _ => True
  | _, map _ p => p.Guarded
  | _, padded p => p.Guarded
  | _, orElse p q => p.Guarded ∧ q.Guarded
  | _, seq p q => p.Guarded ∧ q.Guarded
  | _, many p => p.Guarded
  | _, separated _ _ item => item.Guarded

def leftAssoc (op : Form BinaryOp) (operand : Form Expr) : Form Expr :=
  map (fun r => r.2.foldl (fun e p => .binary p.1 e p.2) r.1) (seq operand (many (seq op operand)))

def withOps (op : Form UnaryOp) (operand : Form Expr) : Form Expr :=
  map (fun r => r.1.foldr (fun o e => .unary o e) r.2) (seq (many op) operand)

def atom : Form Expr :=
  padded (orElse (map Expr.literal (orElse (token number balanced_number)
      (token textLiteral balanced_textLiteral)))
    (orElse (token word balanced_word) (enclosed .round expression)))

def suffix : Form Suffix :=
  orElse (map (fun r => Suffix.attr r.2)
      (seq (token (mark ".") (balanced_mark (by decide))) (token ident balanced_ident)))
    (orElse (map Suffix.index (enclosed .square expression))
      (map Suffix.call
        (enclosed .round (separated (mark ",") (balanced_mark (by decide)) expression))))

def suffixed : Form Expr := map (fun r => r.2.foldl Suffix.apply r.1) (seq atom (many suffix))

/-- The operators between the operands of a level, and those before the operand of a level. -/
def operators (level : Nat) : Form BinaryOp := token (operatorAt level) (balanced_operatorAt level)

@[inherit_doc operators] def signs (level : Nat) : Form UnaryOp :=
  token (leadingAt level) (balanced_leadingAt level)

/-- The form of `Expr.disjunction`: what the grammar reads at one level of brackets. -/
def disjunction : Form Expr :=
  leftAssoc (operators 0) (leftAssoc (operators 1) (withOps (signs 2) (leftAssoc (operators 3)
    (leftAssoc (operators 4) (leftAssoc (operators 5) (withOps (signs 6) suffixed))))))

@[simp] theorem reader_disjunction (inner : Reader Expr) :
    disjunction.reader inner = Expr.disjunction inner :=
  rfl

theorem guarded_disjunction : disjunction.Guarded := by
  simp [disjunction, leftAssoc, withOps, operators, signs, suffixed, atom, suffix, Guarded]

/-- Reading a form from `s`, a hole is entered with `rest` left of the text and `n` brackets of the
form open. An alternative counts as soon as it is tried, whether or not it is read to its end. -/
inductive Meets (inner : Reader Expr) :
    {α : Type} → Form α → List Char → Nat → List Char → Prop
  | expression (s : List Char) : Meets inner expression s 0 s
  | enclosed {α : Type} {b : Bracket} {p : Form α} {s t rest : List Char} {n : Nat}
      (opened : mark b.opening s = some ((), t)) (inside : Meets inner p t n rest) :
      Meets inner (enclosed b p) s (n + 1) rest
  | map {α β : Type} {f : α → β} {p : Form α} {s rest : List Char} {n : Nat}
      (inside : Meets inner p s n rest) : Meets inner (map f p) s n rest
  | padded {α : Type} {p : Form α} {s rest : List Char} {n : Nat}
      (inside : Meets inner p (Text.skipBlank s) n rest) : Meets inner (padded p) s n rest
  | first {α : Type} {p q : Form α} {s rest : List Char} {n : Nat}
      (inside : Meets inner p s n rest) : Meets inner (orElse p q) s n rest
  | second {α : Type} {p q : Form α} {s rest : List Char} {n : Nat}
      (failed : p.reader inner s = none) (inside : Meets inner q s n rest) :
      Meets inner (orElse p q) s n rest
  | front {α β : Type} {p : Form α} {q : Form β} {s rest : List Char} {n : Nat}
      (inside : Meets inner p s n rest) : Meets inner (seq p q) s n rest
  | back {α β : Type} {p : Form α} {q : Form β} {s t rest : List Char} {a : α} {n : Nat}
      (read : p.reader inner s = some (a, t)) (inside : Meets inner q t n rest) :
      Meets inner (seq p q) s n rest
  | item {α : Type} {p : Form α} {s rest : List Char} {n : Nat}
      (inside : Meets inner p s n rest) : Meets inner (many p) s n rest
  | next {α : Type} {p : Form α} {s t rest : List Char} {a : α} {n : Nat}
      (read : p.reader inner s = some (a, t)) (inside : Meets inner (many p) t n rest) :
      Meets inner (many p) s n rest
  | entry {α : Type} {mark : Reader Unit} {whole : Balanced mark} {p : Form α} {s rest : List Char}
      {n : Nat} (inside : Meets inner p s n rest) : Meets inner (separated mark whole p) s n rest
  | further {α : Type} {mark : Reader Unit} {whole : Balanced mark} {p : Form α}
      {s t rest : List Char}
      {a : α} {n : Nat} (read : p.reader inner s = some (a, t))
      (inside : Meets inner (many (.map Prod.snd (.seq (.token mark whole) p))) t n rest) :
      Meets inner (separated mark whole p) s n rest

variable {inner inner' : Reader Expr} {α : Type} {p : Form α} {s rest : List Char} {n : Nat}

/-- Every form is balanced if the expressions inside its brackets are. -/
theorem reader_balanced (h : Balanced inner) (p : Form α) : Balanced (p.reader inner) := by
  induction p with
  | token p whole => exact whole
  | expression => exact h
  | enclosed b p ih => exact ih.enclosed b
  | map f p ih => exact ih.map f
  | padded p ih => exact ih.padded
  | orElse p q ihp ihq => exact ihp.orElse ihq
  | seq p q ihp ihq => exact ihp.seq ihq
  | many p ih => exact ih.many
  | separated mark whole item ih => exact whole.separated ih

/-- Up to a hole the scan counts the brackets that are open there. -/
theorem Meets.advances (h : Balanced inner) (met : p.Meets inner s n rest) : Advances n s rest := by
  induction met with
  | expression s => exact .refl s
  | enclosed opened _ ih => exact ((advances_opening _ opened).trans ih).of_eq (Nat.add_comm _ _)
  | map _ ih => exact ih
  | padded _ ih => exact ((advances_skipBlank _).trans ih).of_eq (Nat.zero_add _)
  | first _ ih => exact ih
  | second _ _ ih => exact ih
  | front _ ih => exact ih
  | back read _ ih => exact ((reader_balanced h _ _ _ _ read).trans ih).of_eq (Nat.zero_add _)
  | item _ ih => exact ih
  | next read _ ih => exact ((reader_balanced h _ _ _ _ read).trans ih).of_eq (Nat.zero_add _)
  | entry _ ih => exact ih
  | further read _ ih => exact ((reader_balanced h _ _ _ _ read).trans ih).of_eq (Nat.zero_add _)

/-- A guarded form enters its holes inside brackets only, so one at least is open there. -/
theorem Meets.pos (met : p.Meets inner s n rest) (guarded : p.Guarded) : 0 < n := by
  induction met with
  | expression => exact guarded.elim
  | enclosed => exact Nat.succ_pos _
  | map _ ih => exact ih guarded
  | padded _ ih => exact ih guarded
  | first _ ih => exact ih guarded.1
  | second _ _ ih => exact ih guarded.2
  | front _ ih => exact ih guarded.1
  | back _ _ ih => exact ih guarded.2
  | item _ ih => exact ih guarded
  | next _ _ ih => exact ih guarded
  | entry _ ih => exact ih guarded
  | further _ _ ih => exact ih ⟨trivial, guarded⟩

/-- Two readers agree wherever a hole is entered. Elsewhere in the text they may differ. -/
def AgreeAt (inner inner' : Reader Expr) {α : Type} (p : Form α) (s : List Char) : Prop :=
  ∀ n rest, p.Meets inner s n rest → inner rest = inner' rest

/-- Repeated forms agree if each single one does, wherever it is tried. -/
theorem manyUpTo_reader_agree {s : List Char} (fuel : Nat)
    (same : ∀ s, AgreeAt inner inner' p s → p.reader inner s = p.reader inner' s)
    (agree : AgreeAt inner inner' (many p) s) :
    manyUpTo (p.reader inner) fuel s = manyUpTo (p.reader inner') fuel s := by
  refine manyUpTo_agree (AgreeAt inner inner' (many p))
    (fun s tried => same s fun n rest met => tried n rest (.item met)) ?_ fuel agree
  intro s a t tried read n rest met
  exact tried n rest (.next read met)

/-- What a form reads depends on its holes only at the places where they are entered. -/
theorem reader_agree {p : Form α} {s : List Char} (agree : AgreeAt inner inner' p s) :
    p.reader inner s = p.reader inner' s := by
  induction p generalizing s with
  | token => rfl
  | expression => exact agree 0 s (.expression s)
  | enclosed b p ih =>
      rw [reader, reader, between, between]
      refine map_agree _ (seq_agree (seq_agree rfl fun _ t opened => ?_) fun _ _ _ => rfl)
      exact ih fun n rest met => agree (n + 1) rest (.enclosed opened met)
  | map f p ih => exact map_agree f (ih fun n rest met => agree n rest (.map met))
  | padded p ih =>
      rw [reader, reader, Reader.padded, Reader.padded, ih fun n rest met =>
        agree n rest (.padded met)]
  | orElse p q ihp ihq =>
      refine orElse_agree (ihp fun n rest met => agree n rest (.first met)) fun failed => ?_
      exact ihq fun n rest met => agree n rest (.second failed met)
  | seq p q ihp ihq =>
      refine seq_agree (ihp fun n rest met => agree n rest (.front met)) fun a t read => ?_
      exact ihq fun n rest met => agree n rest (.back read met)
  | many p ih =>
      rw [reader, reader, Reader.many, Reader.many,
        manyUpTo_reader_agree s.length (fun s => ih) agree]
  | separated mark whole item ih =>
      have first := ih fun n rest met => agree n rest (.entry met)
      rw [reader, reader, Reader.separated, Reader.separated, ← first]
      cases found : item.reader inner s with
      | none => rfl
      | some r =>
          have next (s : List Char)
              (agree : AgreeAt inner inner' (.map Prod.snd (.seq (.token mark whole) item)) s) :
              Reader.map Prod.snd (Reader.seq mark (item.reader inner)) s =
                Reader.map Prod.snd (Reader.seq mark (item.reader inner')) s := by
            refine map_agree _ (seq_agree rfl fun _ t marked => ih fun n rest met => ?_)
            exact agree n rest (.map (.back marked met))
          have others := manyUpTo_reader_agree r.2.length next fun n rest met =>
            agree n rest (.further found met)
          simp only [reader] at others
          simp only [others]

end Form

section

variable {inner inner' : Reader Expr} {s rest : List Char} {n : Nat}

/-- What the grammar reads at one level of brackets depends only on the places where it enters the
rule for expressions. -/
theorem disjunction_agree (agree : Form.disjunction.AgreeAt inner inner' s) :
    disjunction inner s = disjunction inner' s := by
  rw [← Form.reader_disjunction, ← Form.reader_disjunction]
  exact Form.reader_agree agree

theorem length_lt_of_meets (h : Balanced inner) (met : Form.disjunction.Meets inner s n rest) :
    rest.length < s.length :=
  (met.advances h).length_lt (met.pos Form.guarded_disjunction)

end

/-- At every depth, what is read closes the brackets that it opens. -/
theorem nested_balanced (depth : Nat) : Balanced (nested depth) := by
  induction depth with
  | zero => exact leaves_fail
  | succ depth ih =>
      rw [nested, ← Form.reader_disjunction]
      exact Form.reader_balanced ih Form.disjunction

/-- A bound that the brackets of the text cannot reach makes no difference. -/
theorem nested_eq_nested {depth depth' : Nat} {s : List Char} (enough : s.length < depth)
    (enough' : s.length < depth') : nested depth s = nested depth' s := by
  induction depth generalizing depth' s with
  | zero => exact absurd enough (Nat.not_lt_zero _)
  | succ depth ih =>
      obtain ⟨depth', rfl⟩ : ∃ d, depth' = d + 1 := ⟨depth' - 1, by omega⟩
      rw [nested, nested]
      refine disjunction_agree fun n rest met => ?_
      have shorter := length_lt_of_meets (nested_balanced depth) met
      exact ih (by omega) (by omega)

/-- The rule for expressions without a bound on its depth. -/
def unrestricted : Reader Expr := fun s => nested (s.length + 1) s

theorem unrestricted_balanced : Balanced unrestricted := fun s =>
  nested_balanced (s.length + 1) s

theorem nested_eq_unrestricted {depth : Nat} {s : List Char} (enough : s.length < depth) :
    nested depth s = unrestricted s :=
  nested_eq_nested enough (Nat.lt_succ_self _)

/-- The rule is what the grammar reads at one level, with the rule itself in brackets. -/
theorem unrestricted_eq (s : List Char) : unrestricted s = disjunction unrestricted s := by
  rw [unrestricted, nested]
  refine disjunction_agree fun n rest met => ?_
  exact nested_eq_unrestricted (length_lt_of_meets (nested_balanced s.length) met)

/-- No other reader is. -/
theorem eq_unrestricted_iff {rule : Reader Expr} :
    rule = disjunction rule ↔ rule = unrestricted := by
  constructor
  · intro unfolds
    funext s
    induction length : s.length using Nat.strongRecOn generalizing s with
    | ind n ih =>
        subst length
        rw [unfolds, unrestricted_eq]
        refine (disjunction_agree fun n rest met => ?_).symm
        exact (ih rest.length (length_lt_of_meets unrestricted_balanced met) rest rfl).symm
  · rintro rfl
    exact funext unrestricted_eq

/-- The rule, started at `s`, is entered with `rest` left of the text and `n` brackets opened and
not yet closed on the way there, on a branch that may fail later. -/
inductive Enters : List Char → Nat → List Char → Prop
  | here (s : List Char) : Enters s 0 s
  | deeper {s t rest : List Char} {m n : Nat} (met : Form.disjunction.Meets unrestricted s m t)
      (inside : Enters t n rest) : Enters s (m + n) rest

theorem Enters.advances {s rest : List Char} {n : Nat} (entered : Enters s n rest) :
    Advances n s rest := by
  induction entered with
  | here s => exact .refl s
  | deeper met _ ih => exact (met.advances unrestricted_balanced).trans ih

/-- An opening parenthesis is met on every level of the grammar. -/
theorem meets_parenthesis (inner : Reader Expr) (rest : List Char) :
    Form.disjunction.Meets inner ('(' :: rest) 1 (Text.skipBlank rest) := by
  have bracket : Form.atom.Meets inner ('(' :: rest) 1 (Text.skipBlank rest) :=
    .padded (.second rfl (.second rfl (.enclosed rfl (.expression _))))
  have operand {level : Nat} {operand : Form Expr}
      (met : operand.Meets inner ('(' :: rest) 1 (Text.skipBlank rest)) :
      (Form.leftAssoc (.operators level) operand).Meets inner ('(' :: rest) 1
        (Text.skipBlank rest) :=
    .map (.front met)
  have unsigned {level : Nat} {operand : Form Expr} (no_sign : leadingAt level ('(' :: rest) = none)
      (met : operand.Meets inner ('(' :: rest) 1 (Text.skipBlank rest)) :
      (Form.withOps (.signs level) operand).Meets inner ('(' :: rest) 1 (Text.skipBlank rest) :=
    .map (.back (many_of_none no_sign) met)
  have suffixed : Form.suffixed.Meets inner ('(' :: rest) 1 (Text.skipBlank rest) :=
    .map (.front bracket)
  exact operand (operand (unsigned rfl (operand (operand (operand (unsigned rfl suffixed))))))

/-- Every opening parenthesis brings the rule one bracket deeper, so there is a text for every
depth. -/
theorem enters_parentheses (n : Nat) {rest : List Char} (no_blank : Text.skipBlank rest = rest) :
    Enters (List.replicate n '(' ++ rest) n rest := by
  induction n with
  | zero => exact .here rest
  | succ n ih =>
      have start : Text.skipBlank (List.replicate n '(' ++ rest) =
          List.replicate n '(' ++ rest := by
        cases n with
        | zero => exact no_blank
        | succ n => rfl
      have met := meets_parenthesis unrestricted (List.replicate n '(' ++ rest)
      rw [start] at met
      rw [List.replicate_succ, List.cons_append, Nat.add_comm]
      exact .deeper met ih

/-- A bound above the depth of every entry makes no difference. -/
theorem nested_eq_unrestricted_of_entries {depth : Nat} {s : List Char}
    (bounded : ∀ n rest, Enters s n rest → n < depth) : nested depth s = unrestricted s := by
  induction depth generalizing s with
  | zero => exact absurd (bounded 0 s (.here s)) (Nat.not_lt_zero 0)
  | succ depth ih =>
      rw [unrestricted_eq, nested]
      refine (disjunction_agree fun m t met => ?_).symm
      refine (ih fun n rest inside => ?_).symm
      have pos := met.pos Form.guarded_disjunction
      have deeper := bounded (m + n) rest (.deeper met inside)
      omega

/-- The text from front to end by a rule for expressions. -/
def readWhole (rule : Reader Expr) (s : List Char) : Option Expr :=
  match padded rule s with
  | some (e, []) => some e
  | _ => none

theorem readNested_eq_readWhole {depth : Nat} {s : List Char}
    (same : nested depth (Text.skipBlank s) = unrestricted (Text.skipBlank s)) :
    readNested depth s = readWhole unrestricted s := by
  show readWhole (nested depth) s = readWhole unrestricted s
  rw [readWhole, readWhole, padded, padded, same]

/-- Texts are read by the unrestricted rule. -/
theorem read_eq_readWhole (s : List Char) : read s = readWhole unrestricted s :=
  readNested_eq_readWhole
    (nested_eq_unrestricted (Nat.lt_succ_of_le (Text.skipBlank_suffix s).length_le))

/-- A text that is accepted is one that the scan does not refuse. -/
theorem not_tooDeep_of_checkNesting {s : List Char} (accepted : checkNesting s = .ok ()) :
    tooDeepFrom {} s = false := by
  rw [checkNesting] at accepted
  split at accepted
  · cases accepted
  · split at accepted
    · cases accepted
    · rename_i shallow
      exact Bool.not_eq_true _ ▸ shallow

/-- In a text that the check accepts, no branch of the grammar enters the rule for expressions more
than `maxNesting` brackets deep, and the scan has counted exactly these brackets at every entry.
Reading with a bound above `maxNesting` thus has the same result, a success or a failure, as reading
without one. -/
theorem accepted_nesting_bounds_recursion {s : List Char} (accepted : checkNesting s = .ok ()) :
    (∀ n rest, Enters (Text.skipBlank s) n rest → n ≤ maxNesting ∧ Advances n s rest) ∧
      ∀ depth, maxNesting < depth → readNested depth s = readWhole unrestricted s := by
  have entries (n : Nat) (rest : List Char) (entered : Enters (Text.skipBlank s) n rest) :
      n ≤ maxNesting ∧ Advances n s rest := by
    have advanced := ((advances_skipBlank s).trans entered.advances).of_eq (Nat.zero_add n)
    exact ⟨advanced.le_maxNesting (not_tooDeep_of_checkNesting accepted), advanced⟩
  refine ⟨entries, fun depth deep => readNested_eq_readWhole (nested_eq_unrestricted_of_entries ?_)⟩
  intro n rest entered
  exact Nat.lt_of_le_of_lt (entries n rest entered).1 deep

/-- Two brackets, the wrong mark to close them, a bracket in a text literal and a quote that is
never closed: the text is accepted, the rule is entered in both brackets, and the bound makes no
difference. -/
theorem mismatched_brackets_same_result :
    checkNesting "((x]('(' + '[".toList = .ok () ∧
      (2 ≤ maxNesting ∧ Advances 2 "((x]('(' + '[".toList "x]('(' + '[".toList) ∧
      readNested (maxNesting + 1) "((x]('(' + '[".toList =
        readWhole unrestricted "((x]('(' + '[".toList :=
  have accepted : checkNesting "((x]('(' + '[".toList = .ok () := rfl
  ⟨accepted, (accepted_nesting_bounds_recursion accepted).1 2 _ (enters_parentheses 2 rfl),
    (accepted_nesting_bounds_recursion accepted).2 (maxNesting + 1) (Nat.lt_succ_self _)⟩

end Expr

end RemoteDebugger
