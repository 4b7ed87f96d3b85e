import RemoteDebugger.Proofs.Expression.Arithmetic
import RemoteDebugger.Proofs.Expression.RoundTrip
import RemoteDebugger.Proofs.Value.Rendering
import RemoteDebugger.Value.Equality

/-!
# The text of a scalar is an expression for it

What is shown for a scalar can be typed in again. The text of a value and the text of an expression
are written apart from each other, but for a scalar they are the same: there is an expression
without brackets, a literal or a literal with a minus sign, that is printed as the scalar is shown.
The reader reads this expression back, in whatever quotes the text of a string stands and whatever
is in it, and its value is the scalar. A text that is not cut is never too long to be read.
-/

namespace RemoteDebugger

/-- The scalars whose texts are expressions. The least integer is none of them, because its digits
are no integer without the sign, and neither is a string with control characters that the grammar
has no escape for. -/
def Value.IsWritable : Value → Prop
  | .null | .bool _ => True
  | .int n => n ≠ Int64.minValue
  | .str s => ∀ c ∈ s.toList, Expr.IsLiteralChar c
  | _ => False

instance (v : Value) : Decidable v.IsWritable :=
  match v with
  | .null | .bool _ => .isTrue trivial
  | .int n => inferInstanceAs (Decidable (n ≠ Int64.minValue))
  | .str s => List.decidableBAll Expr.IsLiteralChar s.toList
  | .float _ | .bytes _ | .list _ | .tuple _ | .set _ | .dict _ | .object _ _ | .foreign _ _ _ =>
    .isFalse id

namespace Expr

/-- The expression that is printed as a scalar is shown. -/
def ofScalar : Value → Expr
  | .bool b => .literal (.bool b)
  | .int n => if n.toInt < 0 then .unary .neg (.literal (.int (-n))) else .literal (.int n)
  | .str s => .literal (.str s)
  | _ => .literal .null

section

variable {v : Value} {n : Int64}

/-- A negative integer has an opposite, unless it is the least one. -/
theorem toInt_neg_of_ne (least : n ≠ Int64.minValue) : (-n).toInt = -n.toInt := by
  have above : n.toInt ≠ -2 ^ 63 := fun same =>
    least (Int64.toInt_inj.mp (same.trans Int64.toInt_minValue.symm))
  obtain ⟨low, high⟩ := isInt64_toInt n
  rw [Int64.toInt_neg]
  exact Int.bmod_eq_of_le (by omega) (by omega)

/-- The expression of a scalar has a text: a sign is written as an operator. -/
theorem isWritable_ofScalar (h : v.IsWritable) : (ofScalar v).IsWritable := by
  cases v with
  | null => exact .literal trivial
  | bool b => exact .literal trivial
  | int n =>
      rw [ofScalar]
      split
      next negative =>
        refine .unary _ (.literal ?_)
        rw [Literal.IsWritable, toInt_neg_of_ne h]
        omega
      next positive => exact .literal (Int.not_lt.mp positive)
  | str s => exact .literal h
  | _ => cases h

/-- A scalar is written without brackets, except for those that a text may contain. -/
theorem nesting_ofScalar (v : Value) : (ofScalar v).nesting = 0 := by
  cases v with
  | int n =>
      rw [ofScalar]
      split <;> rfl
  | _ => rfl

/-- A scalar is shown as its expression is printed. -/
theorem print_ofScalar (h : v.IsWritable) (heap : Heap) (levels : Nat) :
    print (ofScalar v) = v.fullText heap levels := by
  have shown {cs : List Char} (plain : v.shape = .text cs) :
      v.fullText heap levels = String.ofList cs := by
    rw [Value.fullText_eq, Value.drawing_text plain]
    rfl
  cases v with
  | null => exact (shown rfl).symm
  | bool b => exact (shown rfl).symm
  | int n =>
      rw [shown rfl, ofScalar, print]
      split
      next negative =>
        have digits : (toString n.toInt).toList = '-' :: (toString (-n).toInt).toList := by
          rw [toInt_neg_of_ne h, Text.toList_toString_int, Text.toList_toString_int,
            if_pos negative, if_neg (by omega), Int.natAbs_neg]
        rw [digits]
        rfl
      next positive => rfl
  | str s => exact (shown rfl).symm
  | _ => cases h

/-- The value of the expression is the scalar, in every frame. -/
theorem eval_ofScalar (h : v.IsWritable) (f : Frame) (heap : Heap) :
    (eval f (ofScalar v)).run heap = .ok (v, heap) := by
  cases v with
  | null | bool | str =>
      simp only [ofScalar, eval]
      rfl
  | int n =>
      rw [ofScalar]
      split
      next negative =>
        have operand : (eval f (.literal (.int (-n)))).run heap = .ok (.int (-n), heap) := by
          simp only [eval]
          rfl
        have back : ofInt (-(-n).toInt) = pure (.int n) := by
          rw [toInt_neg_of_ne h, Int.neg_neg, ofInt,
            if_pos ⟨(isInt64_toInt n).1, (isInt64_toInt n).2⟩, Int64.ofInt_toInt]
        rw [run_unary operand]
        exact congrArg (fun x : Eval Value => x.run heap) back
      next positive =>
        simp only [eval]
        rfl
  | _ => cases h

/-- No character takes more than four bytes. -/
theorem length_encode_le (cs : List Char) : (Text.encode cs).length ≤ 4 * cs.length := by
  induction cs with
  | nil => exact Nat.le_refl 0
  | cons c cs ih =>
      have size := c.utf8Size_le_four
      rw [Text.encode_cons, List.length_append, String.length_utf8EncodeChar, List.length_cons]
      omega

/-- The text of a scalar is whole if it fits into the limits. -/
theorem cut_eq_false_iff {heap : Heap} {limits : Limits} :
    (v.write heap limits.depth [] (.bounded limits.length)).cut = false ↔
      (v.fullText heap limits.depth).length ≤ limits.length := by
  rw [Value.write_eq_put, (Writer.put_limited rfl rfl).2, decide_eq_false_iff_not, Nat.not_lt,
    Value.fullText_eq, String.length_ofList]

/-- The expression of a scalar is read from its text, unless the text is cut. -/
theorem checkNesting_print {e : Expr} (writable : e.IsWritable) (short : (print e).length ≤ 1000)
    (shallow : e.nesting ≤ maxNesting) : checkNesting (print e).toList = .ok () := by
  have bytes := length_encode_le (print e).toList
  have fits : ¬ (Text.encode (print e).toList).length > maxExpressionLength := by
    rw [String.length_toList] at bytes
    unfold maxExpressionLength
    omega
  rw [checkNesting, if_neg fits, print, String.toList_ofList, tooDeepFrom_print writable,
    decide_eq_false (Nat.not_lt.mpr shallow), if_neg Bool.false_ne_true]

theorem equals_self (h : v.IsWritable) (heap : Heap) : v.equals heap v = true := by
  cases v with
  | null => rfl
  | bool | int | str => simp [Value.equals, Value.equalWithin]
  | _ => cases h

/-- What is typed in is read as an expression whose value, in every frame of a program, is this
one. -/
structure Yields (p : Program) (text : String) (e : Expr) (v : Value) : Prop where
  accepted : checkNesting text.toList = .ok ()
  read : parse text = .ok e
  value (r : FrameRef) : evaluate p r text = .ok (v, p.heap)
  equal : v.equals p.heap v = true

/-- The text of a scalar, if it is not cut, yields the scalar. The text of a string is read as one
literal, so nothing in the string ends it or is taken for a bracket. -/
theorem scalar_text_yields_scalar (p : Program) {v : Value} (writable : v.IsWritable)
    (whole : (v.write p.heap ({} : Limits).depth [] (.bounded ({} : Limits).length)).cut = false) :
    Yields p (v.render p.heap {}) (ofScalar v) v := by
  have short := cut_eq_false_iff.mp whole
  have text : v.render p.heap {} = print (ofScalar v) := by
    rw [Value.render_eq_atMost, Text.atMost_of_le short, print_ofScalar writable]
  have accepted : checkNesting (print (ofScalar v)).toList = .ok () := by
    refine checkNesting_print (isWritable_ofScalar writable) ?_ ?_
    · rwa [print_ofScalar writable]
    · rw [nesting_ofScalar]
      exact Nat.zero_le _
  have read : parse (print (ofScalar v)) = .ok (ofScalar v) := by
    rw [parse, accepted]
    dsimp only
    rw [print, String.toList_ofList, read_printAt (isWritable_ofScalar writable)]
  rw [text]
  refine ⟨accepted, read, fun r => ?_, ?_⟩
  · rw [evaluate, read]
    exact eval_ofScalar writable (p.frame r) p.heap
  · exact equals_self writable p.heap

/-- A string of what might end a literal or count as a bracket: quotes of both kinds, backslashes,
brackets and characters that are escaped. -/
def awkwardText : Value := .str "it's \"((\\\n[é"

/-- The text of such a string yields this string. -/
theorem awkwardText_yields_itself :
    awkwardText.render default {} = "'it\\'s \"((\\\\\\n[é'" ∧
      Yields default "'it\\'s \"((\\\\\\n[é'" (.literal (.str "it's \"((\\\n[é")) awkwardText := by
  have text : awkwardText.render default {} = "'it\\'s \"((\\\\\\n[é'" := by decide
  have yields := scalar_text_yields_scalar default (v := awkwardText) (by decide) (by decide)
  exact ⟨text, text ▸ yields⟩

end

end Expr

end RemoteDebugger
