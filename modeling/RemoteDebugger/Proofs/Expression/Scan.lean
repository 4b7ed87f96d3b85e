import RemoteDebugger.Proofs.Expression.Grammar
import RemoteDebugger.Proofs.Expression.Nesting

/-!
# The scan of what readers take

The scan for brackets knows nothing of tokens, and the readers know nothing of the scan. They agree
because a reader that takes something takes whole tokens: text literals from quote to quote,
brackets in pairs, and otherwise characters that are neither a quote nor a bracket. What is taken
thus leaves the scan as deep as it was, whatever depth it had, and what the text goes on with plays
no role in it.
-/

namespace RemoteDebugger

namespace Expr

open Reader
open NestingScan (outside within)

/-- What stands in a text before its end `rest` opens `n` brackets more than it closes, and no text
literal is open after it. -/
def Advances (n : Nat) (s rest : List Char) : Prop :=
  ∃ taken, s = taken ++ rest ∧ ∀ depth, taken.foldl NestingScan.step (outside depth) =
    outside (depth + n)

section

variable {m n : Nat} {s t rest : List Char}

theorem Advances.refl (s : List Char) : Advances 0 s s := ⟨[], rfl, fun _ => rfl⟩

/-- The brackets that two parts of a text leave open are those that both together leave open. -/
theorem Advances.trans (first : Advances m s t) (second : Advances n t rest) :
    Advances (m + n) s rest := by
  obtain ⟨taken, rfl, scanned⟩ := first
  obtain ⟨taken', rfl, scanned'⟩ := second
  refine ⟨taken ++ taken', (List.append_assoc ..).symm, fun depth => ?_⟩
  rw [List.foldl_append, scanned, scanned', Nat.add_assoc]

theorem Advances.of_eq (h : Advances m s rest) (size : m = n) : Advances n s rest := size ▸ h

/-- Behind an open bracket there is less of the text. -/
theorem Advances.length_lt (h : Advances n s rest) (pos : 0 < n) : rest.length < s.length := by
  obtain ⟨taken, rfl, scanned⟩ := h
  cases taken with
  | nil =>
      have same : (0 : Nat) = 0 + n := congrArg NestingScan.depth (scanned 0)
      omega
  | cons c taken =>
      rw [List.cons_append, List.length_cons, List.length_append]
      omega

theorem step_plain {c : Char} (plain : IsPlain c) (depth : Nat) :
    (outside depth).step c = outside depth := by
  simp only [IsPlain, List.mem_cons, List.not_mem_nil, or_false, not_or] at plain
  simp [NestingScan.step, outside, plain]

/-- Characters that are neither brackets nor quotes open nothing. -/
theorem Advances.plain {taken : List Char} (plain : ∀ c ∈ taken, IsPlain c) (rest : List Char) :
    Advances 0 (taken ++ rest) rest := by
  refine ⟨taken, rfl, fun depth => ?_⟩
  induction taken with
  | nil => rfl
  | cons c taken ih =>
      rw [List.foldl_cons, step_plain (plain c List.mem_cons_self)]
      exact ih fun d later => plain d (List.mem_cons_of_mem c later)

theorem Advances.char {c : Char} (plain : IsPlain c) (rest : List Char) :
    Advances 0 (c :: rest) rest :=
  ⟨[c], rfl, step_plain plain⟩

theorem isPlain_of_isBlank {c : Char} (h : Text.isBlank c = true) : IsPlain c := by
  have no (d : Char) (apart : Text.isBlank d = false) : c ≠ d := by
    rintro rfl
    rw [apart] at h
    cases h
  simp [IsPlain, no '\'' (by decide), no '"' (by decide), no '(' (by decide), no '[' (by decide),
    no ')' (by decide), no ']' (by decide)]

theorem advances_dropWhile {p : Char → Bool} (plain : ∀ c, p c = true → IsPlain c) (s : List Char) :
    Advances 0 s (s.dropWhile p) := by
  have all : ∀ c ∈ s.takeWhile p, IsPlain c := fun c member =>
    plain c (List.mem_takeWhile_imp member)
  have whole := Advances.plain all (s.dropWhile p)
  rwa [List.takeWhile_append_dropWhile] at whole

theorem advances_skipBlank (s : List Char) : Advances 0 s (Text.skipBlank s) :=
  advances_dropWhile (fun _ => isPlain_of_isBlank) s

theorem Advances.around (h : Advances n (Text.skipBlank s) rest) :
    Advances n s (Text.skipBlank rest) :=
  (((advances_skipBlank s).trans h).trans (advances_skipBlank rest)).of_eq (Nat.zero_add n)

/-- Where the scan of an accepted text is, at any place of the text. -/
theorem Advances.le_maxNesting (h : Advances n s rest) (accepted : tooDeepFrom {} s = false) :
    n ≤ maxNesting := by
  have bounded (taken : List Char) (scan : NestingScan) (small : scan.depth ≤ maxNesting)
      (accepted : tooDeepFrom scan (taken ++ rest) = false) :
      (taken.foldl NestingScan.step scan).depth ≤ maxNesting := by
    induction taken generalizing scan with
    | nil => exact small
    | cons c taken ih =>
        simp only [List.cons_append, tooDeepFrom, Bool.or_eq_false_iff, decide_eq_false_iff_not,
          Nat.not_lt] at accepted
        exact ih (scan.step c) accepted.1 accepted.2
  obtain ⟨taken, rfl, scanned⟩ := h
  have deep := bounded taken {} (Nat.zero_le _) accepted
  have same := congrArg NestingScan.depth (scanned 0)
  rw [show taken.foldl NestingScan.step (outside 0) = taken.foldl NestingScan.step {} from
    rfl] at same
  rw [same] at deep
  simpa [outside] using deep

end

/-- What a reader takes is whole to the scan: it closes every bracket and every text literal it
opens, and nothing else. -/
def Balanced {α : Type} (p : Reader α) : Prop := Leaves (Advances 0) p

section

variable {α β : Type} {p : Reader α} {r : Reader β}

theorem Balanced.seq (first : Balanced p) (second : Balanced r) : Balanced (seq p r) :=
  Leaves.seq first second fun _ _ _ => Advances.trans

theorem Balanced.padded (h : Balanced p) : Balanced (padded p) :=
  Leaves.padded h fun _ _ => Advances.around

theorem Balanced.many (h : Balanced p) : Balanced (many p) :=
  Leaves.many h Advances.refl fun _ _ _ => Advances.trans

theorem Balanced.separated {mark : Reader Unit} (marks : Balanced mark) (item : Balanced p) :
    Balanced (separated mark p) :=
  Leaves.separated marks item Advances.refl fun _ _ _ => Advances.trans

theorem balanced_text {expected : List Char} (plain : ∀ c ∈ expected, IsPlain c) :
    Balanced (text expected) := leaves_text (Advances.plain plain)

end

inductive Bracket where
  | round
  | square

def Bracket.opening : Bracket → String
  | .round => "("
  | .square => "["

def Bracket.closing : Bracket → String
  | .round => ")"
  | .square => "]"

section

variable {s rest : List Char}

/-- A mark is read together with the blanks around it. -/
theorem mark_eq_some {symbol : String} (read : mark symbol s = some ((), rest)) :
    ∃ t, Text.skipBlank s = symbol.toList ++ t ∧ rest = Text.skipBlank t := by
  obtain ⟨⟨u, t⟩, found, same⟩ := Option.map_eq_some_iff.mp read
  cases same
  rw [Reader.text] at found
  split at found
  · rename_i begins
    obtain ⟨tail, whole⟩ := List.isPrefixOf_iff_prefix.mp begins
    rw [← whole, List.drop_left] at found
    cases found
    exact ⟨_, whole.symm, rfl⟩
  · cases found

/-- An opening bracket leaves one open. -/
theorem advances_opening (b : Bracket) (read : mark b.opening s = some ((), rest)) :
    Advances 1 s rest := by
  obtain ⟨t, before, rfl⟩ := mark_eq_some read
  have bracket : Advances 1 (Text.skipBlank s) t := by
    refine ⟨b.opening.toList, before, fun depth => ?_⟩
    cases b <;> rfl
  exact bracket.around

/-- A closing bracket closes one that is open, if there is any. -/
theorem Advances.closing {n : Nat} {t : List Char} (h : Advances (n + 1) s t) (b : Bracket)
    (read : mark b.closing t = some ((), rest)) : Advances n s rest := by
  obtain ⟨u, before, rfl⟩ := mark_eq_some read
  obtain ⟨taken, whole, scanned⟩ := h.trans (advances_skipBlank t)
  have bracket : Advances n s u := by
    refine ⟨taken ++ b.closing.toList, by rw [whole, before, List.append_assoc], fun depth => ?_⟩
    rw [List.foldl_append, scanned]
    cases b <;> rfl
  exact bracket.trans (advances_skipBlank u)

/-- What is balanced stays so inside a pair of brackets. -/
theorem Balanced.enclosed {α : Type} {p : Reader α} (h : Balanced p) (b : Bracket) :
    Balanced (between (mark b.opening) (mark b.closing) p) := by
  intro s a rest read
  obtain ⟨⟨⟨⟨u, a'⟩, v⟩, rest'⟩, found, same⟩ := Option.map_eq_some_iff.mp read
  cases same
  rw [Reader.seq] at found
  split at found
  · cases found
  · rename_i opened
    rw [Reader.seq] at opened
    split at found
    · cases found
    · rename_i closed
      split at opened
      · cases opened
      · rename_i first
        split at opened
        · cases opened
        · rename_i inside
          cases opened
          cases found
          exact ((advances_opening b first).trans (h _ _ _ inside)).closing b closed

end

theorem balanced_ident : Balanced ident := by
  intro s id rest read
  cases s with
  | nil => cases read
  | cons c cs =>
      rw [ident] at read
      split at read
      · rename_i start
        cases read
        have letter : IsPlain c := isPlain_of_isIdentRest (by simp [isIdentRest, start])
        exact (Advances.char letter cs).trans (advances_dropWhile
          (fun _ => isPlain_of_isIdentRest) cs)
      · cases read

theorem balanced_keyword (word : String) : Balanced (keyword word) :=
  leaves_keyword balanced_ident (fun _ _ => Advances.around) word

theorem balanced_mark {symbol : String} (plain : ∀ c ∈ symbol.toList, IsPlain c) :
    Balanced (mark symbol) := (balanced_text plain).padded

theorem balanced_word : Balanced word := leaves_word balanced_ident

theorem advances_digit {c : Char} (digit : Text.isDigit c = true) (s : List Char) :
    Advances 0 (c :: s) (s.dropWhile Text.isDigit) :=
  (Advances.char (isPlain_of_isDigit digit) s).trans
    (advances_dropWhile (fun _ => isPlain_of_isDigit) s)

theorem balanced_wholeDigits : Balanced wholeDigits := by
  intro s ds rest read
  cases s with
  | nil => cases read
  | cons c cs =>
      rw [wholeDigits] at read
      split at read
      · rename_i zero
        cases read
        obtain rfl := eq_of_beq zero
        exact .char (by decide) rest
      · split at read
        · rename_i digit
          cases read
          exact advances_digit digit cs
        · cases read

theorem balanced_fractionDigits : Balanced fractionDigits := by
  intro s ds rest read
  rw [fractionDigits.eq_def] at read
  split at read
  · rename_i c cs
    split at read
    · rename_i digit
      cases read
      exact (Advances.char (by decide) _).trans (advances_digit digit cs)
    · cases read
  · cases read

theorem balanced_number : Balanced number :=
  leaves_number balanced_wholeDigits balanced_fractionDigits fun _ _ _ => Advances.trans

/-- The scan leaves a text literal where its reader does: both pass over what stands behind a
backslash, and a backslash that starts no escape ends the reading. -/
theorem literalRest_scanned {quote : Char} (no_backslash : quote ≠ '\\') {s cs rest : List Char}
    (read : literalRest quote s = some (cs, rest)) :
    ∃ taken, s = taken ++ rest ∧
      ∀ depth, taken.foldl NestingScan.step (within depth quote) = outside depth := by
  fun_induction literalRest quote s generalizing cs with
  | case1 => cases read
  | case2 e s c _ ih =>
      obtain ⟨⟨cs', rest'⟩, others, same⟩ := Option.map_eq_some_iff.mp read
      cases same
      obtain ⟨taken, rfl, scanned⟩ := ih others
      refine ⟨'\\' :: e :: taken, rfl, fun depth => ?_⟩
      have passed : ((within depth quote).step '\\').step e = within depth quote := by
        simp [NestingScan.step, within]
      rw [List.foldl_cons, List.foldl_cons, passed, scanned]
  | case3 => cases read
  | case4 c s _ is_quote =>
      cases read
      obtain rfl := eq_of_beq is_quote
      refine ⟨[c], rfl, fun depth => ?_⟩
      simp [NestingScan.step, within, outside, no_backslash]
  | case5 => cases read
  | case6 c s _ no_quote plain ih =>
      obtain ⟨⟨cs', rest'⟩, others, same⟩ := Option.map_eq_some_iff.mp read
      cases same
      obtain ⟨taken, rfl, scanned⟩ := ih others
      refine ⟨c :: taken, rfl, fun depth => ?_⟩
      rw [List.foldl_cons, step_within_plain (by simpa using plain) (by simpa using no_quote),
        scanned]

/-- A text literal opens no bracket, as those inside it do not count. -/
theorem balanced_textLiteral : Balanced textLiteral := by
  intro s l rest read
  cases s with
  | nil => cases read
  | cons quote s =>
      rw [textLiteral] at read
      split at read
      · rename_i is_quote
        rw [Bool.or_eq_true, beq_iff_eq, beq_iff_eq] at is_quote
        obtain ⟨⟨cs, rest'⟩, inside, same⟩ := Option.map_eq_some_iff.mp read
        cases same
        have no_backslash : quote ≠ '\\' := by rcases is_quote with rfl | rfl <;> decide
        obtain ⟨taken, rfl, scanned⟩ := literalRest_scanned no_backslash inside
        refine ⟨quote :: taken, rfl, fun depth => ?_⟩
        have enter : (outside depth).step quote = within depth quote := by
          rcases is_quote with rfl | rfl <;> rfl
        rw [List.foldl_cons, enter, scanned, Nat.add_zero]
      · cases read

theorem balanced_leadingAt (level : Nat) : Balanced (leadingAt level) :=
  leaves_leadingAt balanced_keyword (balanced_mark (by decide)) level

theorem balanced_operatorAt (level : Nat) : Balanced (operatorAt level) :=
  leaves_operatorAt balanced_keyword (fun op => balanced_text (isPlain_symbol op))
    (fun _ _ => Advances.around) level

end Expr

end RemoteDebugger
