import RemoteDebugger.Text.Reader
import Mathlib.Data.List.DropRight

/-!
# How readers go forward

What a reader leaves is an end of its input, shorter by the characters it takes. A repetition of a
reader that always takes something thus reads one item after the other until none can be read, and
the length of the input plays no role in it. A padded reader does not see the blanks before it, so
two texts that differ by these blanks only are the same to it.
-/

namespace RemoteDebugger

open Text (isBlank skipBlank)

namespace Text

theorem skipBlank_cons {c : Char} (h : isBlank c = false) (cs : List Char) :
    skipBlank (c :: cs) = c :: cs := by
  simp [skipBlank, h]

@[simp] theorem skipBlank_skipBlank (cs : List Char) : skipBlank (skipBlank cs) = skipBlank cs :=
  List.dropWhile_idempotent isBlank cs

theorem skipBlank_suffix (cs : List Char) : skipBlank cs <:+ cs := List.dropWhile_suffix isBlank

end Text

/-- What is left of a text: all of it, or all but the blanks at its front. -/
def Remains (rest left : List Char) : Prop := left = rest ∨ left = skipBlank rest

theorem Remains.skipBlank_eq {rest left : List Char} (h : Remains rest left) :
    skipBlank left = skipBlank rest := by
  rcases h with rfl | rfl
  · rfl
  · exact Text.skipBlank_skipBlank rest

theorem Remains.refl (rest : List Char) : Remains rest rest := .inl rfl

theorem Remains.eq_cons {c : Char} {rest left : List Char} (h : Remains (c :: rest) left)
    (no_blank : isBlank c = false) : left = c :: rest := by
  rcases h with rfl | rfl
  · rfl
  · exact Text.skipBlank_cons no_blank rest

namespace Reader

variable {α β : Type}

/-- Whenever a reader reads something, what it leaves is in a relation to its input. -/
def Leaves (R : List Char → List Char → Prop) (p : Reader α) : Prop :=
  ∀ s a rest, p s = some (a, rest) → R s rest

section

variable {R S T : List Char → List Char → Prop} {p q : Reader α} {r : Reader β}

theorem leaves_fail : Leaves R (fun _ => none : Reader α) := by
  intro s a rest read
  cases read

theorem Leaves.map (h : Leaves R p) (f : α → β) : Leaves R (map f p) := by
  intro s b rest read
  obtain ⟨⟨a, rest'⟩, first, same⟩ := Option.map_eq_some_iff.mp read
  cases same
  exact h s a rest' first

/-- What is made of the result of a reader changes nothing in what it leaves. -/
theorem Leaves.bind (h : Leaves R p) (f : α × List Char → Option (β × List Char))
    (keeps : ∀ r b, f r = some b → b.2 = r.2) : Leaves R (fun s => (p s).bind f) := by
  intro s b rest read
  obtain ⟨r, first, second⟩ := Option.bind_eq_some_iff.mp read
  have same : rest = r.2 := keeps r (b, rest) second
  rw [same]
  exact h s r.1 r.2 first

/-- Of two alternatives, both have to leave what is asked for, whichever is taken. -/
theorem Leaves.orElse (first : Leaves R p) (second : Leaves R q) : Leaves R (orElse p q) := by
  intro s a rest read
  rw [Reader.orElse] at read
  split at read
  · rename_i found
    obtain rfl := Option.some.inj read
    exact first s a rest found
  · exact second s a rest read

/-- Readers one after the other leave what both relations together allow. -/
theorem Leaves.seq (first : Leaves R p) (second : Leaves S r)
    (compose : ∀ s t rest, R s t → S t rest → T s rest) : Leaves T (seq p r) := by
  intro s ab rest read
  rw [Reader.seq] at read
  split at read
  · cases read
  · rename_i a middle readFirst
    split at read
    · cases read
    · rename_i b rest' readSecond
      cases read
      exact compose s middle rest (first s a middle readFirst) (second middle b rest readSecond)

/-- Blanks around what is read do not matter, if the relation does not mind them. -/
theorem Leaves.padded (h : Leaves R p)
    (around : ∀ s rest, R (skipBlank s) rest → R s (skipBlank rest)) : Leaves R (padded p) := by
  intro s a rest read
  obtain ⟨⟨a', rest'⟩, first, same⟩ := Option.map_eq_some_iff.mp read
  cases same
  exact around s rest' (h _ _ _ first)

theorem leaves_text {expected : List Char} (taken : ∀ rest, R (expected ++ rest) rest) :
    Leaves R (text expected) := by
  intro s a rest read
  rw [Reader.text] at read
  split at read
  · rename_i begins
    obtain ⟨tail, rfl⟩ := List.isPrefixOf_iff_prefix.mp begins
    cases read
    rw [List.drop_left]
    exact taken tail
  · cases read

/-- A reader that is repeated leaves what a chain of single reads does, however often it is
repeated. -/
theorem Leaves.manyUpTo (h : Leaves R p) (refl : ∀ s, R s s)
    (trans : ∀ s t rest, R s t → R t rest → R s rest) (fuel : Nat) (s : List Char) :
    R s (manyUpTo p fuel s).2 := by
  induction fuel generalizing s with
  | zero => exact refl s
  | succ fuel ih =>
      rw [Reader.manyUpTo]
      split
      · exact refl s
      · rename_i a rest read
        exact trans s rest _ (h s a rest read) (ih rest)

theorem Leaves.many (h : Leaves R p) (refl : ∀ s, R s s)
    (trans : ∀ s t rest, R s t → R t rest → R s rest) : Leaves R (many p) := by
  intro s as rest read
  have items := h.manyUpTo refl trans s.length s
  rwa [Option.some.inj read] at items

/-- A list with marks between its items leaves what a chain of items and marks does. -/
theorem Leaves.separated {mark : Reader Unit} (marks : Leaves R mark) (item : Leaves R p)
    (refl : ∀ s, R s s) (trans : ∀ s t rest, R s t → R t rest → R s rest) :
    Leaves R (separated mark p) := by
  intro s as rest read
  rw [Reader.separated] at read
  split at read
  · cases read
    exact refl s
  · rename_i a s' first
    dsimp only at read
    have others := ((marks.seq item trans).map Prod.snd).manyUpTo refl trans s'.length s'
    have items := trans s s' _ (item s a s' first) others
    split at read
    · cases read
      exact items
    · rename_i marked
      cases read
      exact trans s _ rest items (marks _ _ _ marked)

end

/-- A reader leaves an end of its input, and takes at least so many characters. -/
def Takes (n : Nat) (p : Reader α) : Prop :=
  ∀ s a rest, p s = some (a, rest) → rest <:+ s ∧ rest.length + n ≤ s.length

section

variable {m n : Nat} {p q : Reader α} {r : Reader β}

theorem Takes.mono (h : Takes n p) (le : m ≤ n) : Takes m p := by
  intro s a rest read
  obtain ⟨suffix, taken⟩ := h s a rest read
  exact ⟨suffix, by omega⟩

theorem takes_fail : Takes n (fun _ => none : Reader α) := leaves_fail

theorem Takes.map (f : α → β) (h : Takes n p) : Takes n (map f p) := Leaves.map h f

theorem Takes.orElse (first : Takes n p) (second : Takes n q) : Takes n (orElse p q) :=
  Leaves.orElse first second

theorem Takes.seq (first : Takes m p) (second : Takes n r) : Takes (m + n) (seq p r) := by
  refine Leaves.seq first second fun s t rest taken taken' => ?_
  exact ⟨taken'.1.trans taken.1, by omega⟩

/-- Blanks around what is taken make the end shorter still. -/
theorem Takes.around {s rest : List Char}
    (taken : rest <:+ skipBlank s ∧ rest.length + n ≤ (skipBlank s).length) :
    skipBlank rest <:+ s ∧ (skipBlank rest).length + n ≤ s.length := by
  have before := Text.skipBlank_suffix s
  have after := Text.skipBlank_suffix rest
  have shorter : (skipBlank rest).length + n ≤ s.length := by
    have := before.length_le
    have := after.length_le
    omega
  exact ⟨after.trans (taken.1.trans before), shorter⟩

theorem Takes.padded (h : Takes n p) : Takes n (padded p) :=
  Leaves.padded h fun _ _ => Takes.around

theorem takes_text (expected : List Char) : Takes expected.length (text expected) :=
  leaves_text fun rest => ⟨List.suffix_append _ _, by simp [Nat.add_comm]⟩

theorem Takes.many (h : Takes n p) : Takes 0 (many p) :=
  Leaves.many (h.mono (Nat.zero_le n)) (fun _ => ⟨List.suffix_rfl, Nat.le_refl _⟩)
    fun _ _ _ first others => ⟨others.1.trans first.1, Nat.le_trans others.2 first.2⟩

theorem Takes.between {opening closing : Reader Unit} (start : Takes n opening)
    (stop : Takes 0 closing) (inside : Takes 0 p) : Takes n (between opening closing p) :=
  ((start.seq inside).seq stop).map _

theorem Takes.separated {mark : Reader Unit} (marks : Takes 0 mark) (item : Takes 0 p) :
    Takes 0 (separated mark p) :=
  Leaves.separated marks item (fun _ => ⟨List.suffix_rfl, Nat.le_refl _⟩)
    fun _ _ _ first others => ⟨others.1.trans first.1, Nat.le_trans others.2 first.2⟩

/-- Once there is fuel for every character, more of it makes no difference. -/
theorem manyUpTo_eq (h : Takes 1 p) {fuel fuel' : Nat} {s : List Char} (enough : s.length ≤ fuel)
    (enough' : s.length ≤ fuel') : manyUpTo p fuel s = manyUpTo p fuel' s := by
  induction fuel generalizing fuel' s with
  | zero =>
      obtain rfl := List.eq_nil_of_length_eq_zero (Nat.le_zero.mp enough)
      cases fuel' with
      | zero => rfl
      | succ fuel' =>
          rw [manyUpTo, manyUpTo]
          split
          · rfl
          · rename_i a rest read
            have := (h [] a rest read).2
            simp at this
  | succ fuel ih =>
      cases fuel' with
      | zero =>
          obtain rfl := List.eq_nil_of_length_eq_zero (Nat.le_zero.mp enough')
          rw [manyUpTo, manyUpTo]
          split
          · rfl
          · rename_i a rest read
            have := (h [] a rest read).2
            simp at this
      | succ fuel' =>
          rw [manyUpTo, manyUpTo]
          split
          · rfl
          · rename_i a rest read
            have shorter := (h s a rest read).2
            have same : manyUpTo p fuel rest = manyUpTo p fuel' rest := ih (by omega) (by omega)
            rw [same]

theorem many_of_none {s : List Char} (h : p s = none) : many p s = some ([], s) := by
  rw [many]
  cases s.length with
  | zero => rfl
  | succ n => rw [manyUpTo, h]

/-- A reader that takes characters can be repeated after it has read once. The fuel behind this is
always enough. -/
theorem many_of_some (h : Takes 1 p) {s rest : List Char} {a : α} (read : p s = some (a, rest)) :
    many p s = (many p rest).map fun r => (a :: r.1, r.2) := by
  have shorter := (h s a rest read).2
  rw [many, many, Option.map_some]
  obtain ⟨n, length⟩ : ∃ n, s.length = n + 1 := ⟨s.length - 1, by omega⟩
  have same : manyUpTo p n rest = manyUpTo p rest.length rest :=
    manyUpTo_eq h (by omega) (Nat.le_refl _)
  rw [length, manyUpTo, read, ← same]

end

theorem seq_of_some {p : Reader α} {q : Reader β} {s middle rest : List Char} {a : α} {b : β}
    (first : p s = some (a, middle)) (second : q middle = some (b, rest)) :
    seq p q s = some ((a, b), rest) := by
  simp [seq, first, second]

theorem seq_of_none {p : Reader α} {q : Reader β} {s : List Char} (h : p s = none) :
    seq p q s = none := by
  simp [seq, h]

theorem map_of_some {p : Reader α} {f : α → β} {s rest : List Char} {a : α}
    (h : p s = some (a, rest)) : map f p s = some (f a, rest) := by
  simp [map, h]

theorem map_of_none {p : Reader α} {f : α → β} {s : List Char} (h : p s = none) :
    map f p s = none := by
  simp [map, h]

theorem orElse_of_some {p q : Reader α} {s : List Char} {r : α × List Char} (h : p s = some r) :
    orElse p q s = some r := by
  simp [orElse, h]

theorem orElse_of_none {p q : Reader α} {s : List Char} (h : p s = none) :
    orElse p q s = q s := by
  simp [orElse, h]

theorem between_of_some {opening closing : Reader Unit} {p : Reader α} {s₀ s₁ s₂ s₃ : List Char}
    {a : α} (first : opening s₀ = some ((), s₁)) (inside : p s₁ = some (a, s₂))
    (last : closing s₂ = some ((), s₃)) : between opening closing p s₀ = some (a, s₃) :=
  map_of_some (seq_of_some (seq_of_some first inside) last)

theorem between_of_none {opening closing : Reader Unit} {p : Reader α} {s : List Char}
    (h : opening s = none) : between opening closing p s = none :=
  map_of_none (seq_of_none (seq_of_none h))

theorem separated_of_none {mark : Reader Unit} {item : Reader α} {s : List Char}
    (h : item s = none) :
    separated mark item s = some ([], s) := by
  rw [separated, h]

theorem separated_of_some {mark : Reader Unit} {item : Reader α} {s₀ s₁ s₂ : List Char} {a : α}
    {as : List α} (first : item s₀ = some (a, s₁))
    (others : many (map Prod.snd (seq mark item)) s₁ = some (as, s₂)) (stop : mark s₂ = none) :
    separated mark item s₀ = some (a :: as, s₂) := by
  rw [many, Option.some_inj] at others
  rw [separated, first]
  dsimp only
  rw [others, stop]

/-- Items are read back one after the other, if each of them is, whatever follows it. -/
theorem many_append {p : Reader α} (takes : Takes 1 p) {write : α → List Char} {as : List α}
    (each : ∀ a ∈ as, ∀ rest, p (write a ++ rest) = some (a, rest)) {rest : List Char}
    (stop : p rest = none) : many p (as.flatMap write ++ rest) = some (as, rest) := by
  induction as with
  | nil => exact many_of_none stop
  | cons a as ih =>
      rw [List.flatMap_cons, List.append_assoc, many_of_some takes (each a List.mem_cons_self _),
        ih fun b later => each b (List.mem_cons_of_mem a later)]
      rfl

section

variable {p p' : Reader α} {q q' : Reader β} {s : List Char}

theorem map_agree (f : α → β) (h : p s = p' s) : map f p s = map f p' s := by
  rw [Reader.map, Reader.map, h]

/-- Readers in sequence agree where the first ones do, and the second ones at what the first have
left. -/
theorem seq_agree (first : p s = p' s) (second : ∀ a rest, p s = some (a, rest) →
    q rest = q' rest) :
    seq p q s = seq p' q' s := by
  rw [Reader.seq, Reader.seq, ← first]
  cases found : p s with
  | none => rfl
  | some r => simp only [second r.1 r.2 found]

/-- Alternatives agree where the first ones do, and the second ones if the first have failed. -/
theorem orElse_agree {r r' : Reader α} (first : p s = p' s) (second : p s = none → r s = r' s) :
    orElse p r s = orElse p' r' s := by
  rw [Reader.orElse, Reader.orElse, ← first]
  cases found : p s with
  | none => exact second found
  | some r => rfl

/-- Two readers repeat in the same way if they agree at every place where an item is tried. -/
theorem manyUpTo_agree (Tried : List Char → Prop) (agree : ∀ s, Tried s → p s = p' s)
    (next : ∀ s a rest, Tried s → p s = some (a, rest) → Tried rest) (fuel : Nat)
    (tried : Tried s) :
    manyUpTo p fuel s = manyUpTo p' fuel s := by
  induction fuel generalizing s with
  | zero => rfl
  | succ fuel ih =>
      rw [manyUpTo, manyUpTo, ← agree s tried]
      cases found : p s with
      | none => rfl
      | some r => simp only [ih (next s r.1 r.2 tried found)]

end

/-- A reader does not see the blanks before what it reads. -/
def SkipsBlank (p : Reader α) : Prop := ∀ s s', skipBlank s = skipBlank s' → p s = p s'

theorem skipsBlank_padded (p : Reader α) : SkipsBlank (padded p) := by
  intro s s' same
  rw [padded, padded, same]

theorem SkipsBlank.map (f : α → β) {p : Reader α} (h : SkipsBlank p) : SkipsBlank (map f p) := by
  intro s s' same
  rw [Reader.map, Reader.map, h s s' same]

theorem SkipsBlank.orElse {p q : Reader α} (first : SkipsBlank p) (second : SkipsBlank q) :
    SkipsBlank (orElse p q) := by
  intro s s' same
  rw [Reader.orElse, Reader.orElse, first s s' same, second s s' same]

theorem SkipsBlank.seq {p : Reader α} (h : SkipsBlank p) (q : Reader β) : SkipsBlank (seq p q) := by
  intro s s' same
  rw [Reader.seq, Reader.seq, h s s' same]

theorem SkipsBlank.between {opening : Reader Unit} (h : SkipsBlank opening) (closing : Reader Unit)
    (p : Reader α) : SkipsBlank (between opening closing p) :=
  ((h.seq p).seq closing).map _

end Reader

end RemoteDebugger
