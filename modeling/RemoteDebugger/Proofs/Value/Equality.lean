import Mathlib.Data.List.Forall2
import RemoteDebugger.Proofs.Value.Reach
import RemoteDebugger.Value.Equality

/-!
# Equality of values is symmetric and transitive

Values are compared level by level. One level compares keys of values that are not compared part by
part, takes a list, set or dictionary to be equal to itself, and otherwise asks the next level about
the parts. Only sets and dictionaries are compared in one direction: each element of the first has
to have a partner in the second. If the elements of the first are different from each other, then no
two of them share a partner, so that in two collections of one size no element of the second is left
over.

Floating point numbers are left out, since an integer may be equal to one that another integer is
equal to as well.
-/

namespace RemoteDebugger

section

variable {α β γ : Type} {R S : α → β → Prop} {as : List α} {bs : List β}

/-- Two lists of one length, and every element of the first has a partner in the second. -/
def Covers (R : α → β → Prop) (as : List α) (bs : List β) : Prop :=
  as.length = bs.length ∧ ∀ a ∈ as, ∃ b ∈ bs, R a b

/-- A weaker relation covers where a stronger one does. Only the members of the two lists matter. -/
theorem Covers.imp (imp : ∀ a ∈ as, ∀ b ∈ bs, R a b → S a b) (covers : Covers R as bs) :
    Covers S as bs := by
  refine ⟨covers.1, fun a member => ?_⟩
  obtain ⟨b, partner, related⟩ := covers.2 a member
  exact ⟨b, partner, imp a member b partner related⟩

/-- If one list is covered by a second and this by a third, then it is covered by the third. -/
theorem Covers.trans {T : β → γ → Prop} {U : α → γ → Prop} {cs : List γ}
    (trans : ∀ a b c, R a b → T b c → U a c) (covers : Covers R as bs) (covers' : Covers T bs cs) :
    Covers U as cs := by
  refine ⟨covers.1.trans covers'.1, fun a member => ?_⟩
  obtain ⟨b, partner, related⟩ := covers.2 a member
  obtain ⟨c, partner', related'⟩ := covers'.2 b partner
  exact ⟨c, partner', trans a b c related related'⟩

/-- If no two elements share a partner, then every element of the second list is a partner. -/
theorem Covers.onto (covers : Covers R as bs)
    (apart : as.Pairwise fun a a' => ∀ b, R a b → ¬ R a' b) :
    ∀ b ∈ bs, ∃ a ∈ as, R a b := by
  induction as generalizing bs with
  | nil =>
      intro b member
      rw [List.length_eq_zero_iff.mp covers.1.symm] at member
      cases member
  | cons a as ih =>
      obtain ⟨alone, apart⟩ := List.pairwise_cons.mp apart
      obtain ⟨b, partner, related⟩ := covers.2 a List.mem_cons_self
      obtain ⟨front, back, rfl⟩ := List.append_of_mem partner
      -- without this partner the second list still has one for each of the other elements
      have rest : Covers R as (front ++ back) := by
        refine ⟨?_, fun a' member => ?_⟩
        · have length := covers.1
          simp only [List.length_cons, List.length_append] at length ⊢
          omega
        · obtain ⟨b', partner', related'⟩ := covers.2 a' (List.mem_cons_of_mem _ member)
          have other : b' ≠ b := fun same => alone a' member b related (same ▸ related')
          simp only [List.mem_append, List.mem_cons, other, false_or] at partner'
          exact ⟨b', List.mem_append.mpr partner', related'⟩
      intro x member
      by_cases same : x = b
      · exact ⟨a, List.mem_cons_self, same ▸ related⟩
      · simp only [List.mem_append, List.mem_cons, same, false_or] at member
        obtain ⟨a', member', related'⟩ := ih rest apart x (List.mem_append.mpr member)
        exact ⟨a', List.mem_cons_of_mem _ member', related'⟩

theorem forall₂_imp (imp : ∀ a ∈ as, ∀ b ∈ bs, R a b → S a b) (all : List.Forall₂ R as bs) :
    List.Forall₂ S as bs := by
  induction all with
  | nil => exact .nil
  | cons head _ ih =>
      refine .cons (imp _ List.mem_cons_self _ List.mem_cons_self head)
        (ih fun a member b member' => ?_)
      exact imp a (List.mem_cons_of_mem _ member) b (List.mem_cons_of_mem _ member')

theorem forall₂_trans {T : β → γ → Prop} {U : α → γ → Prop} {cs : List γ}
    (trans : ∀ a b c, R a b → T b c → U a c) (all : List.Forall₂ R as bs)
    (all' : List.Forall₂ T bs cs) : List.Forall₂ U as cs := by
  induction all generalizing cs with
  | nil =>
      cases all'
      exact .nil
  | cons head _ ih =>
      cases all' with
      | cons head' rest' => exact .cons (trans _ _ _ head head') (ih rest')

theorem coveredBy_iff {same : α → α → Bool} {as bs : List α} :
    Value.coveredBy same as bs = true ↔ Covers (fun a b => same a b = true) as bs := by
  simp [Value.coveredBy, Covers]

theorem sameItems_iff {same : Value → Value → Bool} {as bs : List Value} :
    Value.sameItems same as bs = true ↔ List.Forall₂ (fun a b => same a b = true) as bs := by
  rw [List.forall₂_iff_zip]
  simp [Value.sameItems]

end

namespace Value

/-- What values are compared by that are not compared part by part. -/
inductive Key where
  | null
  | number (n : Int64)
  | text (s : String)
  | bytes (b : List UInt8)
  | object (at_ : Ref)
  | foreign (id : Ref)
  deriving DecidableEq

/-- The key of a value; floating point numbers and containers have none. A Boolean counts as an
integer. -/
def key? : Value → Option Key
  | .null => some .null
  | .bool b => some (.number (if b then 1 else 0))
  | .int n => some (.number n)
  | .str s => some (.text s)
  | .bytes b => some (.bytes b)
  | .object _ r => some (.object r)
  | .foreign _ r _ => some (.foreign r)
  | _ => none

/-- Two values agree as far as one level goes, `R` being what is asked about their parts. -/
inductive Agree (h : Heap) (R : Value → Value → Prop) : Value → Value → Prop
  | keys {a b : Value} {k : Key} (left : a.key? = some k) (right : b.key? = some k) : Agree h R a b
  | sameList (r : Ref) : Agree h R (.list r) (.list r)
  | sameSet (r : Ref) : Agree h R (.set r) (.set r)
  | sameDict (r : Ref) : Agree h R (.dict r) (.dict r)
  | lists {r s : Ref} (items : List.Forall₂ R (h.lists.get r) (h.lists.get s)) :
      Agree h R (.list r) (.list s)
  | tuples {r s : Ref} (items : List.Forall₂ R (h.tuples.get r) (h.tuples.get s)) :
      Agree h R (.tuple r) (.tuple s)
  | sets {r s : Ref} (elements : Covers R (h.sets.get r) (h.sets.get s)) :
      Agree h R (.set r) (.set s)
  | dicts {r s : Ref}
      (entries : Covers (fun e e' => R e.1 e'.1 ∧ R e.2 e'.2) (h.dicts.get r) (h.dicts.get s)) :
      Agree h R (.dict r) (.dict s)

section

variable {h : Heap} {R S : Value → Value → Prop} {a b c : Value}

/-- Values agree under a weaker relation of their parts, too. -/
theorem Agree.imp (imp : ∀ x ∈ a.parts h, ∀ y ∈ b.parts h, R x y → S x y) (agree : Agree h R a b) :
    Agree h S a b := by
  cases agree with
  | keys left right => exact .keys left right
  | sameList r => exact .sameList r
  | sameSet r => exact .sameSet r
  | sameDict r => exact .sameDict r
  | lists items => exact .lists (forall₂_imp imp items)
  | tuples items => exact .tuples (forall₂_imp imp items)
  | sets elements => exact .sets (elements.imp imp)
  | dicts entries =>
      refine .dicts (entries.imp fun e entry e' entry' related => ?_)
      have inside := mem_parts_of_entry entry
      have inside' := mem_parts_of_entry entry'
      exact ⟨imp _ inside.1 _ inside'.1 related.1, imp _ inside.2 _ inside'.2 related.2⟩

/-- The elements of a set, and the keys of a dictionary, are not related to each other. -/
structure IsDistinct (h : Heap) (R : Value → Value → Prop) (a : Value) : Prop where
  elements : ∀ r, a = .set r → (h.sets.get r).Pairwise fun x y => ¬ R x y
  keys : ∀ r, a = .dict r → (h.dicts.get r).Pairwise fun e e' => ¬ R e.1 e'.1

/-- Agreement can be turned round if the relation of the parts can. For sets this needs their
elements to be distinct: only then does covering go both ways. -/
theorem Agree.symm (symm : ∀ x y, R x y → R y x) (trans : ∀ x y z, R x y → R y z → R x z)
    (distinct : IsDistinct h R a) (agree : Agree h R a b) : Agree h R b a := by
  -- two values with one partner are related to each other
  have shared {x y z : Value} (left : R x z) (right : R y z) : R x y :=
    trans _ _ _ left (symm _ _ right)
  cases agree with
  | keys left right => exact .keys right left
  | sameList r => exact .sameList r
  | sameSet r => exact .sameSet r
  | sameDict r => exact .sameDict r
  | lists items => exact .lists (items.imp fun x y related => symm x y related).flip
  | tuples items => exact .tuples (items.imp fun x y related => symm x y related).flip
  | sets elements =>
      refine .sets ⟨elements.1.symm, fun y member => ?_⟩
      obtain ⟨x, member', related⟩ := elements.onto
        ((distinct.elements _ rfl).imp fun different _ left right => different (shared left right))
          y member
      exact ⟨x, member', symm x y related⟩
  | dicts entries =>
      refine .dicts ⟨entries.1.symm, fun e' entry' => ?_⟩
      obtain ⟨e, entry, related⟩ := entries.onto
        ((distinct.keys _ rfl).imp fun different _ left right => different (shared left.1 right.1))
          e' entry'
      exact ⟨e, entry, symm _ _ related.1, symm _ _ related.2⟩

/-- Agreement may be chained, if the relation of the parts may. -/
theorem Agree.trans (trans : ∀ x y z, R x y → R y z → R x z) (agree : Agree h R a b)
    (agree' : Agree h R b c) : Agree h R a c := by
  cases agree with
  | keys left right =>
      cases agree' with
      | keys left' right' => exact .keys left (right' ▸ left' ▸ right)
      | _ => cases right
  | sameList | sameSet | sameDict => exact agree'
  | lists items =>
      cases agree' with
      | keys left' => cases left'
      | sameList => exact .lists items
      | lists items' => exact .lists (forall₂_trans trans items items')
  | tuples items =>
      cases agree' with
      | keys left' => cases left'
      | tuples items' => exact .tuples (forall₂_trans trans items items')
  | sets elements =>
      cases agree' with
      | keys left' => cases left'
      | sameSet => exact .sets elements
      | sets elements' => exact .sets (elements.trans trans elements')
  | dicts entries =>
      cases agree' with
      | keys left' => cases left'
      | sameDict => exact .dicts entries
      | dicts entries' =>
          refine .dicts (entries.trans (fun _ _ _ related related' => ?_) entries')
          exact ⟨trans _ _ _ related.1 related'.1, trans _ _ _ related.2 related'.2⟩

end

section

variable {h : Heap} {n : Nat} {a b : Value}

/-- Values that are their own keys are equal exactly if the keys are, however deep the comparison
may go. -/
theorem equalWithin_iff_of_keys {k k' : Key} (left : a.key? = some k) (right : b.key? = some k') :
    equalWithin h (n + 1) a b = true ↔ k = k' := by
  cases a with
  | bool p =>
      cases left
      cases b with
      | bool q =>
          cases right
          cases p <;> cases q <;> simp [equalWithin]
      | _ => cases right <;> simp [equalWithin]
  | int m =>
      cases left
      cases b with
      | bool q =>
          cases right
          rw [Key.number.injEq, eq_comm (a := m)]
          exact beq_iff_eq
      | _ => cases right <;> simp [equalWithin]
  | _ => cases left <;> cases b <;> cases right <;> simp [equalWithin]

/-- Values that agree, with parts that are equal within a depth, are equal within the next one. -/
theorem equalWithin_of_agree (agree : Agree h (fun x y => equalWithin h n x y = true) a b) :
    equalWithin h (n + 1) a b = true := by
  cases agree with
  | keys left right => exact (equalWithin_iff_of_keys left right).mpr rfl
  | sameList r | sameSet r | sameDict r => simp [equalWithin]
  | lists items => simp [equalWithin, sameItems_iff.mpr items]
  | tuples items => simp [equalWithin, sameItems_iff.mpr items]
  | sets elements => simp [equalWithin, coveredBy_iff.mpr elements]
  | @dicts r s entries =>
      have covered : coveredBy (fun e e' => equalWithin h n e.1 e'.1 && equalWithin h n e.2 e'.2)
          (h.dicts.get r) (h.dicts.get s) = true :=
        coveredBy_iff.mpr (entries.imp fun _ _ _ _ related => by simp [related])
      simp [equalWithin, covered]

/-- Values that are equal within a depth agree, with parts that are equal within the depth before.
Floats are left out, as they are equal to integers of the same value. -/
theorem agree_of_equalWithin (whole : ∀ x, a ≠ .float x) (whole' : ∀ x, b ≠ .float x)
    (equal : equalWithin h (n + 1) a b = true) :
    Agree h (fun x y => equalWithin h n x y = true) a b := by
  cases a with
  | float x => exact absurd rfl (whole x)
  | list r =>
      cases b with
      | list s =>
          rcases Bool.or_eq_true_iff.mp equal with same | items
          · exact eq_of_beq same ▸ .sameList r
          · exact .lists (sameItems_iff.mp items)
      | float x => exact absurd rfl (whole' x)
      | _ => cases equal
  | tuple r =>
      cases b with
      | tuple s => exact .tuples (sameItems_iff.mp equal)
      | float x => exact absurd rfl (whole' x)
      | _ => cases equal
  | set r =>
      cases b with
      | set s =>
          rcases Bool.or_eq_true_iff.mp equal with same | elements
          · exact eq_of_beq same ▸ .sameSet r
          · exact .sets (coveredBy_iff.mp elements)
      | float x => exact absurd rfl (whole' x)
      | _ => cases equal
  | dict r =>
      cases b with
      | dict s =>
          rcases Bool.or_eq_true_iff.mp equal with same | entries
          · exact eq_of_beq same ▸ .sameDict r
          · refine .dicts ((coveredBy_iff.mp entries).imp fun e _ e' _ related => ?_)
            exact Bool.and_eq_true_iff.mp related
      | float x => exact absurd rfl (whole' x)
      | _ => cases equal
  | _ =>
      cases keyed : b.key? with
      | some k =>
          obtain rfl := (equalWithin_iff_of_keys rfl keyed).mp equal
          exact .keys rfl keyed
      | none =>
          cases b with
          | float x => exact absurd rfl (whole' x)
          | list | tuple | set | dict => cases equal
          | _ => cases keyed

end

/-- No floating point number can be reached from a value, and the elements of every set and the keys
of every dictionary are unequal to each other. -/
structure IsComparable (h : Heap) (v : Value) : Prop where
  whole : ∀ x, ¬ Reaches h v (.float x)
  elements : ∀ r, Reaches h v (.set r) → (h.sets.get r).Pairwise fun x y => equals h x y = false
  keys : ∀ r, Reaches h v (.dict r) →
    (h.dicts.get r).Pairwise fun e e' => equals h e.1 e'.1 = false

/-- Two comparable values are equal on so many levels. -/
structure EqualAt (h : Heap) (n : Nat) (a b : Value) : Prop where
  left : IsComparable h a
  right : IsComparable h b
  equal : equalWithin h n a b = true

section

variable {h : Heap} {n m : Nat} {a b c : Value}

/-- What is inside a comparable value is comparable. -/
theorem IsComparable.part (comparable : IsComparable h a) {x : Value} (part : x ∈ a.parts h) :
    IsComparable h x where
  whole y reach := comparable.whole y (.of_part part reach)
  elements r reach := comparable.elements r (.of_part part reach)
  keys r reach := comparable.keys r (.of_part part reach)

theorem IsComparable.ne_float (comparable : IsComparable h a) (x : Float) : a ≠ .float x := by
  rintro rfl
  exact comparable.whole x (.refl h _)

theorem equalAt_zero : ¬ EqualAt h 0 a b := fun equal => Bool.noConfusion equal.equal

/-- Equality on one level more, said by one level. -/
theorem equalAt_succ_iff : EqualAt h (n + 1) a b ↔
    IsComparable h a ∧ IsComparable h b ∧ Agree h (EqualAt h n) a b := by
  constructor
  · rintro ⟨left, right, equal⟩
    refine ⟨left, right, (agree_of_equalWithin left.ne_float right.ne_float equal).imp ?_⟩
    exact fun x part y part' same => ⟨left.part part, right.part part', same⟩
  · rintro ⟨left, right, agree⟩
    exact ⟨left, right, equalWithin_of_agree (agree.imp fun x _ y _ same => same.equal)⟩

/-- A deeper comparison finds no fewer values equal. -/
theorem EqualAt.mono (le : n ≤ m) (equal : EqualAt h n a b) : EqualAt h m a b := by
  induction n generalizing m a b with
  | zero => exact absurd equal equalAt_zero
  | succ n ih =>
      obtain ⟨m, rfl⟩ : ∃ m', m = m' + 1 := ⟨m - 1, by omega⟩
      obtain ⟨left, right, agree⟩ := equalAt_succ_iff.mp equal
      exact equalAt_succ_iff.mpr ⟨left, right, agree.imp fun _ _ _ _ => ih (by omega)⟩

/-- What is unequal on all levels is not equal on fewer. -/
theorem IsComparable.isDistinct (comparable : IsComparable h a) (le : n ≤ maxEqualityDepth + 1) :
    IsDistinct h (EqualAt h n) a where
  elements r is := by
    refine (comparable.elements r (is ▸ .refl h a)).imp fun different equal => ?_
    exact Bool.false_ne_true (different.symm.trans (equal.mono le).equal)
  keys r is := by
    refine (comparable.keys r (is ▸ .refl h a)).imp fun different equal => ?_
    exact Bool.false_ne_true (different.symm.trans (equal.mono le).equal)

/-- Equality within a depth may be chained. -/
theorem EqualAt.trans (equal : EqualAt h n a b) (equal' : EqualAt h n b c) : EqualAt h n a c := by
  induction n generalizing a b c with
  | zero => exact absurd equal equalAt_zero
  | succ n ih =>
      obtain ⟨left, -, agree⟩ := equalAt_succ_iff.mp equal
      obtain ⟨-, right, agree'⟩ := equalAt_succ_iff.mp equal'
      exact equalAt_succ_iff.mpr ⟨left, right, agree.trans (fun _ _ _ => ih) agree'⟩

/-- Equality within a depth can be turned round, as long as the depth is at most the one the engine
compares to. -/
theorem EqualAt.symm (le : n ≤ maxEqualityDepth + 1) (equal : EqualAt h n a b) :
    EqualAt h n b a := by
  induction n generalizing a b with
  | zero => exact absurd equal equalAt_zero
  | succ n ih =>
      obtain ⟨left, right, agree⟩ := equalAt_succ_iff.mp equal
      have distinct := left.isDistinct (n := n) (by omega)
      refine equalAt_succ_iff.mpr ⟨right, left, agree.symm ?_ ?_ distinct⟩
      · exact fun _ _ => ih (by omega)
      · exact fun _ _ _ => EqualAt.trans

end

/-- Equality of comparable values goes both ways, and from value to value. -/
theorem equals_symm_and_trans {h : Heap} {a b c : Value} (comparable : IsComparable h a)
    (comparable' : IsComparable h b) (comparable'' : IsComparable h c) :
    equals h a b = equals h b a ∧
      (equals h a b = true → equals h b c = true → equals h a c = true) := by
  constructor
  · rw [Bool.eq_iff_iff]
    constructor
    · exact fun equal => (EqualAt.symm (Nat.le_refl _) ⟨comparable, comparable', equal⟩).equal
    · exact fun equal => (EqualAt.symm (Nat.le_refl _) ⟨comparable', comparable, equal⟩).equal
  · intro equal equal'
    have first : EqualAt h _ a b := ⟨comparable, comparable', equal⟩
    exact (first.trans ⟨comparable', comparable'', equal'⟩).equal

/-- Three lists of a set and a list that holds itself, which they share; the sets have their
elements in different orders and as Booleans or integers. -/
def crossing : Heap where
  lists := ⟨#[[.set 0, .list 3], [.set 1, .list 3], [.set 2, .list 3], [.list 3]]⟩
  sets := ⟨#[[.bool true, .int 2], [.int 2, .int 1], [.int 1, .int 2]]⟩

def crossingValues : List Value :=
  [.list 0, .list 1, .list 2, .list 3, .set 0, .set 1, .set 2, .bool true, .int 1, .int 2]

/-- The values of the example hold each other, and are comparable all the same. -/
theorem crossing_isComparable {v : Value} (member : v ∈ crossingValues) :
    IsComparable crossing v := by
  have inside {w : Value} (reach : Reaches crossing v w) : w ∈ crossingValues :=
    reach.mem_of_closed (P := (· ∈ crossingValues)) (by decide) member
  refine ⟨fun x reach => ?_, fun r reach => ?_, fun r reach => ?_⟩
  · simpa [crossingValues] using inside reach
  · have some_set : r = 0 ∨ r = 1 ∨ r = 2 := by simpa [crossingValues] using inside reach
    rcases some_set with rfl | rfl | rfl <;> decide
  · simpa [crossingValues] using inside reach

/-- The conditions are met by lists that hold each other. -/
theorem crossing_equals_symm_and_trans :
    equals crossing (.list 0) (.list 1) = true ∧ equals crossing (.list 1) (.list 0) = true ∧
      equals crossing (.list 0) (.list 2) = true := by
  have laws := equals_symm_and_trans (crossing_isComparable (v := .list 0) (by decide))
    (crossing_isComparable (v := .list 1) (by decide))
      (crossing_isComparable (v := .list 2) (by decide))
  have first : equals crossing (.list 0) (.list 1) = true := by decide
  exact ⟨first, laws.1.symm.trans first, laws.2 first (by decide)⟩

end Value

end RemoteDebugger
