import Mathlib.Data.List.Nodup
import RemoteDebugger.Value.Basic

/-!
# Named values

The first binding of a name is the one that is found. An assignment changes this binding, or appends
one if the name is new; it is the first binding of the name afterwards, and nothing else has
changed.
-/

namespace RemoteDebugger

namespace Bindings

/-- The first binding of a name, at a position. -/
def FirstAt (vars : Bindings) (i : Nat) (name : String) (v : Value) : Prop :=
  vars[i]? = some (name, v) ∧ ∀ j < i, vars[j]?.map Prod.fst ≠ some name

instance (vars : Bindings) (i : Nat) (name : String) (v : Value) :
    Decidable (FirstAt vars i name v) :=
  inferInstanceAs (Decidable (_ ∧ _))

section

variable {vars : Bindings} {i j : Nat} {name : String} {v w : Value}

theorem find?_cons_self : find? ((name, v) :: vars) name = some v := by
  rw [find?, List.lookup_cons, beq_self_eq_true]

theorem find?_cons_of_ne {n : String} {x : Value} (different : n ≠ name) :
    find? ((n, x) :: vars) name = vars.find? name := by
  rw [find?, List.lookup_cons, beq_eq_false_iff_ne.mpr (Ne.symm different), find?]

/-- Before the first binding of a name there is none, with whatever value. -/
theorem FirstAt.ne_of_lt (first : FirstAt vars i name v) (before : j < i) :
    vars[j]? ≠ some (name, w) := by
  intro here
  refine first.2 j before ?_
  rw [here]
  rfl

/-- A binding of another name in front moves the first one back by one. -/
theorem FirstAt.succ {n : String} {x : Value} (other : n ≠ name) (first : FirstAt vars i name v) :
    FirstAt ((n, x) :: vars) (i + 1) name v := by
  refine ⟨first.1, ?_⟩
  intro j before here
  cases j with
  | zero => exact other (Option.some.inj here)
  | succ j => exact first.2 j (by omega) here

/-- What is found under a name is its first binding, at some position. -/
theorem firstAt_of_find? (found : vars.find? name = some v) : ∃ i, FirstAt vars i name v := by
  induction vars with
  | nil => cases found
  | cons b rest ih =>
      obtain ⟨n, x⟩ := b
      by_cases same : n = name
      · subst same
        obtain rfl := Option.some.inj (find?_cons_self.symm.trans found)
        exact ⟨0, rfl, fun j before => absurd before (Nat.not_lt_zero j)⟩
      · obtain ⟨i, first⟩ := ih ((find?_cons_of_ne same).symm.trans found)
        exact ⟨i + 1, first.succ same⟩

/-- A name that is bound is found, though perhaps by an earlier binding. -/
theorem find?_of_mem (here : (name, w) ∈ vars) : ∃ v, vars.find? name = some v := by
  induction vars with
  | nil => cases here
  | cons b rest ih =>
      obtain ⟨n, x⟩ := b
      by_cases same : n = name
      · subst same
        exact ⟨x, find?_cons_self⟩
      · rw [find?_cons_of_ne same]
        refine ih ((List.mem_cons.mp here).resolve_left ?_)
        intro head
        exact same (Prod.mk.inj head).1.symm

/-- The first binding of a name is one only. -/
theorem FirstAt.unique (first : FirstAt vars i name v) (other : FirstAt vars j name w) :
    i = j ∧ v = w := by
  obtain before | rfl | after := Nat.lt_trichotomy i j
  · exact absurd first.1 (other.ne_of_lt before)
  · exact ⟨rfl, (Prod.mk.inj (Option.some.inj (first.1.symm.trans other.1))).2⟩
  · exact absurd other.1 (first.ne_of_lt after)

/-- A value is found under a name exactly if the first binding of the name has it. Later bindings of
the name are never seen. -/
theorem find?_eq_some_iff : vars.find? name = some v ↔ ∃ i, FirstAt vars i name v := by
  constructor
  · exact firstAt_of_find?
  · rintro ⟨i, first⟩
    obtain ⟨w, found⟩ := find?_of_mem (List.mem_of_getElem? first.1)
    obtain ⟨j, other⟩ := firstAt_of_find? found
    rw [found, (first.unique other).2]

/-- A name that is bound at a position is bound there or before for the first time. -/
theorem exists_firstAt (here : vars[i]? = some (name, v)) :
    ∃ j ≤ i, ∃ w, FirstAt vars j name w := by
  obtain ⟨w, found⟩ := find?_of_mem (List.mem_of_getElem? here)
  obtain ⟨j, first⟩ := firstAt_of_find? found
  refine ⟨j, Nat.le_of_not_lt fun before => ?_, w, first⟩
  exact first.ne_of_lt before here

/-- If all names are different, then each is bound for the first time. -/
theorem firstAt_of_nodup (distinct : (vars.map Prod.fst).Nodup) (here : vars[i]? = some (name, v)) :
    FirstAt vars i name v := by
  obtain ⟨j, le, w, first⟩ := exists_firstAt here
  have named (k : Nat) (x : Value) (bound : vars[k]? = some (name, x)) :
      (vars.map Prod.fst)[k]? = some name := by
    rw [List.getElem?_map, bound]
    rfl
  obtain ⟨inside, -⟩ := List.getElem?_eq_some_iff.mp (named j w first.1)
  have same := (List.getElem?_inj inside distinct).mp
    ((named j w first.1).trans (named i v here).symm)
  subst same
  exact ⟨here, first.2⟩

end

section

variable {vars vars' : Bindings} {i j : Nat} {name other : String} {v w : Value}

/-- Bindings that come after do not hide one. -/
theorem FirstAt.append (first : FirstAt vars i name v) (more : Bindings) :
    FirstAt (vars ++ more) i name v := by
  obtain ⟨inside, -⟩ := List.getElem?_eq_some_iff.mp first.1
  refine ⟨(List.getElem?_append_left inside).trans first.1, ?_⟩
  intro j before
  rw [List.getElem?_append_left (Nat.lt_trans before inside)]
  exact first.2 j before

/-- Which binding is the first one depends on the names only. -/
theorem FirstAt.of_names (first : FirstAt vars i name v)
    (names : vars'.map Prod.fst = vars.map Prod.fst) :
    ∃ w, FirstAt vars' i name w := by
  have named (k : Nat) : vars'[k]?.map Prod.fst = vars[k]?.map Prod.fst := by
    rw [← List.getElem?_map, ← List.getElem?_map, names]
  have here := named i
  rw [first.1] at here
  obtain ⟨⟨n, w⟩, found, rfl⟩ := Option.map_eq_some_iff.mp here
  refine ⟨w, found, ?_⟩
  intro j before
  rw [named j]
  exact first.2 j before

/-- The place of a name: that of its first binding, or the end if it is not bound. -/
inductive IsPlaceOf (vars : Bindings) (name : String) : Nat → Prop
  | bound {i : Nat} {v : Value} (first : FirstAt vars i name v) : IsPlaceOf vars name i
  | new (unbound : vars.find? name = none) : IsPlaceOf vars name vars.length

/-- The second bindings are the first ones after a name has got a value. -/
structure Assigns (vars : Bindings) (name : String) (v : Value) (vars' : Bindings) : Prop where
  /-- One place is written, which is the place of the name. -/
  written : ∃ i, IsPlaceOf vars name i ∧ vars'[i]? = some (name, v) ∧ ∀ j ≠ i, vars'[j]? = vars[j]?
  found : vars'.find? name = some v
  others : ∀ other ≠ name, vars'.find? other = vars.find? other
  names : vars'.map Prod.fst = vars.map Prod.fst ++ if vars.find? name = none then [name] else []

/-- With a binding of another name in front, the place of a name is one further. -/
theorem IsPlaceOf.succ {n : String} {x : Value} (different : n ≠ name)
    (place : IsPlaceOf vars name i) :
    IsPlaceOf ((n, x) :: vars) name (i + 1) := by
  cases place with
  | bound first => exact .bound (first.succ different)
  | new unbound =>
      exact .new ((find?_cons_of_ne different).trans unbound)

/-- Inserting a binding assigns the name: its first binding is replaced, or a new one is put at the
end. The order of the others is kept. -/
theorem assigns_insert (vars : Bindings) (name : String) (v : Value) :
    vars.Assigns name v (vars.insert name v) := by
  induction vars with
  | nil =>
      refine ⟨⟨0, .new rfl, rfl, ?_⟩, find?_cons_self, ?_, rfl⟩
      · intro j later
        obtain ⟨j, rfl⟩ := Nat.exists_eq_succ_of_ne_zero later
        rfl
      · intro other different
        exact find?_cons_of_ne (Ne.symm different)
  | cons b rest ih =>
      obtain ⟨n, x⟩ := b
      by_cases same : n = name
      · subst same
        rw [insert, if_pos rfl]
        refine ⟨⟨0, .bound ⟨rfl, fun j before => absurd before (Nat.not_lt_zero j)⟩, rfl, ?_⟩,
          find?_cons_self, ?_, ?_⟩
        · intro j later
          obtain ⟨j, rfl⟩ := Nat.exists_eq_succ_of_ne_zero later
          rfl
        · intro other different
          rw [find?_cons_of_ne (Ne.symm different), find?_cons_of_ne (Ne.symm different)]
        · rw [find?_cons_self, if_neg (Option.some_ne_none x), List.append_nil]
          rfl
      · rw [insert, if_neg same]
        obtain ⟨i, place, here, rest_same⟩ := ih.written
        refine ⟨⟨i + 1, place.succ same, here, ?_⟩, ?_, ?_, ?_⟩
        · intro j different
          cases j with
          | zero => rfl
          | succ j => exact rest_same j fun eq => different (congrArg Nat.succ eq)
        · exact (find?_cons_of_ne same).trans ih.found
        · intro other different
          by_cases head : n = other
          · subst head
            rw [find?_cons_self, find?_cons_self]
          · rw [find?_cons_of_ne head, find?_cons_of_ne head, ih.others other different]
        · rw [List.map_cons, ih.names, find?_cons_of_ne same]
          rfl

end

end Bindings

end RemoteDebugger
