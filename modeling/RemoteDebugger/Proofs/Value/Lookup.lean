import Mathlib.Data.List.Find
import Mathlib.Data.List.Induction
import RemoteDebugger.Value.Resolver

/-!
# Looking up resolvers

A registry keeps one decision for each type, and it is made by the value of this type that is looked
up first after the last registration. The entries of the host are asked to look at nothing but the
type, so for values that one of them handles it does not matter which value was the first. The
built-in entries look at what kind of value it is instead. An object and a foreign value may have
one type, and then the decision made for one of them is taken for the other: the lookup is the same
as in a fresh registry if and only if the host handles the type or the first value was handled by
the same built-in entry, or by none.
-/

namespace RemoteDebugger

/-- The entry handles all values of a type or none. -/
def Resolver.Entry.HeedsType (e : Resolver.Entry) : Prop :=
  ∀ u v : Value, u.type = v.type → e.handles u = e.handles v

namespace Registry

inductive Use where
  | register (entry : Resolver.Entry)
  | lookup (v : Value)

def Use.apply (r : Registry) : Use → Registry
  | .register entry => r.register entry
  | .lookup v => (Registry.lookup v r).2

/-- The built-in registry after it has been used. -/
def after (uses : List Use) : Registry := uses.foldl Use.apply builtin

/-- The entries of the host, the last one first. -/
def hostEntries (uses : List Use) : List Resolver.Entry :=
  uses.foldl (fun entries use => match use with
    | .register entry => entry :: entries
    | .lookup _ => entries) []

/-- The values that have been looked up since the last registration, the first one first. -/
def lookedUp (uses : List Use) : List Value :=
  uses.foldl (fun values use => match use with
    | .register _ => []
    | .lookup v => values ++ [v]) []

/-- The value that decides on the resolver of another one: the first of its type that has been
looked up. -/
def decisive (uses : List Use) (v : Value) : Value :=
  ((lookedUp uses).find? fun u => u.type = v.type).getD v

section

variable {uses : List Use} {use : Use} {r : Registry} {u v : Value}

@[simp] theorem after_append (uses : List Use) (use : Use) :
    after (uses ++ [use]) = use.apply (after uses) := by
  rw [after, List.foldl_append]
  rfl

/-- The entry registered last comes first. -/
@[simp] theorem hostEntries_append (uses : List Use) (use : Use) :
    hostEntries (uses ++ [use]) = match use with
      | .register entry => entry :: hostEntries uses
      | .lookup _ => hostEntries uses := by
  rw [hostEntries, List.foldl_append]
  rfl

/-- A registration forgets what has been decided, so only the lookups since the last one count. -/
@[simp] theorem lookedUp_append (uses : List Use) (use : Use) :
    lookedUp (uses ++ [use]) = match use with
      | .register _ => []
      | .lookup v => lookedUp uses ++ [v] := by
  rw [lookedUp, List.foldl_append]
  rfl

@[simp] theorem entries_lookup (v : Value) (r : Registry) : (lookup v r).2.entries = r.entries := by
  rw [lookup]
  split <;> rfl

/-- The entries of the host are asked before the built-in ones, the latest first. -/
@[simp] theorem entries_after (uses : List Use) :
    (after uses).entries = hostEntries uses ++ builtin.entries := by
  induction uses using List.reverseRecOn with
  | nil => rfl
  | append_singleton uses use ih =>
      rw [after_append, hostEntries_append]
      cases use with
      | register entry => exact congrArg (entry :: ·) ih
      | lookup v => exact (entries_lookup v _).trans ih

/-- Each type is decided on by the first value of this type. -/
def Decided (r : Registry) (values : List Value) : Prop :=
  ∀ t, r.decided.lookup t = (values.find? fun u => u.type = t).map r.position?

/-- A lookup is decided by the first value of the same type that was looked up, and by the value
itself if there is none. -/
theorem Decided.lookup_eq {values : List Value} (decided : Decided r values) (v : Value) :
    (lookup v r).1 = r.find ((values.find? fun u => u.type = v.type).getD v) := by
  have known := decided v.type
  rw [lookup]
  cases found : values.find? fun u => u.type = v.type with
  | none =>
      rw [found] at known
      rw [known]
      rfl
  | some u =>
      rw [found] at known
      rw [known]
      rfl

/-- A lookup adds its value to those that have decided, where it comes last. -/
theorem Decided.lookup {values : List Value} (decided : Decided r values) (v : Value) :
    Decided (lookup v r).2 (values ++ [v]) := by
  intro t
  have known := decided v.type
  rw [List.find?_append, Registry.lookup]
  cases found : r.decided.lookup v.type with
  | some position =>
      -- a decision stands, and it is not this value that made it
      dsimp only
      rw [decided t]
      by_cases same : v.type = t
      · obtain ⟨u, first, -⟩ := Option.map_eq_some_iff.mp (known.symm.trans found)
        rw [← same, first]
        rfl
      · simp [same]
  | none =>
      have new := Option.map_eq_none_iff.mp (known.symm.trans found)
      dsimp only
      by_cases same : v.type = t
      · rw [← same, new]
        simp [position?]
      · have other : (t == v.type) = false := beq_eq_false_iff_ne.mpr fun eq => same eq.symm
        rw [List.lookup_cons, other]
        simp [same, decided t]
        rfl

/-- Whatever the uses of a registry were, its decisions are those of the lookups since the last
registration. -/
theorem decided_after (uses : List Use) : Decided (after uses) (lookedUp uses) := by
  induction uses using List.reverseRecOn with
  | nil => exact fun _ => rfl
  | append_singleton uses use ih =>
      rw [after_append, lookedUp_append]
      cases use with
      | register entry => exact fun _ => rfl
      | lookup v => exact ih.lookup v

/-- The value that decides has the type of the value that is looked up. -/
@[simp] theorem type_decisive (uses : List Use) (v : Value) : (decisive uses v).type = v.type := by
  rw [decisive]
  cases found : (lookedUp uses).find? fun u => u.type = v.type with
  | none => rfl
  | some u =>
      have same := List.find?_some found
      exact of_decide_eq_true same

/-- Looking for a position and taking what is there is looking for an element. -/
theorem bind_findIdx? {α : Type} (p : α → Bool) (xs : List α) :
    (xs.findIdx? p).bind (fun i => xs[i]?) = xs.find? p := by
  induction xs with
  | nil => rfl
  | cons x xs ih =>
      rw [List.findIdx?_cons, List.find?_cons]
      cases p x with
      | true => rfl
      | false =>
          rw [← ih]
          cases xs.findIdx? p <;> rfl

/-- The resolver that is found is that of the first entry that handles the value. -/
theorem find_eq (r : Registry) (v : Value) :
    r.find v = ((r.entries.find? fun e => e.handles v).map (·.resolver)).getD Resolver.scalar := by
  rw [find, at_, position?, bind_findIdx?]
  cases r.entries.find? fun e => e.handles v <;> rfl

/-- Of the entries of the host, the first that handles a value decides. Without one, the built-in
entries do. -/
theorem find_after (uses : List Use) (v : Value) :
    (after uses).find v =
      (((hostEntries uses).find? fun e => e.handles v).map (·.resolver)).getD (builtin.find v) := by
  rw [find_eq, find_eq, entries_after, List.find?_append]
  cases (hostEntries uses).find? fun e => e.handles v <;> rfl

/-- All values of a type are found alike if the host handles it. -/
theorem find_after_congr (heed : ∀ e ∈ hostEntries uses, e.HeedsType) (same : u.type = v.type)
    (handled : ∃ e ∈ hostEntries uses, e.handles v = true) :
    (after uses).find u = (after uses).find v := by
  obtain ⟨e, host, handles⟩ := handled
  have alike : ((hostEntries uses).find? fun e => e.handles u) =
      (hostEntries uses).find? fun e => e.handles v :=
    List.find?_congr fun e host => heed e host u v same
  rw [find_after, find_after, alike]
  cases found : (hostEntries uses).find? fun e => e.handles v with
  | none => exact absurd handles (List.find?_eq_none.mp found e host)
  | some e => rfl

/-- If the entries of the host heed the type only and none handles a value, then none handles any
other of its type. -/
theorem find_after_of_not_handled (heed : ∀ e ∈ hostEntries uses, e.HeedsType)
    (same : u.type = v.type)
    (none : ¬ ∃ e ∈ hostEntries uses, e.handles v = true) :
    (after uses).find u = builtin.find u := by
  rw [find_after, List.find?_eq_none.mpr]
  · rfl
  · exact fun e host handles => none ⟨e, host, heed e host u v same ▸ handles⟩

/-- The built-in resolvers have different names. -/
theorem builtin_position?_eq (v : Value) :
    builtin.position? v =
      builtin.entries.findIdx? fun e => e.resolver.name == (builtin.find v).name := by
  cases v <;> rfl

/-- Two values have the same built-in resolver exactly if the same built-in entry handles them. -/
theorem builtin_find_inj :
    builtin.find u = builtin.find v ↔ builtin.position? u = builtin.position? v := by
  constructor
  · intro same
    rw [builtin_position?_eq, builtin_position?_eq, same]
  · intro same
    rw [find, find, same]

end

/-- How a registry that has been used looks up a value. Which values were looked up before may
matter, and this says when. -/
structure LooksUp (uses : List Use) (v : Value) : Prop where
  /-- The first value of the type decides. -/
  decides : (lookup v (after uses)).1 = (after uses).find (decisive uses v)
  /-- The first entry that handles the value is found if the host handles the type, or if the
  built-in entries make no difference between the first value of the type and this one, and only
  then. -/
  finds_iff : (lookup v (after uses)).1 = (after uses).find v ↔
    (∃ e ∈ hostEntries uses, e.handles v = true) ∨
      builtin.position? (decisive uses v) = builtin.position? v
  /-- In particular it is found if they make none between all values of the type looked up so
  far. -/
  finds_of_alike : (∀ u ∈ lookedUp uses, u.type = v.type →
    builtin.position? u = builtin.position? v) →
    (lookup v (after uses)).1 = (after uses).find v
  /-- It is found in a registry with the same entries that has not been used. -/
  finds_of_fresh : (lookup v { entries := (after uses).entries }).1 = (after uses).find v

/-- A lookup is the same as in a fresh registry unless a value of the same type that the built-in
entries take for something else has been looked up before. -/
theorem lookups_follow_first (uses : List Use) (v : Value)
    (heed : ∀ e ∈ hostEntries uses, e.HeedsType) : LooksUp uses v := by
  have decides := (decided_after uses).lookup_eq v
  have finds_iff : (lookup v (after uses)).1 = (after uses).find v ↔
      (∃ e ∈ hostEntries uses, e.handles v = true) ∨
        builtin.position? (decisive uses v) = builtin.position? v := by
    have same := type_decisive uses v
    by_cases handled : ∃ e ∈ hostEntries uses, e.handles v = true
    · exact iff_of_true (decides.trans (find_after_congr heed same handled)) (.inl handled)
    · rw [decides, ← decisive, find_after_of_not_handled heed same handled,
        find_after_of_not_handled heed rfl handled, builtin_find_inj, or_iff_right handled]
  refine ⟨decides, finds_iff, fun alike => finds_iff.mpr (.inr ?_), rfl⟩
  rw [decisive]
  cases found : (lookedUp uses).find? fun u => u.type = v.type with
  | none => rfl
  | some u =>
      have same := List.find?_some found
      exact alike u (List.mem_of_find?_eq_some found) (of_decide_eq_true same)

/-- A type that has objects, and values that cannot be taken apart. -/
def user : TypeIdentity := ⟨some "app", "User"⟩

/-- An entry of the host for another type. -/
def session : Resolver.Entry where
  handles v := v.type = ⟨some "app", "Session"⟩
  resolver := { name := "session", children := fun _ _ => .ok [] }

/-- The registration forgets that a foreign value has been looked up. -/
theorem object_after_registration_is_found :
    (lookup (.object user 1) (after [.lookup (.foreign user 0 "u"), .register session,
      .lookup (.object user 0), .lookup (.bool true)])).1.name = "object" := by
  have law := lookups_follow_first [.lookup (.foreign user 0 "u"), .register session,
    .lookup (.object user 0), .lookup (.bool true)] (.object user 1) fun e host u v same => by
      obtain rfl := List.mem_singleton.mp host
      exact congrArg (fun t => decide (t = _)) same
  exact congrArg Resolver.name (law.finds_iff.mpr (.inr (by decide)))

/-- An object is taken for a value without children if a foreign value of its type was looked up
before. -/
theorem object_after_foreign_is_scalar :
    (∀ e ∈ hostEntries [.lookup (.foreign user 0 "u")], e.HeedsType) ∧
      (lookup (.object user 0) (after [.lookup (.foreign user 0 "u")])).1.name = "scalar" ∧
      ((after [.lookup (.foreign user 0 "u")]).find (.object user 0)).name = "object" :=
  ⟨List.forall_mem_nil _, rfl, rfl⟩

end Registry

end RemoteDebugger
