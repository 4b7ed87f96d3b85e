import Mathlib.Data.List.Nodup
import RemoteDebugger.Proofs.Breakpoint.Memo

/-!
# The registry as a plain list

The registry keeps line breakpoints by file and line, and takes what becomes empty out of its
tables. To its users it is a plain list of breakpoints in the order in which they were set: a
breakpoint that is set again, also at another line, goes to the end of the list, and the breakpoints
at a line are those of the list that are there.

The tables are keyed lists. Their keys are distinct and no line is empty, whatever is done to them;
so a table is empty exactly if its file has no breakpoints, and removing a number from all lines of
a file is removing the one breakpoint that has it.
-/

namespace RemoteDebugger

/-- A breakpoint is known by its number in its file. Its line has no part in it, so setting it anew
moves it. -/
def Breakpoint.name (b : Breakpoint) : Nat × String := (b.id, b.location.file)

/-- Erasing the first element with a property erases all of them, if there is at most one. -/
theorem eraseP_eq_filter {α : Type} {p : α → Bool} {l : List α}
    (once : l.Pairwise fun a b => ¬ (p a = true ∧ p b = true)) :
    l.eraseP p = l.filter fun a => !p a := by
  induction l with
  | nil => rfl
  | cons a l ih =>
      obtain ⟨first, later⟩ := List.pairwise_cons.mp once
      cases fits : p a with
      | true =>
          rw [List.eraseP_cons_of_pos fits, List.filter_cons_of_neg (by simp [fits])]
          symm
          rw [List.filter_eq_self]
          intro b member
          have other : ¬ p b = true := fun fits' => first b member ⟨fits, fits'⟩
          simpa using other
      | false =>
          rw [List.eraseP_cons_of_neg (by simp [fits]), List.filter_cons_of_pos (by simp [fits]),
            ih later]

section

variable {α β : Type} [DecidableEq α] {key : α} {entries : List (α × List β)}

/-- What stands under a key is the list of the first entry with it, and nothing if there is none. -/
theorem getD_lookup_cons (e : α × List β) (entries : List (α × List β)) (key : α) :
    ((e :: entries).lookup key).getD [] = if key = e.1 then e.2 else (entries.lookup key).getD
    [] := by
  obtain ⟨first, values⟩ := e
  rw [List.lookup_cons]
  split
  · rename_i same
    rw [if_pos (eq_of_beq same)]
    rfl
  · rename_i other
    rw [if_neg (ne_of_beq_false other)]

theorem getD_lookup_of_notMem (missing : key ∉ entries.map Prod.fst) :
    (entries.lookup key).getD [] = [] := by
  induction entries with
  | nil => rfl
  | cons e entries ih =>
      simp only [List.map_cons, List.mem_cons, not_or] at missing
      rw [getD_lookup_cons, if_neg missing.1]
      exact ih missing.2

end

namespace LineTable

/-- The lines are distinct, and each has breakpoints. -/
structure Tidy (t : LineTable) : Prop where
  distinct : (t.map Prod.fst).Nodup
  filled : ∀ e ∈ t, e.2 ≠ []

theorem tidy_nil : Tidy [] := ⟨List.nodup_nil, fun _ member => absurd member List.not_mem_nil⟩

section

variable {t : LineTable} {e : Nat × List Breakpoint} {line : Nat} {b : Breakpoint} {id : Nat}

theorem Tidy.tail (h : Tidy (e :: t)) : Tidy t where
  distinct := (List.nodup_cons.mp h.distinct).2
  filled := fun e' member => h.filled e' (List.mem_cons_of_mem e member)

@[simp] theorem at_nil (line : Nat) : at_ [] line = [] := rfl

theorem at_cons (e : Nat × List Breakpoint) (t : LineTable) (line : Nat) :
    at_ (e :: t) line = if line = e.1 then e.2 else at_ t line :=
  getD_lookup_cons e t line

/-- In a tidy table, what is found at a line is all that the table has there. -/
theorem Tidy.at_eq (h : Tidy t) (member : e ∈ t) : at_ t e.1 = e.2 := by
  induction t with
  | nil => cases member
  | cons e' t ih =>
      rw [at_cons]
      cases member with
      | head => exact if_pos rfl
      | tail _ later =>
          rw [if_neg, ih h.tail later]
          intro same
          apply (List.nodup_cons.mp h.distinct).1
          rw [← same]
          exact List.mem_map_of_mem later

/-- A breakpoint that is found at a line stands in an entry of the line. -/
theorem mem_of_mem_at (found : b ∈ at_ t line) : ∃ e ∈ t, e.1 = line ∧ b ∈ e.2 := by
  induction t with
  | nil => cases found
  | cons e t ih =>
      rw [at_cons] at found
      split at found
      · rename_i same
        exact ⟨e, List.mem_cons_self, same.symm, found⟩
      · obtain ⟨e', member, here, mem⟩ := ih found
        exact ⟨e', List.mem_cons_of_mem e member, here, mem⟩

/-- An added breakpoint comes last at its line. The other lines are as they were. -/
@[simp] theorem at_add (b : Breakpoint) (t : LineTable) (line : Nat) :
    (t.add b).at_ line = t.at_ line ++ if line = b.location.line then [b] else [] := by
  induction t with
  | nil => rw [add, at_cons, at_nil, List.nil_append]
  | cons e t ih =>
      obtain ⟨first, bs⟩ := e
      rw [add]
      split
      · rename_i here
        subst here
        rw [at_cons, at_cons]
        split
        · rfl
        · rw [List.append_nil]
      · rename_i other
        rw [at_cons, at_cons, ih]
        split
        · rename_i here
          rw [if_neg fun same => other (here.symm.trans same), List.append_nil]
        · rfl

/-- Adding a breakpoint adds no line but its own. -/
theorem mem_keys_add (found : line ∈ (t.add b).map Prod.fst) :
    line ∈ t.map Prod.fst ∨ line = b.location.line := by
  induction t with
  | nil => exact .inr (List.mem_singleton.mp found)
  | cons e t ih =>
      obtain ⟨first, bs⟩ := e
      rw [add] at found
      split at found
      · exact .inl found
      · cases found with
        | head => exact .inl List.mem_cons_self
        | tail _ later =>
            cases ih later with
            | inl before => exact .inl (List.mem_cons_of_mem _ before)
            | inr here => exact .inr here

/-- A table stays tidy when a breakpoint is added, also one with an identifier that is taken. -/
theorem Tidy.add (h : Tidy t) (b : Breakpoint) : Tidy (t.add b) := by
  induction t with
  | nil =>
      refine ⟨List.pairwise_singleton _ _, ?_⟩
      intro e member
      rw [List.mem_singleton.mp member]
      exact List.cons_ne_nil _ _
  | cons e t ih =>
      obtain ⟨first, bs⟩ := e
      have later := ih h.tail
      rw [LineTable.add]
      split
      · refine ⟨h.distinct, ?_⟩
        intro e member
        cases member with
        | head => exact List.append_ne_nil_of_right_ne_nil _ (List.cons_ne_nil _ _)
        | tail _ member => exact h.filled e (List.mem_cons_of_mem _ member)
      · rename_i other
        constructor
        · refine List.nodup_cons.mpr ⟨?_, later.distinct⟩
          intro found
          cases mem_keys_add found with
          | inl before => exact (List.nodup_cons.mp h.distinct).1 before
          | inr here => exact other here
        · intro e member
          cases member with
          | head => exact h.filled _ List.mem_cons_self
          | tail _ member => exact later.filled e member

/-- Removing an identifier goes through the lines in order, and drops a line that is left without
breakpoints. -/
theorem remove_cons (e : Nat × List Breakpoint) (t : LineTable) (id : Nat) :
    remove (e :: t) id =
      if (e.2.eraseP fun b => b.id == id) = [] then remove t id
      else (e.1, e.2.eraseP fun b => b.id == id) :: remove t id := by
  rw [remove, List.map_cons, List.filter_cons]
  cases e.2.eraseP fun b => b.id == id with
  | nil => rfl
  | cons => rfl

/-- The lines of a table are left, or fewer. -/
theorem keys_remove (t : LineTable) (id : Nat) :
    ((t.remove id).map Prod.fst).Sublist (t.map Prod.fst) := by
  have kept : (t.map fun e => (e.1, e.2.eraseP fun b => b.id == id)).map Prod.fst =
      t.map Prod.fst := by
    rw [List.map_map]
    rfl
  rw [← kept]
  exact List.filter_sublist.map _

/-- A table stays tidy when an identifier is removed. -/
theorem Tidy.remove (h : Tidy t) (id : Nat) : Tidy (t.remove id) where
  distinct := h.distinct.sublist (keys_remove t id)
  filled := by
    intro e member
    have nonempty := (List.mem_filter.mp member).2
    simpa using nonempty

/-- Removing an identifier erases its first breakpoint at each line, as far as there is one. -/
@[simp] theorem at_remove (h : Tidy t) (id line : Nat) :
    (t.remove id).at_ line = (t.at_ line).eraseP fun b => b.id == id := by
  induction t with
  | nil => rfl
  | cons e t ih =>
      have later := ih h.tail
      rw [remove_cons, at_cons]
      split
      · rename_i emptied
        split
        · rename_i here
          -- The line is gone, and the table has no other one of it.
          have missing : e.1 ∉ t.map Prod.fst := (List.nodup_cons.mp h.distinct).1
          rw [later, here, at_, getD_lookup_of_notMem missing, emptied]
          rfl
        · exact later
      · rw [at_cons]
        split
        · rfl
        · exact later

/-- If no breakpoint is found under an identifier, then none in the table has it. -/
theorem find?_eq_none (found : t.find? id = none) (member : e ∈ t) (inside : b ∈ e.2) :
    b.id ≠ id := by
  have missing := List.findSome?_eq_none_iff.mp found e member
  have other := List.find?_eq_none.mp missing b inside
  simpa using other

theorem find?_eq_some (found : t.find? id = some b) : b.id = id ∧ ∃ e ∈ t, b ∈ e.2 := by
  obtain ⟨e, member, here⟩ := List.exists_of_findSome?_eq_some found
  exact ⟨by simpa using List.find?_some here, e, member, List.mem_of_find?_eq_some here⟩

end

end LineTable

namespace Snapshot

section

variable {fs : List (String × LineTable)} {file : String}

theorem mem_keys_putTable {f : String} {t : LineTable}
    (found : f ∈ (putTable file t fs).map Prod.fst) : f ∈ fs.map Prod.fst ∨ f = file := by
  induction fs with
  | nil =>
      rw [putTable] at found
      split at found
      · cases found
      · exact .inr (List.mem_singleton.mp found)
  | cons e fs ih =>
      obtain ⟨first, old⟩ := e
      rw [putTable] at found
      split at found
      · split at found
        · exact .inl (List.mem_cons_of_mem _ found)
        · exact .inl found
      · cases found with
        | head => exact .inl List.mem_cons_self
        | tail _ later =>
            cases ih later with
            | inl before => exact .inl (List.mem_cons_of_mem _ before)
            | inr here => exact .inr here

/-- Files stay distinct when a table is put, whether it is empty or not. -/
theorem distinct_putTable (distinct : (fs.map Prod.fst).Nodup) (file : String) (t : LineTable) :
    ((putTable file t fs).map Prod.fst).Nodup := by
  induction fs with
  | nil =>
      rw [putTable]
      split
      · exact List.nodup_nil
      · exact List.pairwise_singleton _ _
  | cons e fs ih =>
      obtain ⟨first, old⟩ := e
      obtain ⟨missing, later⟩ := List.nodup_cons.mp distinct
      rw [putTable]
      split
      · split
        · exact later
        · exact distinct
      · rename_i other
        refine List.nodup_cons.mpr ⟨?_, ih later⟩
        intro found
        cases mem_keys_putTable found with
        | inl before => exact missing before
        | inr here => exact other here

/-- After a table is put in its place it is found there, and the other ones are as they were. -/
@[simp]
theorem getD_lookup_putTable (distinct : (fs.map Prod.fst).Nodup) (file : String) (t : LineTable)
    (f : String) :
    ((putTable file t fs).lookup f).getD [] = if f = file then t else (fs.lookup f).getD [] := by
  induction fs with
  | nil =>
      rw [putTable]
      split
      · rename_i empty
        rw [List.isEmpty_iff.mp empty]
        exact (ite_self _).symm
      · exact getD_lookup_cons (file, t) [] f
  | cons e fs ih =>
      obtain ⟨first, old⟩ := e
      obtain ⟨missing, later⟩ := List.nodup_cons.mp distinct
      rw [putTable]
      split
      · rename_i here
        subst here
        split
        · rename_i empty
          rw [List.isEmpty_iff.mp empty]
          split
          · rename_i same
            rw [same]
            exact getD_lookup_of_notMem missing
          · rename_i other
            rw [getD_lookup_cons, if_neg other]
        · rw [getD_lookup_cons, getD_lookup_cons]
          split
          · rfl
          · rfl
      · rename_i other
        rw [getD_lookup_cons, getD_lookup_cons, ih later]
        split
        · rename_i here
          rw [if_neg fun same => other (here.symm.trans same)]
        · rfl

end

section

variable {p : Snapshot} {l : List Breakpoint} {id line : Nat} {file : String} {b : Breakpoint}

/-- A snapshot holds a list of breakpoints: at each line those that are there, in the order of the
list. -/
structure Lists (p : Snapshot) (l : List Breakpoint) : Prop where
  distinct : (p.files.map Prod.fst).Nodup
  tidy : ∀ file, (p.tableOf file).Tidy
  at_ : ∀ file line, p.at_ file line = l.filter fun b => b.location = ⟨file, line⟩
  names : (l.map Breakpoint.name).Nodup

/-- An empty registry lists nothing. -/
theorem lists_new : Lists {} [] where
  distinct := List.nodup_nil
  tidy := fun _ => LineTable.tidy_nil
  at_ := fun _ _ => rfl
  names := List.nodup_nil

/-- What a snapshot lists is told by its files alone. The filters for exceptions have no part in
it. -/
theorem Lists.of_same {p' : Snapshot} (h : p.Lists l) (same : p'.files = p.files) : p'.Lists l := by
  have tables (file : String) : p'.tableOf file = p.tableOf file := by rw [tableOf, tableOf, same]
  constructor
  · rw [same]
    exact h.distinct
  · intro file
    rw [tables]
    exact h.tidy file
  · intro file line
    rw [Snapshot.at_, tables]
    exact h.at_ file line
  · exact h.names

/-- Only the table of the file is changed. -/
@[simp]
theorem tableOf_removeLine (distinct : (p.files.map Prod.fst).Nodup) (id : Nat) (file f : String) :
    (p.removeLine id file).tableOf f = if f = file then (p.tableOf file).remove id
      else p.tableOf f :=
  getD_lookup_putTable distinct file _ f

/-- Removing a number at a line of a file is removing the name from the list. -/
theorem Lists.eraseP_at (h : p.Lists l) (id : Nat) (file : String) (line : Nat) :
    ((p.at_ file line).eraseP fun b => b.id == id) =
      (l.filter fun b => b.name ≠ (id, file)).filter fun b => b.location = ⟨file, line⟩ := by
  have once : (p.at_ file line).Pairwise fun a b =>
      ¬ ((a.id == id) = true ∧ (b.id == id) = true) := by
    rw [h.at_, List.pairwise_filter]
    refine (List.pairwise_map.mp h.names).imp ?_
    intro a b distinct here here' same
    apply distinct
    rw [Breakpoint.name, Breakpoint.name, of_decide_eq_true here, of_decide_eq_true here',
      eq_of_beq same.1, eq_of_beq same.2]
  rw [eraseP_eq_filter once, h.at_, List.filter_filter, List.filter_filter]
  apply List.filter_congr
  intro b _
  rw [Bool.eq_iff_iff]
  simp only [Bool.and_eq_true, Bool.not_eq_true', decide_eq_true_eq, beq_eq_false_iff_ne, ne_eq,
    Breakpoint.name, Prod.mk.injEq]
  constructor
  · rintro ⟨numbered, here⟩
    exact ⟨here, fun same => numbered same.1⟩
  · rintro ⟨here, other⟩
    exact ⟨fun same => other ⟨same, congrArg Source.Location.file here⟩, here⟩

/-- Removing a name does not change the lines of other files. -/
theorem filter_name_of_ne {f : String} (other : f ≠ file) (l : List Breakpoint) (id line : Nat) :
    ((l.filter fun b => b.name ≠ (id, file)).filter fun b => b.location = ⟨f, line⟩) =
      l.filter fun b => b.location = ⟨f, line⟩ := by
  rw [List.filter_filter]
  apply List.filter_congr
  intro b _
  by_cases here : b.location = ⟨f, line⟩
  · simp [Breakpoint.name, here, other]
  · simp [here]

/-- Removing a breakpoint from a file takes it off the list, and keeps the others in their order. -/
theorem Lists.removeLine (h : p.Lists l) (id : Nat) (file : String) :
    (p.removeLine id file).Lists (l.filter fun b => b.name ≠ (id, file)) where
  distinct := distinct_putTable h.distinct file _
  tidy := by
    intro f
    rw [tableOf_removeLine h.distinct]
    split
    · exact (h.tidy file).remove id
    · exact h.tidy f
  at_ := by
    intro f line
    rw [Snapshot.at_, tableOf_removeLine h.distinct]
    split
    · rename_i here
      subst here
      rw [LineTable.at_remove (h.tidy f)]
      exact h.eraseP_at id f line
    · rename_i other
      rw [filter_name_of_ne other]
      exact h.at_ f line
  names := h.names.sublist (List.filter_sublist.map _)

/-- One breakpoint is listed at its own place and at no other. -/
theorem filter_singleton_at (b : Breakpoint) (f : String) (line : Nat) :
    ([b].filter fun a => a.location = ⟨f, line⟩) =
      if f = b.location.file then if line = b.location.line then [b] else [] else [] := by
  have there : b.location = ⟨f, line⟩ ↔ f = b.location.file ∧ line = b.location.line := by
    constructor
    · intro same
      rw [same]
      exact ⟨rfl, rfl⟩
    · rintro ⟨rfl, rfl⟩
      rfl
  simp only [List.filter_cons, List.filter_nil, there, decide_eq_true_eq]
  by_cases here : f = b.location.file
  · simp only [here, true_and, if_true]
  · simp only [here, false_and, if_false]

/-- A breakpoint that is added replaces one with its identifier in the same file. Other files keep
theirs, also under the same identifier. -/
@[simp]
theorem tableOf_addLine (distinct : (p.files.map Prod.fst).Nodup) (b : Breakpoint) (f : String) :
    (p.addLine b).tableOf f =
      if f = b.location.file then ((p.tableOf b.location.file).remove b.id).add b
      else p.tableOf f := by
  have without := distinct_putTable distinct b.location.file
    ((p.tableOf b.location.file).remove b.id)
  have removed (f : String) := tableOf_removeLine distinct b.id b.location.file f
  refine (getD_lookup_putTable without b.location.file _ f).trans ?_
  split
  · rw [removed, if_pos rfl]
  · rename_i other
    exact (removed f).trans (if_neg other)

/-- Adding a breakpoint puts it at the end of the list, in place of one of its name wherever that
stood. -/
theorem Lists.addLine (h : p.Lists l) (b : Breakpoint) :
    (p.addLine b).Lists ((l.filter fun a => a.name ≠ b.name) ++ [b]) := by
  have without : (p.removeLine b.id b.location.file).Lists (l.filter fun a => a.name ≠ b.name) :=
    h.removeLine b.id b.location.file
  constructor
  · exact distinct_putTable without.distinct b.location.file _
  · intro f
    rw [tableOf_addLine h.distinct]
    split
    · exact ((h.tidy b.location.file).remove b.id).add b
    · exact h.tidy f
  · intro f line
    have before := without.at_ f line
    rw [Snapshot.at_, tableOf_removeLine h.distinct] at before
    rw [Snapshot.at_, tableOf_addLine h.distinct, List.filter_append, filter_singleton_at, ← before]
    split
    · rw [LineTable.at_add]
    · rw [List.append_nil]
  · rw [List.map_append, List.nodup_append]
    refine ⟨without.names, List.nodup_singleton _, ?_⟩
    intro name member name' last
    obtain ⟨a, unnamed, rfl⟩ := List.mem_map.mp member
    rw [List.mem_singleton.mp last]
    exact of_decide_eq_true (List.mem_filter.mp unnamed).2

/-- The table of a file has the breakpoints of the list that are in the file. -/
theorem Lists.mem_table (h : p.Lists l) :
    (∃ e ∈ p.tableOf file, b ∈ e.2) ↔ b ∈ l ∧ b.location.file = file := by
  constructor
  · rintro ⟨e, member, inside⟩
    have here := h.at_ file e.1
    rw [Snapshot.at_, (h.tidy file).at_eq member] at here
    rw [here] at inside
    obtain ⟨listed, there⟩ := List.mem_filter.mp inside
    exact ⟨listed, congrArg Source.Location.file (of_decide_eq_true there)⟩
  · rintro ⟨listed, rfl⟩
    have inside : b ∈ p.at_ b.location.file b.location.line := by
      rw [h.at_]
      exact List.mem_filter.mpr ⟨listed, decide_eq_true rfl⟩
    obtain ⟨e, member, -, found⟩ := LineTable.mem_of_mem_at inside
    exact ⟨e, member, found⟩

/-- A file has breakpoints if the list has some of it. -/
theorem Lists.hasBreakpointsIn_iff (h : p.Lists l) (file : String) :
    p.hasBreakpointsIn file = true ↔ ∃ b ∈ l, b.location.file = file := by
  have filled := (h.tidy file).filled
  constructor
  · intro occupied
    have nonempty : p.tableOf file ≠ [] := by simpa [hasBreakpointsIn] using occupied
    obtain ⟨e, member⟩ := List.exists_mem_of_ne_nil _ nonempty
    obtain ⟨b, inside⟩ := List.exists_mem_of_ne_nil _ (filled e member)
    exact ⟨b, h.mem_table.mp ⟨e, member, inside⟩⟩
  · rintro ⟨b, listed⟩
    obtain ⟨e, member, -⟩ := h.mem_table.mpr listed
    have nonempty : p.tableOf file ≠ [] := List.ne_nil_of_mem member
    simpa [hasBreakpointsIn] using nonempty

/-- The breakpoint of a number in a file is the one of the list. -/
theorem Lists.find?_eq (h : p.Lists l) (id : Nat) (file : String) :
    (p.tableOf file).find? id = l.find? fun b => b.name = (id, file) := by
  cases found : (p.tableOf file).find? id with
  | none =>
      symm
      rw [List.find?_eq_none]
      intro a listed fits
      obtain ⟨numbered, here⟩ := Prod.mk.inj (of_decide_eq_true fits)
      obtain ⟨e, member, inside⟩ := h.mem_table.mpr ⟨listed, here⟩
      exact LineTable.find?_eq_none found member inside numbered
  | some b =>
      obtain ⟨rfl, inside⟩ := LineTable.find?_eq_some found
      obtain ⟨listed, rfl⟩ := h.mem_table.mp inside
      cases first : l.find? fun a => a.name = (b.id, b.location.file) with
      | none => exact absurd (decide_eq_true rfl) (List.find?_eq_none.mp first b listed)
      | some a =>
          -- Both have the name, and the list has it only once.
          have named := List.find?_some first
          have same : a.name = b.name := of_decide_eq_true named
          have listed' := List.mem_of_find?_eq_some first
          rw [List.inj_on_of_nodup_map h.names listed' listed same]

end

end Snapshot

/-- A call of the registry: a change that the controller makes, or a new start of the memo. -/
inductive RegistryCall where
  | change (c : RegistryChange)
  | invalidate

namespace RegistryCall

def apply (r : BreakpointRegistry) : RegistryCall → BreakpointRegistry
  | change c => c.apply r
  | invalidate => r.invalidate

def applyToList (l : List Breakpoint) : RegistryCall → List Breakpoint
  | change (.add b) => (l.filter fun a => a.name ≠ b.name) ++ [b]
  | change (.remove id file) => l.filter fun b => b.name ≠ (id, file)
  | change _ | invalidate => l

/-- The file whose breakpoints a call changes. -/
def file? : RegistryCall → Option String
  | change (.add b) => some b.location.file
  | change (.remove _ file) => some file
  | change _ | invalidate => none

end RegistryCall

def BreakpointRegistry.of (calls : List RegistryCall) : BreakpointRegistry :=
  calls.foldl RegistryCall.apply {}

def listOf (calls : List RegistryCall) : List Breakpoint :=
  calls.foldl RegistryCall.applyToList []

namespace BreakpointRegistry

/-- A call changes what a registry lists as it changes the list. -/
theorem lists_apply {r : BreakpointRegistry} {l : List Breakpoint} (h : r.snapshot.Lists l)
    (call : RegistryCall) : (call.apply r).snapshot.Lists (call.applyToList l) := by
  cases call with
  | invalidate => exact h.of_same rfl
  | change c =>
      cases c with
      | add b => exact (h.addLine b).of_same rfl
      | remove id file => exact (h.removeLine id file).of_same rfl
      | addException | removeException | setExceptions | ignoreExceptionsAt => exact h.of_same rfl

/-- After any calls, a registry lists what the list of these calls does. -/
theorem lists_of (calls : List RegistryCall) : (of calls).snapshot.Lists (listOf calls) := by
  have run {r : BreakpointRegistry} {l : List Breakpoint} (h : r.snapshot.Lists l) :
      (calls.foldl RegistryCall.apply r).snapshot.Lists
        (calls.foldl RegistryCall.applyToList l) := by
    induction calls generalizing r l with
    | nil => exact h
    | cons call calls ih => exact ih (lists_apply h call)
  exact run Snapshot.lists_new

/-- A call leaves the tables of other files as they are. -/
theorem tableOf_apply {r : BreakpointRegistry} {l : List Breakpoint} (h : r.snapshot.Lists l)
    {call : RegistryCall} {file : String} (other : call.file? ≠ some file) :
    (call.apply r).snapshot.tableOf file = r.snapshot.tableOf file := by
  cases call with
  | invalidate => rfl
  | change c =>
      cases c with
      | add b =>
          have elsewhere : file ≠ b.location.file := fun same => other (congrArg some same.symm)
          exact (Snapshot.tableOf_addLine h.distinct b file).trans (if_neg elsewhere)
      | remove id changed =>
          have elsewhere : file ≠ changed := fun same => other (congrArg some same.symm)
          exact (Snapshot.tableOf_removeLine h.distinct id changed file).trans (if_neg elsewhere)
      | addException | removeException | setExceptions | ignoreExceptionsAt => rfl

/-- Every call begins a new generation, also one that changes nothing. -/
@[simp] theorem generation_apply (r : BreakpointRegistry) (call : RegistryCall) :
    (call.apply r).snapshot.generation = r.snapshot.generation + 1 := by
  cases call with
  | invalidate => rfl
  | change c =>
      obtain ⟨f, changed⟩ := c.apply_eq_update r
      rw [RegistryCall.apply, changed, generation_update]

/-- The registry is a plain list to its users: whatever they ask of it, the list answers the
same. -/
structure RefinesList (calls : List RegistryCall) : Prop where
  at_ : ∀ file line, (of calls).snapshot.at_ file line =
    (listOf calls).filter fun b => b.location = ⟨file, line⟩
  hasBreakpointsIn : ∀ file, (of calls).snapshot.hasBreakpointsIn file = true ↔
    ∃ b ∈ listOf calls, b.location.file = file
  names : ((listOf calls).map Breakpoint.name).Nodup
  /-- What is removed is returned. -/
  removed : ∀ id file,
    ((of calls).remove id file).2 = (listOf calls).find? fun b => b.name = (id, file)
  /-- A further call leaves the other files as they are. -/
  untouched : ∀ (call : RegistryCall) (file : String), call.file? ≠ some file →
    (call.apply (of calls)).snapshot.tableOf file = (of calls).snapshot.tableOf file
  /-- A further call makes the next generation. -/
  generation : ∀ call : RegistryCall,
    (call.apply (of calls)).snapshot.generation = (of calls).snapshot.generation + 1

/-- Whatever is called, the registry has the breakpoints of the plain list. -/
theorem registry_refines_list (calls : List RegistryCall) : RefinesList calls where
  at_ := (lists_of calls).at_
  hasBreakpointsIn := (lists_of calls).hasBreakpointsIn_iff
  names := (lists_of calls).names
  removed := (lists_of calls).find?_eq
  untouched := fun _ _ => tableOf_apply (lists_of calls)
  generation := generation_apply (of calls)

end BreakpointRegistry

end RemoteDebugger
