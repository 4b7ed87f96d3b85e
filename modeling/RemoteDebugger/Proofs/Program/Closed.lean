import RemoteDebugger.Program.Scope
import RemoteDebugger.Proofs.Expression.Evaluation
import RemoteDebugger.Proofs.Value.Children
import RemoteDebugger.Proofs.Value.Lookup
import RemoteDebugger.Proofs.Value.Reach

/-!
# Heaps without dangling references

In a heap of a program every reference leads to a container. Resolving a path with the built-in
resolvers never leaves such a heap, and in a heap that has grown it never leaves what was there
before: a container that was there holds what it held.
-/

namespace RemoteDebugger

namespace Heap

/-- A value is no container, or a container of the heap. -/
def Holds (h : Heap) : Value → Prop
  | .list r => r < h.lists.cells.size
  | .tuple r => r < h.tuples.cells.size
  | .set r => r < h.sets.cells.size
  | .dict r => r < h.dicts.cells.size
  | .object _ r => r < h.objects.cells.size
  | _ => True

instance (h : Heap) (v : Value) : Decidable (h.Holds v) :=
  match v with
  | .list _ | .tuple _ | .set _ | .dict _ | .object _ _ => inferInstanceAs (Decidable (_ < _))
  | .null | .bool _ | .int _ | .float _ | .str _ | .bytes _ | .foreign _ _ _ => isTrue trivial

/-- Every value in a container of the heap is no container or a container of the heap. -/
structure IsClosed (h : Heap) : Prop where
  parts : ∀ v ∈ Value.heldIn h, h.Holds v
  attributes : ∀ vars ∈ h.objects.cells.toList, ∀ b ∈ vars, h.Holds b.2

end Heap

/-- The values directly in a value, the attributes of an object among them. -/
def Value.members (h : Heap) (v : Value) : List Value :=
  match v with
  | .object _ r => (h.objects.get r).map Prod.snd
  | _ => v.parts h

section

variable {h h' : Heap} {v x : Value}

/-- In a heap without dangling references, the members of a value are in the heap. -/
theorem Heap.IsClosed.holds_member (closed : h.IsClosed) (member : x ∈ v.members h) :
    h.Holds x := by
  cases v with
  | object t r =>
      obtain ⟨b, bound, rfl⟩ := List.mem_map.mp member
      exact closed.attributes _ (Value.mem_cells_of_mem_get bound) b bound
  | list r => exact closed.parts x (Value.mem_heldIn_of_mem_parts (v := .list r) member)
  | tuple r => exact closed.parts x (Value.mem_heldIn_of_mem_parts (v := .tuple r) member)
  | set r => exact closed.parts x (Value.mem_heldIn_of_mem_parts (v := .set r) member)
  | dict r => exact closed.parts x (Value.mem_heldIn_of_mem_parts (v := .dict r) member)
  | _ => cases member

/-- What a heap holds, it holds after it has grown. -/
theorem Heap.Grows.holds (grows : h.Grows h') (held : h.Holds v) : h'.Holds v := by
  cases v with
  | list r => exact Nat.lt_of_lt_of_le held grows.lists.size_le
  | tuple r => exact Nat.lt_of_lt_of_le held grows.tuples.size_le
  | set r => exact Nat.lt_of_lt_of_le held grows.sets.size_le
  | dict r => exact Nat.lt_of_lt_of_le held grows.dicts.size_le
  | object t r => exact Nat.lt_of_lt_of_le held grows.objects.size_le
  | _ => trivial

/-- The members of a value that was there are the same after the heap has grown. -/
theorem Heap.Grows.members_eq (grows : h.Grows h') (held : h.Holds v) :
    v.members h' = v.members h := by
  cases v with
  | list r => exact grows.lists.get_eq held
  | tuple r => exact grows.tuples.get_eq held
  | set r => exact grows.sets.get_eq held
  | dict r => exact congrArg (List.flatMap _) (grows.dicts.get_eq held)
  | object t r => exact congrArg (List.map _) (grows.objects.get_eq held)
  | _ => rfl

end

namespace Resolver

variable {h : Heap} {v x : Value} {name : String}

/-- What is found in a value is one of its members or a length. -/
def FindsMembers (r : Resolver) : Prop :=
  ∀ h v name x, r.resolve h v name = .ok x → x ∈ v.members h ∨ ∃ n, x = .ofLength n

/-- A child found by its index is a member of the sequence, or its length. -/
theorem findsMembers_indexed (label what : String) {itemsOf? : Heap → Value → Option (List Value)}
    (members : ∀ h v items, itemsOf? h v = some items → v.members h = items) :
    (indexed label what itemsOf?).FindsMembers := by
  intro h v name x found
  cases has : itemsOf? h v with
  | none =>
      simp only [indexed, itemsOf, has] at found
      cases found
  | some items =>
      simp only [indexed, itemsOf, has] at found
      change indexedChild v items name = .ok x at found
      rw [indexedChild] at found
      split at found
      · exact .inr ⟨_, (Except.ok.inj found).symm⟩
      · split at found
        next here =>
          obtain ⟨i, -, element⟩ := Option.bind_eq_some_iff.mp here
          rw [members h v items has, ← Except.ok.inj found]
          exact .inl (List.mem_of_getElem? element)
        next => cases found

theorem findsMembers_sequence : sequence.FindsMembers := by
  refine findsMembers_indexed _ _ ?_
  intro h v items has
  cases v <;> cases has <;> rfl

/-- A child of a set is one of its elements. -/
theorem findsMembers_set : Resolver.set.FindsMembers := by
  refine findsMembers_indexed _ _ ?_
  intro h v items has
  cases v <;> cases has
  rfl

/-- A child of a dictionary is the value of one of its entries. The key is not found this way. -/
theorem findsMembers_map : map.FindsMembers := by
  intro h v name x found
  cases v with
  | dict r =>
      cases bound : (entryChildren h (h.dicts.get r)).find? name with
      | none =>
          rw [resolve_map_of_not_find? bound] at found
          cases found
      | some y =>
          rw [resolve_map_of_find? bound] at found
          obtain rfl := Except.ok.inj found
          obtain ⟨i, first⟩ := Bindings.find?_eq_some_iff.mp bound
          obtain entry | length := List.mem_append.mp (List.mem_of_getElem? first.1)
          · obtain ⟨e, here, same⟩ := List.mem_map.mp entry
            exact .inl ((Prod.mk.inj same).2 ▸ (Value.mem_parts_of_entry here).2)
          · exact .inr ⟨_, (Prod.mk.inj (List.mem_singleton.mp length)).2⟩
  | _ => cases found

/-- A child of an object is the value of one of its attributes. -/
theorem findsMembers_object : object.FindsMembers := by
  intro h v name x found
  cases v with
  | object t r =>
      cases bound : (h.objects.get r).find? name with
      | none =>
          rw [resolve_object_of_not_find? bound] at found
          cases found
      | some y =>
          rw [resolve_object_of_find? bound] at found
          obtain rfl := Except.ok.inj found
          obtain ⟨i, first⟩ := Bindings.find?_eq_some_iff.mp bound
          exact .inl (List.mem_map_of_mem (List.mem_of_getElem? first.1))
  | _ => cases found

theorem findsMembers_scalar : scalar.FindsMembers := by
  intro h v name x found
  cases found

end Resolver

namespace Registry

/-- Whatever has been decided on, a registry with the built-in entries finds members and lengths. -/
theorem findsMembers_lookup {r : Registry} (entries : r.entries = builtin.entries) (v : Value) :
    (lookup v r).1.FindsMembers := by
  have found (position : Option Nat) : (r.at_ position).FindsMembers := by
    rw [Registry.at_]
    split
    next e chosen =>
      obtain ⟨i, -, here⟩ := Option.bind_eq_some_iff.mp chosen
      have member := List.mem_of_getElem? here
      simp only [entries, builtin, List.mem_cons, List.not_mem_nil, or_false] at member
      obtain rfl | rfl | rfl | rfl := member
      · exact Resolver.findsMembers_sequence
      · exact Resolver.findsMembers_map
      · exact Resolver.findsMembers_set
      · exact Resolver.findsMembers_object
    next => exact Resolver.findsMembers_scalar
  rw [lookup]
  split
  · exact found _
  · exact found _

end Registry

/-- Two looks are taken one after the other, in the heap and with the decisions that the first has
left. If the first fails, its decisions are kept and its heap is not. -/
theorem Inspect.run_bind {α β : Type} (look : Inspect α) (next : α → Inspect β) (h : Heap)
    (r : Registry) :
    ((look >>= next).run h).run.run r =
      match (look.run h).run.run r with
      | (.ok (a, h'), r') => ((next a).run h').run.run r'
      | (.error e, r') => (.error e, r') := by
  simp only [StateT.run_bind, ExceptT.run_bind]
  cases (look.run h).run.run r with
  | mk result r' => cases result <;> rfl

/-- With the built-in resolvers, a look leaves the heap as it is, and what it finds has a
property. -/
def Inspect.Reads {α : Type} (h : Heap) (P : α → Prop) (look : Inspect α) : Prop :=
  ∀ r a h' r', r.entries = Registry.builtin.entries → (look.run h).run.run r = (.ok (a, h'), r') →
    h' = h ∧ r'.entries = Registry.builtin.entries ∧ P a

namespace Inspect.Reads

variable {α β : Type} {h : Heap} {P : β → Prop} {Q : α → Prop}

/-- If the first look finds what it should in a heap that grows, and so does the second after it,
then both do. -/
theorem bind {look : Inspect α} {next : α → Inspect β} (first : Reads h Q look)
    (rest : ∀ a, Q a → Reads h P (next a)) : Reads h P (look >>= next) := by
  intro r b h' r' entries found
  rw [run_bind] at found
  cases looked : (look.run h).run.run r with
  | mk result middle =>
      rw [looked] at found
      cases result with
      | error e => cases found
      | ok a =>
          obtain ⟨same, entries', property⟩ := first r a.1 a.2 middle entries looked
          dsimp only at found
          rw [same] at found
          exact rest a.1 property middle b h' r' entries' found

theorem pure {b : β} (property : P b) : Reads h P (Pure.pure b : Inspect β) := by
  intro r b' h' r' entries found
  cases found
  exact ⟨rfl, entries, property⟩

theorem throw (e : Error) : Reads h P (MonadExcept.throw e : Inspect β) := by
  intro r b h' r' entries found
  cases found

end Inspect.Reads

section

variable {h h' : Heap}

/-- One step along a path looks up the resolver of the value, and this decision is kept also if
there is no such child. -/
theorem run_stepInto (v : Value) (name : String) (h : Heap) (r : Registry) :
    ((stepInto v name).run h).run.run r =
      (if (Registry.lookup v r).1.isContainer then
        ((Registry.lookup v r).1.resolve h v name).map (·, h)
      else .error (.notAContainer v.typeText), (Registry.lookup v r).2) := by
  rw [stepInto, Inspect.run_bind]
  change ((if (Registry.lookup v r).1.isContainer then _ else _ : Inspect Value).run h).run.run
    (Registry.lookup v r).2 = _
  split
  · change ((liftM ((Registry.lookup v r).1.resolve h v name) : Inspect Value).run h).run.run
      (Registry.lookup v r).2 = _
    cases (Registry.lookup v r).1.resolve h v name <;> rfl
  · rfl

/-- A step from a value of a closed heap leads to a value of this heap, after it has grown too. -/
theorem reads_stepInto (closed : h.IsClosed) (grows : h.Grows h') {v : Value} (held : h.Holds v)
    (name : String) : (stepInto v name).Reads h' h.Holds := by
  intro r x h'' r' entries found
  rw [run_stepInto] at found
  obtain ⟨result, rfl⟩ := Prod.mk.inj found
  split at result
  · cases resolved : (Registry.lookup v r).1.resolve h' v name with
    | error e =>
        rw [resolved] at result
        cases result
    | ok y =>
        rw [resolved] at result
        cases result
        refine ⟨rfl, (Registry.entries_lookup v r).trans entries, ?_⟩
        obtain member | ⟨n, rfl⟩ := Registry.findsMembers_lookup entries v _ _ _ _ resolved
        -- a member after the heap has grown was a member before
        · rw [grows.members_eq held] at member
          exact closed.holds_member member
        · trivial
  · cases result

/-- Following a path from a value of the heap leads to a value of the heap, whatever the path is. -/
theorem reads_resolvePath (closed : h.IsClosed) (grows : h.Grows h') {root : Value}
    (held : h.Holds root) (path : List String) : (resolvePath root path).Reads h' h.Holds := by
  induction path generalizing root with
  | nil => exact .pure held
  | cons name rest ih =>
      rw [resolvePath, List.foldlM_cons]
      exact .bind (reads_stepInto closed grows held name) fun v held => ih held

/-- No reference of a program dangles, in its heap or in the locals of a frame. -/
structure Program.IsClosed (p : Program) : Prop where
  heap : p.heap.IsClosed
  locals : ∀ f ∈ p.frames.toList, ∀ b ∈ f.locals, p.heap.Holds b.2

/-- What a local is bound to is in the heap, if it is a reference at all. -/
theorem Program.IsClosed.holds_local {p : Program} (closed : p.IsClosed) {r : FrameRef}
    {name : String}
    {v : Value} (found : (p.frame r).locals.find? name = some v) : p.heap.Holds v := by
  obtain ⟨i, first⟩ := Bindings.find?_eq_some_iff.mp found
  have bound := List.mem_of_getElem? first.1
  rw [frame, Array.getD_eq_getD_getElem?] at bound
  cases here : p.frames[r]? with
  | none =>
      rw [here] at bound
      cases bound
  | some f =>
      rw [here] at bound
      exact closed.locals f (Array.mem_toList_iff.mpr (Array.mem_of_getElem? here)) (name, v) bound

/-- Looking up a local and what is in it leads to a value that the heap of the program holds. -/
theorem View.reads_resolve (w : View) (closed : w.program.IsClosed) (grows : w.program.heap.Grows h)
    {path : List String} (given : path ≠ []) :
    (w.resolve .frame path).Reads h fun found => ∃ v, found = some v ∧ w.program.heap.Holds v := by
  cases path with
  | nil => exact absurd rfl given
  | cons name rest =>
      refine .bind (Q := w.program.heap.Holds) ?_ fun root held => ?_
      · change (View.named w.here.locals name).Reads h _
        rw [View.named]
        split
        next v found => exact .pure (closed.holds_local found)
        next => exact .throw _
      · exact .bind (reads_resolvePath closed.heap grows held rest) fun v held =>
          .pure ⟨v, rfl, held⟩

end

end RemoteDebugger
