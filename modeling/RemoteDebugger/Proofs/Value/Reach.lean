import Mathlib.Data.Set.Card
import Mathlib.Logic.Relation
import RemoteDebugger.Value.Render

/-!
# What is in a value

The parts of a container are the elements of a list, tuple or set and the keys and values of a
dictionary. Objects and foreign values have no parts: neither comparing nor writing a value looks
into them. Going from parts to parts of parts reaches only values that some container in the heap
holds, so even a cyclic value has finitely many containers in it.
-/

namespace RemoteDebugger

namespace Value

/-- The values that a container holds, those of a dictionary as key, value, key, value. -/
def Container.parts (h : Heap) : Container → List Value
  | .list r => h.lists.get r
  | .tuple r => h.tuples.get r
  | .set r => h.sets.get r
  | .dict r => (h.dicts.get r).flatMap fun e => [e.1, e.2]

def container? : Value → Option Container
  | .list r => some (.list r)
  | .tuple r => some (.tuple r)
  | .set r => some (.set r)
  | .dict r => some (.dict r)
  | _ => none

def parts (h : Heap) (v : Value) : List Value :=
  match v.container? with
  | some c => c.parts h
  | none => []

theorem parts_of_container {h : Heap} {v : Value} {c : Container} (is : v.container? = some c) :
    v.parts h = c.parts h := by
  rw [parts, is]

theorem container?_eq_some_iff {v : Value} {c : Container} :
    v.container? = some c ↔ v.shape = .container c := by
  cases v <;> simp [container?, shape]

theorem mem_parts_of_entry {h : Heap} {r : Ref} {e : Value × Value} (entry : e ∈ h.dicts.get r) :
    e.1 ∈ (Container.dict r).parts h ∧ e.2 ∈ (Container.dict r).parts h :=
  ⟨List.mem_flatMap.mpr ⟨e, entry, by simp⟩, List.mem_flatMap.mpr ⟨e, entry, by simp⟩⟩

/-- Going from values to their parts leads from the first value to the second. -/
def Reaches (h : Heap) : Value → Value → Prop := Relation.ReflTransGen fun v w => w ∈ v.parts h

/-- The containers in a value, the value itself among them if it is one. -/
def containersIn (h : Heap) (v : Value) : Set Container :=
  {c | ∃ w, Reaches h v w ∧ w.container? = some c}

section

variable {h : Heap} {v w x : Value}

theorem Reaches.refl (h : Heap) (v : Value) : Reaches h v v := Relation.ReflTransGen.refl

theorem Reaches.step (reach : Reaches h v w) (part : x ∈ w.parts h) : Reaches h v x :=
  Relation.ReflTransGen.tail reach part

theorem Reaches.of_part (part : w ∈ v.parts h) (reach : Reaches h w x) : Reaches h v x :=
  Relation.ReflTransGen.head part reach

/-- A collection that has the parts of all its members is never left. -/
theorem Reaches.mem_of_closed {P : Value → Prop} (closed : ∀ u, P u → ∀ x ∈ u.parts h, P x)
    (start : P v) (reach : Reaches h v w) : P w := by
  induction reach with
  | refl => exact start
  | tail _ part ih => exact closed _ ih _ part

end

/-- What some container of a heap holds. There are finitely many such values, reachable or not. -/
def heldIn (h : Heap) : List Value :=
  (h.lists.cells.toList ++ h.tuples.cells.toList ++ h.sets.cells.toList).flatten ++
    h.dicts.cells.toList.flatten.flatMap fun e => [e.1, e.2]

/-- A content that is not empty is that of a cell. Outside the store every content is. -/
theorem mem_cells_of_mem_get {α : Type} {s : Store (List α)} {r : Ref} {x : α}
    (member : x ∈ s.get r) :
    s.get r ∈ s.cells.toList := by
  rw [Store.get, Array.getD_eq_getD_getElem?] at *
  cases found : s.cells[r]? with
  | none =>
      rw [found] at member
      cases member
  | some content =>
      rw [found] at member
      exact Array.mem_toList_iff.mpr (Array.mem_of_getElem? found)

/-- The parts of a value are held in the heap. -/
theorem mem_heldIn_of_mem_parts {h : Heap} {v x : Value} (part : x ∈ v.parts h) : x ∈ heldIn h := by
  have inSequence {cell : List Value} (member : x ∈ cell)
      (stored : cell ∈ h.lists.cells.toList ++ h.tuples.cells.toList ++ h.sets.cells.toList) :
      x ∈ heldIn h :=
    List.mem_append_left _ (List.mem_flatten_of_mem stored member)
  cases v with
  | list r =>
      exact inSequence part
        (List.mem_append_left _ (List.mem_append_left _ (mem_cells_of_mem_get part)))
  | tuple r =>
      exact inSequence part
        (List.mem_append_left _ (List.mem_append_right _ (mem_cells_of_mem_get part)))
  | set r => exact inSequence part (List.mem_append_right _ (mem_cells_of_mem_get part))
  | dict r =>
      obtain ⟨e, entry, member⟩ := List.mem_flatMap.mp part
      have stored := List.mem_flatten_of_mem (mem_cells_of_mem_get entry) entry
      exact List.mem_append_right _ (List.mem_flatMap.mpr ⟨e, stored, member⟩)
  | _ => cases part

/-- A value reaches itself and what the heap holds, so there are finitely many values to
consider. -/
theorem Reaches.eq_or_held {h : Heap} {v w : Value} (reach : Reaches h v w) :
    w = v ∨ w ∈ heldIn h := by
  cases reach with
  | refl => exact .inl rfl
  | tail _ part => exact .inr (mem_heldIn_of_mem_parts part)

/-- Every value has finitely many containers in it, a cyclic one too. -/
theorem finite_containersIn (h : Heap) (v : Value) : (containersIn h v).Finite := by
  refine Set.Finite.subset (List.finite_toSet ((v :: heldIn h).filterMap container?)) ?_
  rintro c ⟨w, reach, is⟩
  exact List.mem_filterMap.mpr ⟨w, List.mem_cons.mpr reach.eq_or_held, is⟩

end Value

end RemoteDebugger
