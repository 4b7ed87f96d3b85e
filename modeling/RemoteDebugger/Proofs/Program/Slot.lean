import RemoteDebugger.Proofs.Program.Closed
import RemoteDebugger.Proofs.Value.Children
import RemoteDebugger.Proofs.Value.Rendering
import RemoteDebugger.Session.Command

/-!
# Slots

What can be assigned to is a slot: an element of a list, the value of an entry of a dictionary, or
an attribute of an object. The writer finds a slot by its position, by the text of a key or by its
name, and the resolvers find children in ways of their own. Both mean the same slot. So a value that
has been written is found under its name, unless the write has changed the texts of the keys of the
dictionary; this takes a key that holds the dictionary itself.
-/

namespace RemoteDebugger

namespace Store

section

variable {α : Type} [Inhabited α] {s : Store α} {r : Ref} {content : α}

/-- Writing a cell of a store is seen under its reference only. A reference outside the store is not
written at all. -/
@[simp] theorem get_set (inside : r < s.cells.size) (r' : Ref) :
    (s.set r content).get r' = if r' = r then content else s.get r' := by
  by_cases same : r' = r
  · subst same
    rw [if_pos rfl, get_set_eq s content inside]
  · rw [if_neg same, get_set_ne s content (Ne.symm same)]

omit [Inhabited α] in
@[simp] theorem size_set : (s.set r content).cells.size = s.cells.size := Array.size_setIfInBounds

/-- What holds between every content and itself, and between a content and the one that replaces it,
holds between the contents of all cells before and after. -/
theorem related_set {P : α → α → Prop} (inside : r < s.cells.size) (same : ∀ c, P c c)
    (here : P (s.get r) content) (r' : Ref) : P (s.get r') ((s.set r content).get r') := by
  rw [get_set inside]
  split
  next eq => exact eq ▸ here
  next => exact same _

end

/-- A reference with some content is inside the store. -/
theorem lt_size_of_mem {α : Type} {s : Store (List α)} {r : Ref} {x : α} (member : x ∈ s.get r) :
    r < s.cells.size := by
  by_contra outside
  rw [get, Array.getD_eq_getD_getElem?, Array.getElem?_eq_none (Nat.not_lt.mp outside)] at member
  cases member

end Store

/-- A place for a value in a container that can be changed. -/
inductive Slot where
  | item (list : Ref) (i : Nat)
  | entry (dict : Ref) (i : Nat)
  | attr (object : Ref) (name : String)
  deriving DecidableEq, Repr

namespace Heap

def read (h : Heap) : Slot → Option Value
  | .item r i => (h.lists.get r)[i]?
  | .entry r i => (h.dicts.get r)[i]?.map Prod.snd
  | .attr r name => (h.objects.get r).find? name

/-- The slot of a container that a name stands for, told apart from how an assignment looks for
it. -/
inductive Denotes (h : Heap) (name : String) : Value → Slot → Prop
  | item {r : Ref} {i : Nat} (numeral : Text.unsigned? Text.maxUInt64 name.toList = some i)
      (inside : i < (h.lists.get r).length) : Denotes h name (.list r) (.item r i)
  /-- The first entry whose key has this text. -/
  | entry {r : Ref} {i : Nat} {v : Value}
      (first : (Resolver.namedEntries h (h.dicts.get r)).FirstAt i name v) :
      Denotes h name (.dict r) (.entry r i)
  | attr (t : TypeIdentity) (r : Ref) : Denotes h name (.object t r) (.attr r name)

/-- A name denotes at most one slot of a container. -/
theorem Denotes.unique {h : Heap} {name : String} {parent : Value} {slot other : Slot}
    (denotes : h.Denotes name parent slot) (also : h.Denotes name parent other) : other = slot := by
  cases denotes with
  | item numeral =>
      cases also with
      | item numeral' => rw [Option.some.inj (numeral'.symm.trans numeral)]
  | entry first =>
      cases also with
      | entry first' => rw [(first'.unique first).1]
  | attr =>
      cases also
      rfl

/-- The names that an object gets when a slot is written. -/
def newNames (h : Heap) (slot : Slot) (r : Ref) : List String :=
  match slot with
  | .attr r' name => if r = r' ∧ (h.objects.get r).find? name = none then [name] else []
  | _ => []

/-- The second heap is the first one after a value has been written into a slot. -/
structure Writes (h : Heap) (slot : Slot) (v : Value) (h' : Heap) : Prop where
  written : h'.read slot = some v
  others : ∀ other ≠ slot, h'.read other = h.read other
  lengths : ∀ r, (h'.lists.get r).length = (h.lists.get r).length
  keys : ∀ r, (h'.dicts.get r).map Prod.fst = (h.dicts.get r).map Prod.fst
  names : ∀ r, (h'.objects.get r).map Prod.fst = (h.objects.get r).map Prod.fst ++ h.newNames slot r
  tuples : h'.tuples = h.tuples
  sets : h'.sets = h.sets
  containers : ∀ w, h'.Holds w ↔ h.Holds w

section

variable {h h' : Heap} {name : String} {parent v w : Value} {slot : Slot} {r : Ref} {i : Nat}

/-- Replacing an item of a list writes its slot, and nothing else in the heap. -/
theorem writes_item (inside : i < (h.lists.get r).length) :
    h.Writes (.item r i) v { h with lists := h.lists.set r ((h.lists.get r).set i v) } := by
  have here : r < h.lists.cells.size := Store.lt_size_of_mem (List.getElem_mem inside)
  constructor
  case written =>
    rw [read, Store.get_set_eq _ _ here, List.getElem?_set_self inside]
  case others =>
    intro other different
    cases other with
    | item r' j =>
        rw [read, read, Store.get_set here]
        split
        next same =>
          subst same
          refine List.getElem?_set_ne ?_
          rintro rfl
          exact different rfl
        next => rfl
    | _ => rfl
  case lengths =>
    exact Store.related_set (P := fun c c' => c'.length = c.length) here
      (fun _ => rfl) List.length_set
  case containers =>
    intro w
    cases w with
    | list r' => rw [Holds, Holds, Store.size_set]
    | _ => rfl
  case keys => exact fun _ => rfl
  case names => exact fun _ => (List.append_nil _).symm
  case tuples => rfl
  case sets => rfl

/-- Replacing the value of an entry leaves the keys as they are. -/
@[simp] theorem map_fst_modify (entries : List (Value × Value)) (i : Nat) (v : Value) :
    (entries.modify i fun e => (e.1, v)).map Prod.fst = entries.map Prod.fst := by
  refine List.ext_getElem? fun j => ?_
  rw [List.getElem?_map, List.getElem?_map, List.getElem?_modify]
  cases entries[j]? with
  | none => rfl
  | some e =>
      simp only [Option.map_eq_map, Option.map_some]
      split <;> rfl

/-- Replacing the value of an entry writes its slot. The keys stay, and so do all other entries. -/
theorem writes_entry (inside : i < (h.dicts.get r).length) :
    h.Writes (.entry r i) v
      { h with dicts := h.dicts.set r ((h.dicts.get r).modify i fun e => (e.1, v)) } := by
  have here : r < h.dicts.cells.size := Store.lt_size_of_mem (List.getElem_mem inside)
  constructor
  case written =>
    rw [read, Store.get_set_eq _ _ here, List.getElem?_modify, List.getElem?_eq_getElem inside]
    simp
  case others =>
    intro other different
    cases other with
    | entry r' j =>
        rw [read, read, Store.get_set here]
        split
        next same =>
          subst same
          have apart : i ≠ j := fun eq => different (congrArg _ eq.symm)
          rw [List.getElem?_modify]
          simp [apart]
        next => rfl
    | _ => rfl
  case keys =>
    exact Store.related_set (P := fun c c' => c'.map Prod.fst = c.map Prod.fst) here (fun _ => rfl)
      (map_fst_modify _ _ _)
  case containers =>
    intro w
    cases w with
    | dict r' => rw [Holds, Holds, Store.size_set]
    | _ => rfl
  case lengths => exact fun _ => rfl
  case names => exact fun _ => (List.append_nil _).symm
  case tuples => rfl
  case sets => rfl

/-- Inserting an attribute writes its slot, whether the object has had it before or not. -/
theorem writes_attr (here : r < h.objects.cells.size) :
    h.Writes (.attr r name) v
      { h with objects := h.objects.set r (Bindings.insert name v (h.objects.get r)) } := by
  have assigns := Bindings.assigns_insert (h.objects.get r) name v
  constructor
  case written => rw [read, Store.get_set_eq _ _ here, assigns.found]
  case others =>
    intro other different
    cases other with
    | attr r' n =>
        rw [read, read, Store.get_set here]
        split
        next same =>
          subst same
          exact assigns.others n fun eq => different (congrArg _ eq)
        next => rfl
    | _ => rfl
  case names =>
    intro r'
    change ((h.objects.set r _).get r').map Prod.fst = _ ++ if _ then [name] else []
    rw [Store.get_set here]
    split
    next same =>
      subst same
      rw [assigns.names]
      simp
    next different => simp [different]
  case containers =>
    intro w
    cases w with
    | object t r' => rw [Holds, Holds, Store.size_set]
    | _ => rfl
  case lengths => exact fun _ => rfl
  case keys => exact fun _ => rfl
  case tuples => rfl
  case sets => rfl

/-- The failure of an assignment to a name that stands for no slot. -/
def assignmentFault (parent : Value) (name : String) : Error :=
  match parent with
  | .list _ | .dict _ => .attributeNotFound parent.typeText name
  | _ => .unsupported "assignment into immutable value"

/-- The entry that an assignment finds by the name of its key is the first one listed under this
name. -/
theorem findIdx?_keyName_iff {entries : List (Value × Value)} :
    (entries.findIdx? fun e => Resolver.keyName h e.1 = name) = some i ↔
      ∃ v, (Resolver.namedEntries h entries).FirstAt i name v := by
  rw [List.findIdx?_eq_some_iff_getElem]
  have named (j : Nat) : (Resolver.namedEntries h entries)[j]? =
      entries[j]?.map fun e => (Resolver.keyName h e.1, e.2) := List.getElem?_map
  constructor
  · rintro ⟨inside, here, before⟩
    refine ⟨entries[i].2, ?_, ?_⟩
    · rw [named, List.getElem?_eq_getElem inside, Option.map_some, of_decide_eq_true here]
    · intro j less same
      rw [named, List.getElem?_eq_getElem (Nat.lt_trans less inside)] at same
      exact before j less (decide_eq_true (Option.some.inj same))
  · rintro ⟨v, here, before⟩
    rw [named] at here
    obtain ⟨e, found, same⟩ := Option.map_eq_some_iff.mp here
    obtain ⟨inside, rfl⟩ := List.getElem?_eq_some_iff.mp found
    refine ⟨inside, decide_eq_true (Prod.mk.inj same).1, ?_⟩
    intro j less other
    refine before j less ?_
    rw [named, List.getElem?_eq_getElem (Nat.lt_trans less inside)]
    exact congrArg some (of_decide_eq_true other)

/-- A name that stands for a slot is assigned to by writing this slot. -/
theorem assignChild_of_denotes (held : h.Holds parent) (denotes : h.Denotes name parent slot)
    (v : Value) :
    ∃ h', h.assignChild parent name v = .ok h' ∧ h.Writes slot v h' := by
  cases denotes with
  | item numeral inside =>
      refine ⟨_, ?_, writes_item inside⟩
      have chosen : (some _ : Option Nat).filter (fun i => decide (i < (h.lists.get _).length)) =
          _ :=
        Option.filter_some_pos (decide_eq_true inside)
      rw [assignChild, numeral, chosen]
  | @entry r i w first =>
      have found := findIdx?_keyName_iff.mpr ⟨w, first⟩
      obtain ⟨inside, -⟩ := List.findIdx?_eq_some_iff_getElem.mp found
      refine ⟨_, ?_, writes_entry inside⟩
      rw [assignChild, found]
  | attr t r => exact ⟨_, rfl, writes_attr held⟩

/-- A name that stands for no slot cannot be assigned to. -/
theorem assignChild_of_not_denotes (missing : ∀ slot, ¬ h.Denotes name parent slot) (v : Value) :
    h.assignChild parent name v = .error (assignmentFault parent name) := by
  cases parent with
  | list r =>
      rw [assignChild]
      split
      next i found =>
        obtain ⟨numeral, inside⟩ := Option.filter_eq_some_iff.mp found
        exact absurd (.item numeral (of_decide_eq_true inside)) (missing _)
      next => rfl
  | dict r =>
      rw [assignChild]
      split
      next i found =>
        obtain ⟨w, first⟩ := findIdx?_keyName_iff.mp found
        exact absurd (.entry first) (missing _)
      next => rfl
  | object t r => exact absurd (.attr t r) (missing _)
  | _ => rfl

/-- The built-in resolvers find the value of the slot that a name stands for. -/
theorem resolve_of_denotes (denotes : h.Denotes name parent slot) (found : h.read slot = some v) :
    (Registry.builtin.find parent).resolve h parent name = .ok v := by
  cases denotes with
  | @item r i numeral inside =>
      change Resolver.indexedChild (.list r) (h.lists.get r) name = _
      have other : name ≠ Resolver.lengthChild := by
        rintro rfl
        cases numeral
      rw [Resolver.indexedChild, if_neg other, numeral, Option.bind_some]
      rw [read] at found
      rw [found]
  | @entry r i w first =>
      have same : w = v := by
        obtain ⟨e, entry, named⟩ := Option.map_eq_some_iff.mp (List.getElem?_map.symm.trans first.1)
        rw [read, entry] at found
        exact (Prod.mk.inj named).2.symm.trans (Option.some.inj found)
      exact (Resolver.finds_map h r).finds i name v (same ▸ first.append _)
  | attr t r =>
      obtain ⟨i, first⟩ := Bindings.find?_eq_some_iff.mp found
      exact (Resolver.finds_object h t r).finds i name v first

/-- The keys of a dictionary have the same texts in both heaps. -/
def KeepsNames (h h' : Heap) (parent : Value) : Prop :=
  ∀ r, parent = .dict r → ∀ e ∈ h.dicts.get r, Resolver.keyName h' e.1 = Resolver.keyName h e.1

/-- A name stands for the same slot after this slot has been written. -/
theorem Denotes.after (denotes : h.Denotes name parent slot) (writes : h.Writes slot v h')
    (keeps : h.KeepsNames h' parent) : h'.Denotes name parent slot := by
  cases denotes with
  | item numeral inside => exact .item numeral ((writes.lengths _).symm ▸ inside)
  | @entry r i w first =>
      -- the keys are the same and so are their texts, hence the first entry with this text is the
      -- same
      have names : (Resolver.namedEntries h' (h'.dicts.get r)).map Prod.fst =
          (Resolver.namedEntries h (h.dicts.get r)).map Prod.fst := by
        rw [Resolver.namedEntries, Resolver.namedEntries, List.map_map, List.map_map]
        change (h'.dicts.get r).map (Resolver.keyName h' ∘ Prod.fst) =
          (h.dicts.get r).map fun e => Resolver.keyName h e.1
        rw [← List.map_map, writes.keys, List.map_map]
        exact List.map_congr_left (keeps r rfl)
      obtain ⟨w', first'⟩ := first.of_names names
      exact .entry first'
  | attr t r => exact .attr t r

/-- A value that has been written under a name is found under this name. -/
theorem Writes.resolve (writes : h.Writes slot v h') (denotes : h.Denotes name parent slot)
    (keeps : h.KeepsNames h' parent) :
    (Registry.builtin.find parent).resolve h' parent name = .ok v :=
  resolve_of_denotes (denotes.after writes keeps) writes.written

/-- Writing a slot of a dictionary leaves the parts of all other containers. -/
theorem Writes.parts_eq (writes : h.Writes (.entry r i) v h') {c : Value.Container}
    (other : c ≠ .dict r) :
    c.parts h' = c.parts h := by
  cases c with
  | list r' => exact List.ext_getElem? fun j => writes.others (.item r' j) nofun
  | tuple r' => rw [Value.Container.parts, Value.Container.parts, writes.tuples]
  | set r' => rw [Value.Container.parts, Value.Container.parts, writes.sets]
  | dict r' =>
      have apart : r' ≠ r := fun eq => other (congrArg _ eq)
      have values : (h'.dicts.get r').map Prod.snd = (h.dicts.get r').map Prod.snd := by
        refine List.ext_getElem? fun j => ?_
        rw [List.getElem?_map, List.getElem?_map]
        exact writes.others (.entry r' j) fun eq => apart (Slot.entry.inj eq).1
      have entries : h'.dicts.get r' = h.dicts.get r' := by
        rw [List.zip_of_prod (writes.keys r') values]
        exact (List.zip_of_prod rfl rfl).symm
      rw [Value.Container.parts, Value.Container.parts, entries]

/-- The keys of a dictionary keep their texts if none of them holds the dictionary. -/
theorem Writes.keepsNames (writes : h.Writes slot v h') (denotes : h.Denotes name parent slot)
    (apart : ∀ r, parent = .dict r → ∀ e ∈ h.dicts.get r, ¬ Value.Reaches h e.1 parent) :
    h.KeepsNames h' parent := by
  rintro r rfl e entry
  cases denotes with
  | entry first =>
      -- only the parts of this dictionary have changed, and the key does not hold it
      refine Value.render_congr ?_ _
      rintro c ⟨w, reach, is⟩
      refine writes.parts_eq ?_
      rintro rfl
      cases w with
      | dict r' =>
          cases is
          exact apart r rfl e entry reach
      | _ => cases is

end

end Heap

end RemoteDebugger
