import RemoteDebugger.Proofs.Text.Numeral
import RemoteDebugger.Proofs.Value.Bindings
import RemoteDebugger.Value.Resolver

/-!
# Addressing listed children

The built-in resolvers find a child by the name under which they list it. The children of a sequence
or a set are named by their positions and those of an object by its attributes, so each of them has
a name of its own. The children of a dictionary are named by the texts of their keys, and different
keys may have one text: it is cut, it stops at a nesting level, and it shows nothing but the type of
an object. Then only the first child of this name can be addressed.
-/

namespace RemoteDebugger

/-- A property of the contents of all cells, and of no content, is one of what is at any
reference. -/
theorem Store.forall_get {α : Type} [Inhabited α] {P : α → Prop} {s : Store α} (none : P default)
    (cells : ∀ content ∈ s.cells.toList, P content) (r : Ref) : P (s.get r) := by
  rw [get, Array.getD_eq_getD_getElem?]
  cases found : s.cells[r]? with
  | none => exact none
  | some content => exact cells content (Array.mem_toList_iff.mpr (Array.mem_of_getElem? found))

/-- What every heap of a program has: positions in sequences and sets that a machine word can hold,
and objects with different names for their attributes. -/
structure Heap.IsOrdinary (h : Heap) : Prop where
  lists : ∀ r, (h.lists.get r).length ≤ Text.maxUInt64
  tuples : ∀ r, (h.tuples.get r).length ≤ Text.maxUInt64
  sets : ∀ r, (h.sets.get r).length ≤ Text.maxUInt64
  attributes : ∀ r, ((h.objects.get r).map Prod.fst).Nodup

namespace Resolver

section

variable {items : List Value} {v x : Value} {i : Nat} {name : String}

/-- A number is read back from its digits, up to the limit of the type it is read as. -/
theorem unsigned?_toString {limit n : Nat} (small : n ≤ limit) :
    Text.unsigned? limit (toString n).toList = some n := by
  have digits : (toString n).toList = Nat.toDigits 10 n := Nat.toList_repr
  rw [digits]
  exact Text.unsigned?_eq_some_iff.mpr (.plain (Text.isNumeral_toDigits n) small)

theorem toString_injective {m n : Nat} (same : toString m = toString n) : m = n := by
  have read := Text.digits?_toString m
  rw [same, Text.digits?_toString] at read
  exact (Option.some.inj read).symm

/-- No index is taken for the child that tells the length. -/
theorem toString_ne_lengthChild (n : Nat) : toString n ≠ lengthChild := by
  intro same
  have read := unsigned?_toString (Nat.le_refl n)
  rw [same] at read
  have none : Text.unsigned? n lengthChild.toList = none := rfl
  rw [none] at read
  cases read

/-- The children of a sequence are named by their indices in order, and the last one by its
length. -/
theorem map_fst_indexedChildren (items : List Value) :
    (indexedChildren items).map Prod.fst = (List.range items.length).map toString ++
    [lengthChild] := by
  rw [indexedChildren, List.map_append, List.map_map]
  congr 1
  rw [List.range_eq_range', ← List.zipIdx_map_snd 0 items, List.map_map]
  rfl

/-- The children of a sequence have distinct names, whatever the items are. -/
theorem nodup_indexedChildren (items : List Value) :
    ((indexedChildren items).map Prod.fst).Nodup := by
  rw [map_fst_indexedChildren]
  refine List.Nodup.append ?_ (List.nodup_singleton _) ?_
  · exact List.Nodup.map (fun m n same => toString_injective same) List.nodup_range
  · intro name position length
    obtain ⟨n, -, rfl⟩ := List.mem_map.mp position
    exact toString_ne_lengthChild n (List.mem_singleton.mp length)

/-- Every child that a sequence lists is found again by its name. The sequence must not be longer
than a machine integer can count. -/
theorem indexedChild_of_listed (fits : items.length ≤ Text.maxUInt64)
    (listed : (indexedChildren items)[i]? = some (name, x)) :
    indexedChild v items name = .ok x := by
  rw [indexedChildren, List.getElem?_append] at listed
  split at listed
  next inside =>
    rw [List.getElem?_map, List.getElem?_zipIdx] at listed
    rw [List.length_map, List.length_zipIdx] at inside
    rw [List.getElem?_eq_getElem inside] at listed
    obtain ⟨rfl, rfl⟩ := Prod.mk.inj (Option.some.inj listed)
    rw [Nat.zero_add, indexedChild, if_neg (toString_ne_lengthChild i),
      unsigned?_toString (Nat.le_trans (Nat.le_of_lt inside) fits), Option.bind_some,
      List.getElem?_eq_getElem inside]
  next outside =>
    obtain ⟨rfl, rfl⟩ := Prod.mk.inj (List.mem_singleton.mp (List.mem_of_getElem? listed))
    rw [indexedChild, if_pos rfl]

end

/-- A resolver lists some children of a value and finds those that are the first of their names. -/
structure Finds (r : Resolver) (h : Heap) (v : Value) (children : Bindings) : Prop where
  lists : r.children h v = .ok children
  finds : ∀ i name x, children.FirstAt i name x → r.resolve h v name = .ok x

section

variable {h : Heap} {v : Value} {items : List Value}

/-- A resolver by indices finds all that it lists, for each kind of sequence it is used for. -/
theorem finds_indexed {name what : String} {itemsOf? : Heap → Value → Option (List Value)}
    (has : itemsOf? h v = some items) (fits : items.length ≤ Text.maxUInt64) :
    Finds (indexed name what itemsOf?) h v (indexedChildren items) := by
  have found : itemsOf name what itemsOf? h v = .ok items := by rw [itemsOf, has]
  constructor
  · change (itemsOf name what itemsOf? h v).map indexedChildren = _
    rw [found]
    rfl
  · intro i child x first
    change (itemsOf name what itemsOf? h v >>= fun items => indexedChild v items child) = _
    rw [found]
    exact indexedChild_of_listed fits first.1

/-- The values in a dictionary under the texts of their keys. -/
def namedEntries (h : Heap) (entries : List (Value × Value)) : Bindings :=
  entries.map fun e => (keyName h e.1, e.2)

/-- The children of a dictionary, by the texts of their keys, and its length. -/
def entryChildren (h : Heap) (entries : List (Value × Value)) : Bindings :=
  namedEntries h entries ++ [(lengthChild, Value.ofLength entries.length)]

section

variable {r : Ref} {t : TypeIdentity} {name : String} {x : Value}

/-- A dictionary finds the first entry whose key is shown by a name. -/
theorem resolve_map_of_find? (found : (entryChildren h (h.dicts.get r)).find? name = some x) :
    map.resolve h (.dict r) name = .ok x := by
  rw [entryChildren, namedEntries] at found
  simp only [map, bind, Except.bind]
  rw [found]
  rfl

/-- A dictionary without an entry of a name fails with the dictionary and the name. -/
theorem resolve_map_of_not_find? (missing : (entryChildren h (h.dicts.get r)).find? name = none) :
    map.resolve h (.dict r) name = .error (noChild (.dict r) name) := by
  rw [entryChildren, namedEntries] at missing
  simp only [map, bind, Except.bind]
  rw [missing]
  rfl

theorem resolve_object_of_find? (found : (h.objects.get r).find? name = some x) :
    object.resolve h (.object t r) name = .ok x := by
  simp only [object, found]

theorem resolve_object_of_not_find? (missing : (h.objects.get r).find? name = none) :
    object.resolve h (.object t r) name = .error (noChild (.object t r) name) := by
  simp only [object, missing]

end

/-- In a dictionary, a name finds the first of the entries that are listed under it. Entries behind
it with the same name are not reached. -/
theorem finds_map (h : Heap) (r : Ref) :
    Finds map h (.dict r) (entryChildren h (h.dicts.get r)) := by
  refine ⟨rfl, ?_⟩
  intro i name x first
  exact resolve_map_of_find? (Bindings.find?_eq_some_iff.mpr ⟨i, first⟩)

/-- An object finds its attributes by their names. -/
theorem finds_object (h : Heap) (t : TypeIdentity) (r : Ref) :
    Finds object h (.object t r) (h.objects.get r) := by
  refine ⟨rfl, ?_⟩
  intro i name x first
  exact resolve_object_of_find? (Bindings.find?_eq_some_iff.mpr ⟨i, first⟩)

/-- Every built-in resolver finds the first child of each name, and only the names of the children
of a dictionary can be alike. -/
theorem exists_finds (ordinary : h.IsOrdinary) {e : Entry} (builtin : e ∈ Registry.builtin.entries)
    (handles : e.handles v = true) :
    ∃ children, Finds e.resolver h v children ∧
      ((∀ d, v ≠ .dict d) → (children.map Prod.fst).Nodup) := by
  simp only [Registry.builtin, List.mem_cons, List.not_mem_nil, or_false] at builtin
  obtain rfl | rfl | rfl | rfl := builtin
  · cases v with
    | list r => exact ⟨_, finds_indexed rfl (ordinary.lists r), fun _ => nodup_indexedChildren _⟩
    | tuple r => exact ⟨_, finds_indexed rfl (ordinary.tuples r), fun _ => nodup_indexedChildren _⟩
    | _ => cases handles
  · cases v with
    | dict r => exact ⟨_, finds_map h r, fun other => absurd rfl (other r)⟩
    | _ => cases handles
  · cases v with
    | set r => exact ⟨_, finds_indexed rfl (ordinary.sets r), fun _ => nodup_indexedChildren _⟩
    | _ => cases handles
  · cases v with
    | object t r => exact ⟨_, finds_object h t r, fun _ => ordinary.attributes r⟩
    | _ => cases handles

end

/-- How the listed children of a value are addressed by their names. -/
structure Addresses (r : Resolver) (h : Heap) (v : Value) (children : Bindings) : Prop where
  lists : r.children h v = .ok children
  /-- Every name leads to a child: the first one that is listed under it. -/
  first : ∀ (i : Nat) (name : String) (x : Value), children[i]? = some (name, x) →
    ∃ j ≤ i, ∃ y, children.FirstAt j name y ∧ r.resolve h v name = .ok y
  /-- A child is addressed if no earlier one has its name. -/
  itself : ∀ i name x, children.FirstAt i name x → r.resolve h v name = .ok x
  /-- Every child of a list, tuple, set or object is addressed. -/
  always : (∀ d, v ≠ .dict d) → ∀ (i : Nat) (name : String) (x : Value),
    children[i]? = some (name, x) → r.resolve h v name = .ok x

/-- Every name under which a child is listed addresses the first child of this name. It is the
listed child itself in all containers but dictionaries, and in these if no earlier child has its
name. -/
theorem listed_children_are_addressed {h : Heap} {e : Entry} {v : Value} (ordinary : h.IsOrdinary)
    (builtin : e ∈ Registry.builtin.entries) (handles : e.handles v = true) :
    ∃ children, Addresses e.resolver h v children := by
  obtain ⟨children, found, distinct⟩ := exists_finds ordinary builtin handles
  refine ⟨children, found.lists, ?_, found.finds, ?_⟩
  · intro i name x listed
    obtain ⟨j, le, y, first⟩ := Bindings.exists_firstAt listed
    exact ⟨j, le, y, first, found.finds j name y first⟩
  · intro other i name x listed
    exact found.finds i name x (Bindings.firstAt_of_nodup (distinct other) listed)

/-- A type whose objects are keys of a dictionary. -/
def user : TypeIdentity := ⟨some "app", "User"⟩

/-- A dictionary with two objects and a text as keys. -/
def visits : Heap where
  objects := ⟨#[[("id", .int 7)], [("id", .int 8)]]⟩
  dicts := ⟨#[[(.object user 0, .int 1), (.object user 1, .int 2), (.str "k", .int 3)]]⟩

/-- The heap of the example meets the conditions on lengths and names. -/
theorem visits_isOrdinary : visits.IsOrdinary where
  lists := Store.forall_get (P := fun (items : List Value) => items.length ≤ Text.maxUInt64)
    (by decide) (by decide)
  tuples := Store.forall_get (P := fun (items : List Value) => items.length ≤ Text.maxUInt64)
    (by decide) (by decide)
  sets := Store.forall_get (P := fun (items : List Value) => items.length ≤ Text.maxUInt64)
    (by decide) (by decide)
  attributes := Store.forall_get (P := fun (vars : Bindings) => (vars.map Prod.fst).Nodup)
    (by decide) (by decide)

/-- The value under the text, behind the two objects, is addressed. -/
theorem visits_are_addressed : map.resolve visits (.dict 0) "'k'" = .ok (.int 3) := by
  have dictionary : Registry.builtin.entries[1] ∈ Registry.builtin.entries := List.getElem_mem _
  obtain ⟨children, addresses⟩ :=
    listed_children_are_addressed (v := .dict 0) visits_isOrdinary dictionary rfl
  obtain rfl := Except.ok.inj (addresses.lists.symm.trans rfl)
  exact addresses.itself 2 "'k'" (.int 3) (by decide)

/-- The value under the second object is listed, but its name leads to the value under the first
one. -/
theorem second_object_key_is_hidden :
    ∃ children, map.children visits (.dict 0) = .ok children ∧
      children[1]? = some ("<app.User object>", .int 2) ∧
      map.resolve visits (.dict 0) "<app.User object>" = .ok (.int 1) :=
  ⟨_, rfl, by decide, rfl⟩

end Resolver

end RemoteDebugger
