import RemoteDebugger.Source.Map

/-!
# Paths are moved by the longest directory

The rules of a source map are sorted once, by the length of the directories they move, and a path
goes by the first rule that fits it. Sorting keeps rules of one length in their order, so the rules
of the greatest length that fits are met in the order of the configuration. What is appended to the
other directory is in its own style, and a directory only ever contains a path by whole components,
since it ends in a slash.
-/

namespace RemoteDebugger

namespace Source

/-- Elements that the order of a stable sort does not tell apart keep their order. -/
theorem filter_mergeSort {α : Type} {le : α → α → Bool} {p : α → Bool}
    (trans : ∀ a b c, le a b = true → le b c = true → le a c = true)
    (total : ∀ a b, (le a b || le b a) = true)
    (alike : ∀ a b, p a = true → p b = true → le a b = true)
    (xs : List α) : (xs.mergeSort le).filter p = xs.filter p := by
  have sorted : (xs.filter p).Pairwise fun a b => le a b = true :=
    List.pairwise_filter.mpr (List.pairwise_of_forall alike)
  have inside := (List.sublist_mergeSort trans total sorted List.filter_sublist).filter p
  rw [List.filter_filter, List.filter_congr fun a _ => Bool.and_self (p a)] at inside
  have length := ((List.mergeSort_perm xs le).filter p).length_eq
  exact (inside.eq_of_length length.symm).symm

namespace Rule

theorem longer_trans (a b c : Rule) (first : decide (b.size ≤ a.size) = true)
    (second : decide (c.size ≤ b.size) = true) : decide (c.size ≤ a.size) = true := by
  rw [decide_eq_true_eq] at first second ⊢
  exact Nat.le_trans second first

theorem longer_total (a b : Rule) :
    (decide (b.size ≤ a.size) || decide (a.size ≤ b.size)) = true := by
  rw [Bool.or_eq_true, decide_eq_true_eq, decide_eq_true_eq]
  exact Nat.le_total _ _

/-- The first fitting rule after sorting is the first one of the greatest length that fits. -/
theorem find?_longestFirst {rules : List Rule} {fits : Rule → Bool} {r : Rule}
    (found : (longestFirst rules).find? fits = some r) :
    (∀ r' ∈ rules, fits r' = true → r'.size ≤ r.size) ∧
      rules.find? (fun r' => fits r' && r'.size == r.size) = some r := by
  obtain ⟨fit, before, after, split, misses⟩ := List.find?_eq_some_iff_append.mp found
  have longest (r' : Rule) (member : r' ∈ rules) (fit' : fits r' = true) : r'.size ≤ r.size := by
    have sorted := List.pairwise_mergeSort longer_trans longer_total rules
    have place : r' ∈ before ++ r :: after := split ▸ List.mem_mergeSort.mpr member
    rcases List.mem_append.mp place with early | late
    · have missed := misses r' early
      rw [fit'] at missed
      cases missed
    · rcases List.mem_cons.mp late with rfl | later
      · exact Nat.le_refl _
      · change List.Pairwise _ (longestFirst rules) at sorted
        rw [split] at sorted
        exact of_decide_eq_true
          (List.rel_of_pairwise_cons (List.pairwise_append.mp sorted).2.1 later)
  refine ⟨longest, ?_⟩
  have first : (longestFirst rules).find? (fun r' => fits r' && r'.size == r.size) = some r := by
    refine List.find?_eq_some_iff_append.mpr ⟨by simp [fit], before, after, split,
      fun r' early => ?_⟩
    have missed := misses r' early
    rw [Bool.not_eq_true'] at missed ⊢
    rw [missed, Bool.false_and]
  rw [← List.head?_filter] at first ⊢
  rw [← first, longestFirst, filter_mergeSort longer_trans longer_total]
  intro a b sizeA sizeB
  rw [Bool.and_eq_true, beq_iff_eq] at sizeA sizeB
  exact decide_eq_true (Nat.le_of_eq (sizeB.2.trans sizeA.2.symm))

end Rule

/-- Of two directories that contain a path, the one with more bytes has more characters. -/
theorem Rule.size_le_iff {r r' : Rule} {cs : List Char} (within : r.source <+: cs)
    (within' : r'.source <+: cs) : r.size ≤ r'.size ↔ r.source.length ≤ r'.source.length := by
  have grows {a b : Rule} (inside : a.source <+: b.source) :
      a.size ≤ b.size ∧ (b.size ≤ a.size → b.source = a.source) := by
    obtain ⟨more, whole⟩ := inside
    have size : b.size = a.size + (String.ofList more).utf8ByteSize := by
      rw [Rule.size, Rule.size, ← whole, String.ofList_append, String.utf8ByteSize_append]
    refine ⟨by omega, fun same => ?_⟩
    have nothing : (String.ofList more).utf8ByteSize = 0 := by omega
    rw [String.utf8ByteSize_eq_zero_iff] at nothing
    have empty : more = [] := String.ofList_eq_empty_iff.mp nothing
    rw [← whole, empty, List.append_nil]
  rcases List.prefix_or_prefix_of_prefix within within' with inside | inside
  · exact iff_of_true (grows inside).1 inside.length_le
  · constructor
    · intro small
      exact Nat.le_of_eq (congrArg List.length ((grows inside).2 small))
    · intro short
      have same := inside.eq_of_length (Nat.le_antisymm inside.length_le short)
      exact Nat.le_of_eq (congrArg (fun cs => (String.ofList cs).utf8ByteSize) same.symm)

section

variable {ms : List Mapping} {source target : Mapping → String} {path : String}

/-- The rules that move paths from one side of a map to the other. -/
def rulesBetween (ms : List Mapping) (source target : Mapping → String) : List Rule :=
  Rule.longestFirst (ms.map fun m => Rule.between (source m) (target m))

theorem mem_rulesBetween {r : Rule} :
    r ∈ rulesBetween ms source target ↔ ∃ m ∈ ms, Rule.between (source m) (target m) = r := by
  rw [rulesBetween, Rule.longestFirst, List.mem_mergeSort, List.mem_map]

/-- The path lies in a directory on one side of a map. Directories count by whole names, so a longer
name is not inside a shorter one. -/
def IsWithin (ms : List Mapping) (side : Mapping → String) (path : String) : Prop :=
  ∃ m ∈ ms, directory (side m) <+: slashed path.toList

instance (ms : List Mapping) (side : Mapping → String) (path : String) :
    Decidable (IsWithin ms side path) :=
  inferInstanceAs (Decidable (∃ m ∈ ms, _))

/-- A path goes by no rule if and only if it lies in no directory. -/
theorem find?_rulesBetween_eq_none (target : Mapping → String) :
    ((rulesBetween ms source target).find? fun r => r.source.isPrefixOf (slashed path.toList)) =
      none ↔
      ¬ IsWithin ms source path := by
  rw [List.find?_eq_none]
  constructor
  · rintro fails ⟨m, member, within⟩
    exact fails _ (mem_rulesBetween.mpr ⟨m, member, rfl⟩) (List.isPrefixOf_iff_prefix.mpr within)
  · intro outside r member within
    obtain ⟨m, inside, rfl⟩ := mem_rulesBetween.mp member
    exact outside ⟨m, inside, List.isPrefixOf_iff_prefix.mp within⟩

/-- The pair `m` has the longest directory on one side that contains a path, and `rest` is what is
left of the path in it. Among pairs with directories of one length it is the earliest. -/
structure IsLongest (ms : List Mapping) (side : Mapping → String) (path : String) (m : Mapping)
    (rest : List Char) : Prop where
  split : slashed path.toList = directory (side m) ++ rest
  order : ∃ earlier later, ms = earlier ++ m :: later ∧
    (∀ m' ∈ earlier, directory (side m') <+: slashed path.toList →
      (directory (side m')).length < (directory (side m)).length) ∧
    ∀ m' ∈ later, directory (side m') <+: slashed path.toList →
      (directory (side m')).length ≤ (directory (side m)).length

theorem IsLongest.mem {m : Mapping} {rest : List Char} (h : IsLongest ms source path m rest) :
    m ∈ ms := by
  obtain ⟨earlier, later, order, -⟩ := h.order
  exact order ▸ List.mem_append_right earlier List.mem_cons_self

/-- A path that lies in some directory goes by the rule of the longest one. -/
theorem exists_isLongest (target : Mapping → String) (h : IsWithin ms source path) :
    ∃ m rest, IsLongest ms source path m rest ∧
      Rule.apply (rulesBetween ms source target) path = Rule.join (target m) rest := by
  let rule (m : Mapping) : Rule := Rule.between (source m) (target m)
  cases found : (rulesBetween ms source target).find? fun r =>
      r.source.isPrefixOf (slashed path.toList) with
  | none => exact absurd h ((find?_rulesBetween_eq_none target).mp found)
  | some r =>
      obtain ⟨longest, first⟩ := Rule.find?_longestFirst found
      rw [List.find?_map] at first
      obtain ⟨m, firstPair, rfl⟩ := Option.map_eq_some_iff.mp first
      obtain ⟨-, earlier, later, order, misses⟩ := List.find?_eq_some_iff_append.mp firstPair
      have fits := List.find?_some found
      have size (m' : Mapping) (member : m' ∈ ms)
          (within' : directory (source m') <+: slashed path.toList) :
            (rule m').size ≤ (rule m).size :=
        longest (rule m') (List.mem_map_of_mem member) (List.isPrefixOf_iff_prefix.mpr within')
      obtain ⟨rest, split⟩ := List.isPrefixOf_iff_prefix.mp fits
      refine ⟨m, rest, ⟨split.symm, earlier, later, order, fun m' early within' => ?_,
        fun m' late within' => ?_⟩, ?_⟩
      · refine Nat.lt_of_not_le fun longer => ?_
        have large := (@Rule.size_le_iff (rule m) (rule m') _ ⟨rest, split⟩ within').mpr longer
        have same : (rule m').size = (rule m).size :=
          Nat.le_antisymm (size m' (order ▸ List.mem_append_left _ early) within') large
        have missed := misses m' early
        rw [Bool.not_eq_true', Function.comp_apply, same, beq_self_eq_true, Bool.and_true] at missed
        exact Bool.false_ne_true (missed.symm.trans (List.isPrefixOf_iff_prefix.mpr within'))
      · exact (@Rule.size_le_iff (rule m') (rule m) _ within' ⟨rest, split⟩).mp
          (size m' (order ▸ List.mem_append_right _ (List.mem_cons_of_mem m late)) within')
      · rw [Rule.apply, found, ← split]
        exact congrArg (Rule.join (target m)) List.drop_left

theorem apply_of_not_isWithin (target : Mapping → String) (h : ¬ IsWithin ms source path) :
    Rule.apply (rulesBetween ms source target) path = path := by
  rw [Rule.apply, (find?_rulesBetween_eq_none target).mpr h]

end

/-- The separator in the style of a directory: a backslash if the directory has one. -/
def separatorOf (target : String) : Char := if '\\' ∈ target.toList then '\\' else '/'

/-- A path that was moved into a directory: the directory itself if nothing was left of the path,
and otherwise the directory with a separator at its end and then the rest, with the separators of
the directory. -/
structure IsPlaced (target : String) (rest : List Char) (moved : String) : Prop where
  itself : rest = [] → moved = target
  inside : rest ≠ [] → moved.toList =
    (if target.toList.getLast? = some '/' ∨ target.toList.getLast? = some '\\' then target.toList
      else target.toList ++ [separatorOf target]) ++
      rest.map fun c => if c = '/' then separatorOf target else c

/-- The rest of a path is put behind its new directory in the style of this directory, and a
directory itself stays without a slash at its end. -/
theorem isPlaced_join (target : String) (rest : List Char) :
    IsPlaced target rest (Rule.join target rest) where
  itself nothing := by rw [Rule.join, nothing, List.isEmpty_nil, if_pos rfl]
  inside nonempty := by
    rw [Rule.join, if_neg (by simpa using nonempty)]
    by_cases backslash : '\\' ∈ target.toList
    · simp [separatorOf, backslash]
    · have slashes : (rest.map fun c => if c = '/' then '/' else c) = rest := by
        refine (List.map_congr_left fun c _ => ?_).trans (List.map_id rest)
        by_cases slash : c = '/' <;> simp [slash]
      simp [separatorOf, backslash, slashes]

/-- The names of a path between its slashes. -/
def components (cs : List Char) : List (List Char) := cs.splitOn '/'

theorem getLast?_directory (path : String) : (directory path).getLast? = some '/' := by
  rw [directory]
  split
  · assumption
  · exact List.getLast?_concat

/-- Joining two sequences of names puts a slash between them. -/
theorem intercalate_append {names more : List (List Char)} (first : names ≠ [])
    (second : more ≠ []) :
    ['/'].intercalate (names ++ more) = ['/'].intercalate names ++ '/' ::
    ['/'].intercalate more := by
  induction names with
  | nil => exact absurd rfl first
  | cons name names ih =>
      cases names with
      | nil =>
          obtain ⟨next, more, rfl⟩ := List.exists_cons_of_ne_nil second
          simp
      | cons next names =>
          have later := ih (List.cons_ne_nil next names)
          simp only [List.cons_append, List.intercalate_cons_cons] at later ⊢
          rw [later, List.append_assoc, List.append_assoc, List.append_assoc]

/-- A directory contains a path exactly if its names are the first ones of the path, and more
follow. -/
theorem directory_isPrefix_iff (dir : String) (cs : List Char) :
    directory dir <+: cs ↔
      ∃ more, more ≠ [] ∧ components cs = components (directory dir).dropLast ++ more := by
  obtain ⟨names, ends⟩ := List.getLast?_eq_some_iff.mp (getLast?_directory dir)
  rw [ends, List.dropLast_concat]
  constructor
  · rintro ⟨rest, rfl⟩
    refine ⟨components rest, List.splitOn_ne_nil _ _, ?_⟩
    rw [List.append_assoc, List.singleton_append]
    exact List.splitOn_append_cons_self names rest
  · rintro ⟨more, nonempty, split⟩
    refine ⟨['/'].intercalate more, ?_⟩
    have joined := congrArg ['/'].intercalate split
    rw [components, components, List.intercalate_splitOn,
      intercalate_append (List.splitOn_ne_nil _ _) nonempty, List.intercalate_splitOn] at joined
    rw [joined, List.append_assoc, List.singleton_append]

/-- How a map moves a path of one side: into the other directory of the pair with the longest
directory that contains the path, or nowhere if no directory does. -/
inductive Moves (ms : List Mapping) (source target : Mapping → String) (path : String) :
    String → Prop
  | into {m : Mapping} {rest : List Char} {moved : String}
      (longest : IsLongest ms source path m rest)
      (placed : IsPlaced (target m) rest moved) : Moves ms source target path moved
  | nowhere (outside : ¬ IsWithin ms source path) : Moves ms source target path path

/-- A path is moved by the rule with the longest directory that contains it, and stays where it is
if there is none. -/
theorem moves_apply (ms : List Mapping) (source target : Mapping → String) (path : String) :
    Moves ms source target path (Rule.apply (rulesBetween ms source target) path) := by
  by_cases within : IsWithin ms source path
  · obtain ⟨m, rest, longest, applied⟩ := exists_isLongest target within
    exact applied ▸ .into longest (isPlaced_join _ _)
  · exact (apply_of_not_isWithin target within).symm ▸ .nowhere within

/-- Paths go by the longest directory that contains them. Paths of the program keep the style of the
controller's directory, and paths of the controller are normalized afterwards. No directory contains
a path that it does not share whole names with. -/
theorem paths_go_by_longest_directory (ms : List Mapping) (path : String) :
    Moves ms Mapping.server Mapping.client path ((SourceMap.ofMappings ms).toClient path) ∧
      (∃ moved, Moves ms Mapping.client Mapping.server path moved ∧
        (SourceMap.ofMappings ms).toServer path = normalize moved) ∧
      ∀ dir : String, directory dir <+: slashed path.toList ↔
        ∃ more, more ≠ [] ∧
          components (slashed path.toList) = components (directory dir).dropLast ++ more :=
  ⟨moves_apply ms _ _ path, ⟨_, moves_apply ms _ _ path, rfl⟩,
    fun dir => directory_isPrefix_iff dir (slashed path.toList)⟩

end Source

end RemoteDebugger
