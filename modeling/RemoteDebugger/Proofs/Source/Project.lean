import Mathlib.Data.List.TakeWhile
import RemoteDebugger.Program.Signature
import RemoteDebugger.Proofs.Source.Longest

/-!
# The boundary of a project

A file of a project lies in one of its root directories. The file filter and the recorder of call
signatures draw this boundary in the same place, by comparing texts: a path counts as inside a root
if it begins with the root. Every path inside a root does, but so does a path beside it whose next
directory or file has a longer name with the root's own at its front. `IsNamesake` names these
paths; on all others the boundary is the one between directories.

A file that is left alone is known by its last name, and a library file only outside of the project.
-/

namespace RemoteDebugger

namespace Source

/-- The path is the root, or lies in it. A path that only begins with the text of the root is not
inside. -/
def IsInside (root path : String) : Prop :=
  path = normalize root ∨ directory root <+: path.toList

instance (root path : String) : Decidable (IsInside root path) :=
  inferInstanceAs (Decidable (_ ∨ _))

/-- The path goes on with the last name of the root, which has no slash at its end. -/
def IsNamesake (root path : String) : Prop :=
  (slashed root.toList).getLast? ≠ some '/' ∧
    ∃ c rest, c ≠ '/' ∧ path.toList = slashed root.toList ++ c :: rest

section

variable {root path : String}

theorem eq_normalize_iff : path = normalize root ↔ path.toList = slashed root.toList := by
  rw [normalize, ← String.toList_inj, String.toList_ofList]

theorem directory_of_ends (ends : (slashed root.toList).getLast? = some '/') :
    directory root = slashed root.toList := by
  rw [directory, if_pos ends]

theorem directory_of_not_ends (unended : (slashed root.toList).getLast? ≠ some '/') :
    directory root = slashed root.toList ++ ['/'] := by
  rw [directory, if_neg unended]

/-- A path begins with a root exactly if it lies in it, or its name goes on where the root ends. -/
theorem isPrefix_root_iff :
    slashed root.toList <+: path.toList ↔ IsInside root path ∨ IsNamesake root path := by
  constructor
  · rintro ⟨rest, whole⟩
    by_cases ends : (slashed root.toList).getLast? = some '/'
    · exact .inl (.inr (directory_of_ends ends ▸ ⟨rest, whole⟩))
    · cases rest with
      | nil => exact .inl (.inl (eq_normalize_iff.mpr (by rw [← whole, List.append_nil])))
      | cons c rest =>
          by_cases slash : c = '/'
          · refine .inl (.inr ⟨rest, ?_⟩)
            rw [directory_of_not_ends ends, ← whole, slash, List.append_assoc]
            rfl
          · exact .inr ⟨ends, c, rest, slash, whole.symm⟩
  · rintro ((same | ⟨rest, whole⟩) | ⟨-, c, rest, -, whole⟩)
    · exact eq_normalize_iff.mp same ▸ List.prefix_rfl
    · rw [← whole, directory]
      split
      · exact List.prefix_append _ _
      · rw [List.append_assoc]
        exact List.prefix_append _ _
    · rw [whole]
      exact List.prefix_append _ _

/-- A namesake of a root lies outside of it. -/
theorem IsNamesake.not_isInside (h : IsNamesake root path) : ¬ IsInside root path := by
  obtain ⟨unended, c, rest, other, whole⟩ := h
  rintro (same | ⟨more, inside⟩)
  · have nothing := eq_normalize_iff.mp same
    rw [whole] at nothing
    simp at nothing
  · rw [directory_of_not_ends unended, whole, List.append_assoc, List.append_cancel_left_eq]
      at inside
    exact other (List.cons.inj inside).1.symm

end

/-- The test for project roots accepts the files inside a root, and besides those that share the
beginning of their name with it. -/
theorem isUnder_iff {roots : List String} {path : String} :
    isUnder (roots.map normalize) path = true ↔
      ∃ root ∈ roots, IsInside root path ∨ IsNamesake root path := by
  rw [isUnder, List.any_map, List.any_eq_true]
  refine exists_congr fun root => and_congr_right fun _ => ?_
  rw [← isPrefix_root_iff, Function.comp_apply, List.isPrefixOf_iff_prefix, normalize,
    String.toList_ofList]

/-- The name is what a path ends in, after its last slash if it has one. -/
structure IsLastName (path name : String) : Prop where
  plain : '/' ∉ name.toList
  ends : path = name ∨ ∃ dir, path = dir ++ "/" ++ name

section

variable {path name : String}

theorem ne_slash_iff {cs : List Char} : (∀ c ∈ cs, (c != '/') = true) ↔ '/' ∉ cs := by
  simp only [bne_iff_ne, ne_eq]
  exact ⟨fun h slash => h _ slash rfl, fun h c member same => h (same ▸ member)⟩

/-- The file name is what stands after the last slash, or the whole path if it has none. -/
theorem isLastName_fileName (path : String) : IsLastName path (fileName path) where
  plain := by
    rw [fileName, String.toList_ofList, List.mem_reverse, ← ne_slash_iff]
    exact fun c => List.mem_takeWhile_imp
  ends := by
    have whole := List.takeWhile_append_dropWhile (p := (· != '/')) (l := path.toList.reverse)
    cases tail : path.toList.reverse.dropWhile (· != '/') with
    | nil =>
        left
        rw [tail, List.append_nil] at whole
        rw [fileName, whole, List.reverse_reverse, String.ofList_toList]
    | cons c rest =>
        right
        have slash : c = '/' := by
          have stops := List.head?_dropWhile_not (· != '/') path.toList.reverse
          rw [tail] at stops
          simpa using stops
        refine ⟨String.ofList rest.reverse, ?_⟩
        rw [tail, slash] at whole
        have forward := congrArg List.reverse whole
        rw [List.reverse_append, List.reverse_reverse, List.reverse_cons] at forward
        rw [← String.toList_inj, fileName]
        simp only [String.toList_append, String.toList_ofList]
        exact forward.symm

/-- A path has one last name. -/
theorem IsLastName.eq (h : IsLastName path name) : fileName path = name := by
  have plain : ∀ c ∈ name.toList.reverse, (c != '/') = true :=
    ne_slash_iff.mpr fun slash => h.plain (List.mem_reverse.mp slash)
  rw [← String.toList_inj, fileName, String.toList_ofList]
  rcases h.ends with rfl | ⟨dir, rfl⟩
  · rw [List.takeWhile_eq_self_iff.mpr plain, List.reverse_reverse]
  · rw [String.toList_append, String.toList_append, List.reverse_append, List.reverse_append,
      List.takeWhile_append_of_pos plain]
    show (name.toList.reverse ++ List.takeWhile _ ('/' :: dir.toList.reverse)).reverse = _
    rw [List.takeWhile_cons_of_neg (by decide), List.append_nil, List.reverse_reverse]

end

/-- A file is left alone if its last name is listed for the engine, or for a library that is not
part of the project. -/
theorem isExcluded_iff (f : FileFilter) (path : String) :
    f.isExcluded path = true ↔ f.enabled = true ∧ ∃ name, IsLastName path name ∧
      (f.kinds.lookup name = some .engine ∨
        f.kinds.lookup name = some .library ∧ ¬ f.inProject path = true) := by
  have listed : f.isExcluded path = true ↔ f.enabled = true ∧
      (f.kinds.lookup (fileName path) = some .engine ∨
        f.kinds.lookup (fileName path) = some .library ∧ ¬ f.inProject path = true) := by
    rw [FileFilter.isExcluded, Bool.and_eq_true]
    cases f.kinds.lookup (fileName path) with
    | none => simp
    | some kind => cases kind <;> simp
  rw [listed]
  refine and_congr_right fun _ => ⟨fun h => ⟨_, isLastName_fileName path, h⟩, ?_⟩
  rintro ⟨name, last, h⟩
  rwa [last.eq]

/-- How a session with these settings draws the boundary of its project, while the filter is
switched on or off. -/
structure DrawsBoundary (c : Config) (on : Bool) (path : String) : Prop where
  inProject : (FileFilter.ofConfig c).inProject path = true ↔
    ∃ root ∈ c.projectRoots, IsInside root path ∨ IsNamesake root path
  /-- The boundary is that of the directories except for namesakes, which are outside of their
  root. -/
  directories : ((FileFilter.ofConfig c).inProject path = true ↔
      ∃ root ∈ c.projectRoots, IsInside root path) ↔
    ((∃ root ∈ c.projectRoots, IsInside root path) ∨ ∀ root ∈ c.projectRoots,
      ¬ IsNamesake root path)
  outside : ∀ root, IsNamesake root path → ¬ IsInside root path
  /-- Calls are recorded within the same boundary, or everywhere. -/
  recorded : ∀ f : Frame, (CallSignature.record? (c.projectRoots.map normalize) f path).isSome =
    true ↔
    c.projectRoots = [] ∨ (FileFilter.ofConfig c).inProject path = true
  excluded : { FileFilter.ofConfig c with enabled := on }.isExcluded path = true ↔
    on = true ∧ ∃ name, IsLastName path name ∧
      (c.dontTrace.lookup name = some .engine ∨
        c.dontTrace.lookup name = some .library ∧ ¬ (FileFilter.ofConfig c).inProject path = true)

/-- A call is recorded if its file is under one of the roots, or if no roots are given. -/
theorem isSome_record?_iff (roots : List String) (f : Frame) (path : String) :
    (CallSignature.record? roots f path).isSome = true ↔ roots = [] ∨
      isUnder roots path = true := by
  rw [CallSignature.record?]
  split
  · rename_i inside
    simpa using inside
  · rename_i outside
    simpa using outside

/-- Filter and recorder agree on what is in the project: what lies in a root, and what lies beside
one and continues its name. -/
theorem draws_boundary (c : Config) (on : Bool) (path : String) : DrawsBoundary c on path where
  inProject := isUnder_iff
  directories := by
    rw [FileFilter.inProject, FileFilter.ofConfig, isUnder_iff]
    constructor
    · intro boundary
      by_cases within : ∃ root ∈ c.projectRoots, IsInside root path
      · exact .inl within
      · exact .inr fun root member namesake => within (boundary.mp ⟨root, member, .inr namesake⟩)
    · rintro (⟨root, member, inside⟩ | apart)
      · exact iff_of_true ⟨root, member, .inl inside⟩ ⟨root, member, inside⟩
      · refine exists_congr fun root => and_congr_right fun member => ?_
        exact or_iff_left (apart root member)
  outside _ namesake := namesake.not_isInside
  recorded f := by
    rw [isSome_record?_iff, List.map_eq_nil_iff]
    rfl
  excluded := isExcluded_iff _ path

/-- A project with a library file of its own. -/
def ownThreading : Config :=
  { dontTrace := [("threading.py", .library)], projectRoots := ["/srv/app"] }

/-- A library file beside the project counts as one of its files, and is not left alone. -/
theorem sibling_counts_as_project_file :
    ¬ ((FileFilter.ofConfig ownThreading).inProject "/srv/application/threading.py" = true ↔
      ∃ root ∈ ownThreading.projectRoots, IsInside root "/srv/application/threading.py") ∧
    (FileFilter.ofConfig ownThreading).isExcluded "/srv/application/threading.py" = false := by
  decide +kernel

end Source

end RemoteDebugger
