import RemoteDebugger.Proofs.Session.Grant
import RemoteDebugger.Proofs.Source.Longest

/-!
# Moving paths there and back

A path that lies in a directory of a source map is moved by one rule, and what replaces its
directory is again a directory, in whose own style the rest is appended; with slashes only, the
moved path is this directory and then the rest. If no directory on that side contains another one,
then the only rule that fits the moved path is the one of the same pair, and it moves the path back.

This is what a controller relies on when it sets a breakpoint at a path that it was told for a
frame: the breakpoint is registered for the file of this frame.
-/

namespace RemoteDebugger

namespace Source

theorem slashed_append (cs ds : List Char) : slashed (cs ++ ds) = slashed cs ++ slashed ds :=
  List.map_append

theorem getLast?_slashed (cs : List Char) :
    (slashed cs).getLast? = cs.getLast?.map fun c => if c == '\\' then '/' else c :=
  List.getLast?_map

/-- The directory of a mapping is written with slashes only. -/
theorem slashed_directory (path : String) : slashed (directory path) = directory path := by
  rw [directory]
  split
  · exact slashed_slashed _
  · rw [slashed_append, slashed_slashed]
    rfl

/-- The path does not end like that of a directory. -/
def IsFile (path : String) : Prop := (slashed path.toList).getLast? ≠ some '/'

instance (path : String) : Decidable (IsFile path) := inferInstanceAs (Decidable (_ ≠ _))

/-- Something of a file is left below a directory. -/
theorem IsFile.ne_nil {path dir : String} {rest : List Char} (isFile : IsFile path)
    (split : slashed path.toList = directory dir ++ rest) : rest ≠ [] := by
  rintro rfl
  rw [IsFile, split, List.append_nil, getLast?_directory] at isFile
  exact isFile rfl

theorem slashed_eq_of_directory {path : String} {cs rest : List Char}
    (split : slashed cs = directory path ++ rest) : slashed rest = rest := by
  have again := slashed_slashed cs
  rw [split, slashed_append, slashed_directory] at again
  exact List.append_cancel_left again

/-- Turning slashes into backslashes and back gives the text again, if there was no backslash in
it. -/
theorem slashed_backslashes {rest : List Char} (h : slashed rest = rest) :
    slashed (rest.map fun c => if c == '/' then '\\' else c) = rest := by
  refine Eq.trans ?_ h
  rw [slashed, slashed, List.map_map]
  refine List.map_congr_left fun c _ => ?_
  by_cases slash : c = '/'
  · subst slash
    rfl
  · simp [slash]

/-- A moved path is the directory it was moved to and what was left of it, in whatever style. -/
theorem slashed_join (target : String) {rest : List Char} (h : slashed rest = rest)
    (ne : rest ≠ []) :
    slashed (Rule.join target rest).toList = directory target ++ rest := by
  have tail (back : Bool) :
      slashed (if back then rest.map fun c => if c == '/' then '\\' else c else rest) = rest := by
    cases back with
    | false => exact h
    | true => exact slashed_backslashes h
  have separator (back : Bool) : slashed [if back then '\\' else '/'] = ['/'] := by
    cases back <;> rfl
  rw [Rule.join, if_neg (by simpa using ne)]
  dsimp only
  rw [String.toList_ofList, slashed_append, tail, directory]
  congr 1
  rw [getLast?_slashed]
  by_cases ended : target.toList.getLast? = some '/' ∨ target.toList.getLast? = some '\\'
  · have slash : target.toList.getLast?.map (fun c => if c == '\\' then '/' else c) = some '/' := by
      rcases ended with last | last <;> rw [last] <;> rfl
    rw [if_pos ended, if_pos slash]
  · have no_slash : target.toList.getLast?.map (fun c => if c == '\\' then '/' else c) ≠
        some '/' := by
      intro slash
      obtain ⟨c, last, same⟩ := Option.map_eq_some_iff.mp slash
      rw [last] at ended
      by_cases back : c = '\\'
      · exact ended (.inr (congrArg some back))
      · simp only [beq_iff_eq, back, if_false] at same
        exact ended (.inl (congrArg some same))
    rw [if_neg ended, if_neg no_slash, slashed_append, separator]

section

variable {ms : List Mapping} {source target : Mapping → String} {path : String}

/-- No directory on one side of a map contains that of another pair. -/
def Apart (ms : List Mapping) (side : Mapping → String) : Prop :=
  ∀ m ∈ ms, ∀ m' ∈ ms, directory (side m) <+: directory (side m') → m = m'

instance (ms : List Mapping) (side : Mapping → String) : Decidable (Apart ms side) :=
  inferInstanceAs (Decidable (∀ m ∈ ms, ∀ m' ∈ ms, _))

/-- Of directories that are apart, only one contains a given path. -/
theorem Apart.unique {side : Mapping → String} (apart : Apart ms side) {m m' : Mapping}
    (member : m ∈ ms) (member' : m' ∈ ms) {cs : List Char} (within : directory (side m) <+: cs)
    (within' : directory (side m') <+: cs) : m = m' := by
  rcases List.prefix_or_prefix_of_prefix within within' with inside | inside
  · exact apart m member m' member' inside
  · exact (apart m' member' m member inside).symm

/-- Some pair moves a path that lies in a directory. -/
theorem apply_of_isWithin (target : Mapping → String) (h : IsWithin ms source path) :
    ∃ m ∈ ms, ∃ rest, slashed path.toList = directory (source m) ++ rest ∧
      Rule.apply (rulesBetween ms source target) path = Rule.join (target m) rest := by
  obtain ⟨m, rest, longest, applied⟩ := exists_isLongest target h
  exact ⟨m, longest.mem, rest, longest.split, applied⟩

/-- Only its own pair moves a path that lies in a directory apart from all others. -/
theorem apply_of_apart (target : Mapping → String) (apart : Apart ms source) {m : Mapping}
    (member : m ∈ ms) {rest : List Char} (split : slashed path.toList =
      directory (source m) ++ rest) :
    Rule.apply (rulesBetween ms source target) path = Rule.join (target m) rest := by
  have within : directory (source m) <+: slashed path.toList := ⟨rest, split.symm⟩
  obtain ⟨m', member', rest', split', applied⟩ := apply_of_isWithin target ⟨m, member, within⟩
  obtain rfl := apart.unique member' member ⟨rest', split'.symm⟩ within
  rw [applied, List.append_cancel_left (split'.symm.trans split)]

/-- A file that was moved into a directory apart from all others is moved back, in whatever style
its moved path is written. -/
theorem apply_apply (apart : Apart ms target) (h : IsWithin ms source path)
    (isFile : IsFile path) {moved : String}
    (style : slashed moved.toList =
      slashed (Rule.apply (rulesBetween ms source target) path).toList) :
    slashed (Rule.apply (rulesBetween ms target source) moved).toList = slashed path.toList := by
  obtain ⟨m, member, rest, split, applied⟩ := apply_of_isWithin target h
  have plain := slashed_eq_of_directory split
  have nonempty := isFile.ne_nil split
  rw [applied, slashed_join _ plain nonempty] at style
  rw [apply_of_apart source apart member style, slashed_join _ plain nonempty, split]

end

namespace SourceMap

variable {ms : List Mapping} {path : String}

/-- A path of the program that is moved comes back as it was, but for backslashes. The directories
of the controller have to be apart. -/
theorem toServer_toClient_of_isWithin (apart : Apart ms Mapping.client)
    (h : IsWithin ms Mapping.server path) (isFile : IsFile path) :
    (ofMappings ms).toServer ((ofMappings ms).toClient path) = normalize path := by
  have back : slashed (Rule.apply (ofMappings ms).toServerRules
      ((ofMappings ms).toClient path)).toList =
      slashed path.toList := apply_apply apart h isFile rfl
  exact congrArg String.ofList back

/-- A path that no rule moves in either direction stays as it is, but for backslashes. -/
theorem toServer_toClient_of_not_isWithin (server : ¬ IsWithin ms Mapping.server path)
    (client : ¬ IsWithin ms Mapping.client path) :
    (ofMappings ms).toServer ((ofMappings ms).toClient path) = normalize path := by
  have stays : (ofMappings ms).toClient path = path := apply_of_not_isWithin Mapping.client server
  have stays' : Rule.apply (ofMappings ms).toServerRules path = path :=
    apply_of_not_isWithin Mapping.server client
  rw [stays, toServer, stays']

/-- A path of the controller that is moved comes back as the same path, perhaps in another style of
slashes. -/
theorem normalize_toClient_toServer (apart : Apart ms Mapping.server)
    (h : IsWithin ms Mapping.client path) (isFile : IsFile path) :
    normalize ((ofMappings ms).toClient ((ofMappings ms).toServer path)) = normalize path := by
  have style : slashed ((ofMappings ms).toServer path).toList =
      slashed (Rule.apply (rulesBetween ms Mapping.client Mapping.server) path).toList := by
    rw [toServer, normalize, String.toList_ofList, slashed_slashed]
    rfl
  exact congrArg String.ofList (apply_apply apart h isFile style)

end SourceMap

end Source

def Xml.attribute? : Xml → String → Option String
  | .empty _ _ attrs, name => attrs.lookup name
  | .node _ attrs _, name => attrs.lookup name

/-- The controller sets a line breakpoint: these are the fields of its request. -/
structure SetsLine (payload : String) (id : Nat) (path : String) (line : Nat) : Prop where
  kind : ∃ kind, (Fields.ofPayload payload).required 1 "breakpoint kind" = .ok kind ∧
    BreakpointKind.parse kind = .ok .line
  file : (Fields.ofPayload payload).required 2 "file" = .ok path
  id : (Fields.ofPayload payload).number 0 "breakpoint id" = .ok id
  line : (Fields.ofPayload payload).number 3 "line" = .ok line

namespace Session

/-- A request to set a line breakpoint sets it where the program has the file, and does nothing
else. -/
theorem request_setBreak {payload path : String} {id line : Nat} (h : SetsLine payload id path line)
    (s : Session) {seq : Int} (odd : seq % 2 = 1) :
    ∃ b : Breakpoint, b.id = id ∧
      b.location = Source.Location.ofPath (s.sources.toServer path) line ∧
      s.request Wire.Command.setBreak.code seq payload =
        { s with breakpoints := s.breakpoints.add b } := by
  obtain ⟨kind, field, parsed⟩ := h.kind
  let b : Breakpoint :=
    { id := id
      location := Source.Location.ofPath (s.sources.toServer path) line
      condition := (Fields.ofPayload payload).optional 4
      expression := (Fields.ofPayload payload).optional 5
      function := (Fields.ofPayload payload).optional 6 }
  refine ⟨b, rfl, rfl, request_of_ok odd (Wire.Command.ofCode?_code _) ?_⟩
  simp only [Handling.dispatch, Handling.setBreak, Handling.changeBreakpoints, field, parsed,
    h.file, h.id, h.line, Handling.run_bind, Handling.run_read, Handling.run_get,
    Handling.run_modify, b]

end Session

namespace Source

/-- A path of the program that the rules of a map treat alike in both directions: one side moves it,
and if none of the program's directories contains it, then none of the controller's does. -/
def IsCovered (ms : List Mapping) (path : String) : Prop :=
  IsWithin ms Mapping.server path ∨ ¬ IsWithin ms Mapping.server path ∧
    ¬ IsWithin ms Mapping.client path

/-- The two directions of a map are inverse to each other on files. -/
structure Inverts (ms : List Mapping) : Prop where
  /-- The path that the controller is told for a file of the program stands for this file. -/
  program : Apart ms Mapping.client → ∀ path, IsFile path → IsCovered ms path →
    (SourceMap.ofMappings ms).toServer ((SourceMap.ofMappings ms).toClient path) = normalize path
  /-- A breakpoint at the path that a frame is reported with is registered for the file of the
  frame. -/
  breakpoints : Apart ms Mapping.client → ∀ (s : Session) (f : Frame),
    s.sources = SourceMap.ofMappings ms → IsFile f.file → IsCovered ms f.file →
    ∀ path, (Payload.frame s.sources f).attribute? "file" = some path →
    ∀ payload id line seq, SetsLine payload id path line → seq % 2 = 1 →
      ∃ b : Breakpoint, b.id = id ∧ b.location = ⟨normalize f.file, line⟩ ∧
        s.request Wire.Command.setBreak.code seq payload =
          { s with breakpoints := s.breakpoints.add b }
  /-- A file of the controller that the program knows is reported under its own path. -/
  controller : Apart ms Mapping.server → ∀ path, IsFile path → IsWithin ms Mapping.client path →
    normalize ((SourceMap.ofMappings ms).toClient ((SourceMap.ofMappings ms).toServer path)) =
      normalize path

/-- Every map whose directories are apart is inverted by its other direction. -/
theorem inverts (ms : List Mapping) : Inverts ms := by
  have program (apart : Apart ms Mapping.client) (path : String) (isFile : IsFile path)
      (covered : IsCovered ms path) :
      (SourceMap.ofMappings ms).toServer ((SourceMap.ofMappings ms).toClient path) =
        normalize path := by
    rcases covered with within | ⟨server, client⟩
    · exact SourceMap.toServer_toClient_of_isWithin apart within isFile
    · exact SourceMap.toServer_toClient_of_not_isWithin server client
  refine ⟨program, ?_, fun apart path isFile within =>
    SourceMap.normalize_toClient_toServer apart within isFile⟩
  intro apart s f sources isFile covered path reported payload id line seq sets odd
  obtain rfl : s.sources.toClient f.file = path := Option.some.inj reported
  obtain ⟨b, number, location, done⟩ := s.request_setBreak sets odd
  refine ⟨b, number, ?_, done⟩
  rw [location, sources, program apart f.file isFile covered, Location.ofPath, normalize_normalize]

/-- Directories of two systems, one inside the other on the program's side only. -/
def crossMappings : List Mapping := [⟨"D:/lib/", "/srv/work/lib"⟩, ⟨"C:\\work", "/srv/work"⟩]

/-- A session whose controller works in other directories than its program. -/
def remote : Session := .start { config := { pathMappings := crossMappings } } {}

/-- A breakpoint at the path that the controller was told is registered for the file of the
program. -/
theorem crossMappings_inverts :
    (SourceMap.ofMappings crossMappings).toClient "/srv/work/app/main.py" =
      "C:\\work\\app\\main.py" ∧
      (SourceMap.ofMappings crossMappings).toServer
        ((SourceMap.ofMappings crossMappings).toClient "/srv/work/app/main.py") =
          "/srv/work/app/main.py" ∧
      ∃ b : Breakpoint, b.id = 4 ∧ b.location = ⟨"/srv/work/app/main.py", 3⟩ ∧
        remote.request Wire.Command.setBreak.code 1 "4\tline\tC:\\work\\app\\main.py\t3" =
          { remote with breakpoints := remote.breakpoints.add b } := by
  have rules : (SourceMap.ofMappings crossMappings).toClientRules =
      crossMappings.map fun m => Rule.between m.server m.client :=
    List.mergeSort_of_pairwise (by decide)
  have told : (SourceMap.ofMappings crossMappings).toClient "/srv/work/app/main.py" =
      "C:\\work\\app\\main.py" := by
    rw [SourceMap.toClient, rules]
    decide
  have sets : SetsLine "4\tline\tC:\\work\\app\\main.py\t3" 4 "C:\\work\\app\\main.py" 3 :=
    ⟨⟨"line", rfl, rfl⟩, rfl, rfl, rfl⟩
  refine ⟨told, ?_, ?_⟩
  · exact (inverts crossMappings).program (by decide) _ (by decide) (.inl (by decide))
  · exact (inverts crossMappings).breakpoints (by decide) remote
      { (default : Frame) with file := "/srv/work/app/main.py" } rfl (by decide)
        (.inl (by decide)) _
      (congrArg some told) _ 4 3 1 sets rfl

end Source

end RemoteDebugger
