import RemoteDebugger.Source.Filter

/-!
# The language of a glob pattern

A pattern is split at its stars. A text fits the pieces if they stand in it one after the other,
with something in the place of each star that has no line feed, and with nothing before the first
piece or after the last. The matcher decides this relation, and so does the regular expression that
stands for the pattern: escaping leaves no character of a piece a meaning of its own, and the
anchors leave nothing of the text out.
-/

namespace RemoteDebugger

namespace Text.Regex

section

variable {c : Char} {cs rest before taken after : List Char} {r : Regex}

theorem read_meta (h : isMeta c = true) (cs : List Char) :
    read ('\\' :: c :: cs) = (read cs).map (.char c :: ·) := by
  rw [read, if_pos h]

/-- A character without a meaning of its own stands for itself in an expression. -/
theorem read_plain (h : isMeta c = false) (cs : List Char) :
    read (c :: cs) = (read cs).map (.char c :: ·) := by
  have other (d : Char) (meaning : isMeta d = true) : c ≠ d := by
    rintro rfl
    exact absurd (h.symm.trans meaning) (by decide)
  rw [read, h]
  · rfl
  · intro _ _ same
    exact absurd same (other '\\' rfl)
  · intro _ same
    exact absurd same (other '.' rfl)
  · intro same
    exact absurd same (other '^' rfl)
  · intro same
    exact absurd same (other '$' rfl)

/-- An escaped text is read as its characters. -/
theorem read_escape (cs rest : List Char) :
    read (escape cs ++ rest) = (read rest).map (cs.map .char ++ ·) := by
  induction cs with
  | nil => simp [escape]
  | cons c cs ih =>
      have next : escape (c :: cs) ++ rest =
          (if isMeta c then ['\\', c] else [c]) ++ (escape cs ++ rest) := by
        rw [escape, List.flatMap_cons, List.append_assoc]
        rfl
      rw [next]
      cases meaning : isMeta c with
      | true =>
          show read ('\\' :: c :: (escape cs ++ rest)) = _
          rw [read_meta meaning, ih, Option.map_map]
          rfl
      | false =>
          show read (c :: (escape cs ++ rest)) = _
          rw [read_plain meaning, ih, Option.map_map]
          rfl

/-- Single characters take themselves, and what comes after them takes the rest. -/
theorem takes_chars_iff : Takes (cs.map .char ++ r) before taken after ↔
    ∃ more, taken = cs ++ more ∧ Takes r (before ++ cs) more after := by
  induction cs generalizing before taken with
  | nil => simp
  | cons c cs ih =>
      rw [List.map_cons, List.cons_append]
      constructor
      · intro h
        cases h with
        | char h =>
            obtain ⟨more, rfl, later⟩ := ih.mp h
            refine ⟨more, rfl, ?_⟩
            rwa [List.append_assoc] at later
      · rintro ⟨more, rfl, later⟩
        refine .char (ih.mpr ⟨more, rfl, ?_⟩)
        rwa [List.append_assoc]

/-- Anything takes a text without a line feed, as long as it may be, and what comes after takes the
rest. -/
theorem takes_anything_iff : Takes (.anything :: r) before taken after ↔
    ∃ w more, '\n' ∉ w ∧ taken = w ++ more ∧ Takes r (before ++ w) more after := by
  constructor
  · intro h
    cases h with
    | anything line later => exact ⟨_, _, line, rfl, later⟩
  · rintro ⟨w, more, line, rfl, later⟩
    exact .anything line later

/-- The anchor at the end takes nothing, and only where the text ends. -/
theorem takes_stop_iff : Takes [.stop] before taken after ↔ taken = [] ∧ after = [] := by
  constructor
  · intro h
    cases h
    exact ⟨rfl, rfl⟩
  · rintro ⟨rfl, rfl⟩
    exact .stop .nothing

/-- An expression that begins at the start and ends at the end of a text takes all of it. -/
theorem matches_start_iff {body : Regex} {text : List Char}
    (stops : ∀ {before taken after}, Takes body before taken after → after = []) :
    Matches (.start :: body) text ↔ Takes body [] text [] := by
  constructor
  · rintro ⟨before, taken, after, rfl, h⟩
    cases h with
    | start h =>
        cases stops h
        simpa using h
  · intro h
    exact ⟨[], text, [], by simp, .start h⟩

end

end Text.Regex

namespace Source.Glob

open Text (Regex)
open Text.Regex (escape Takes read_escape takes_chars_iff takes_anything_iff takes_stop_iff
  matches_start_iff)

/-- The text is made of the pieces in their order, with something without line feeds between any
two. -/
inductive Fits : List (List Char) → List Char → Prop
  | last (piece : List Char) : Fits [piece] piece
  | star {piece w rest : List Char} {pieces : List (List Char)} (line : '\n' ∉ w)
      (later : Fits pieces rest) : Fits (piece :: pieces) (piece ++ w ++ rest)

section

variable {pattern text piece : List Char} {pieces : List (List Char)}

theorem fits_singleton_iff : Fits [piece] text ↔ text = piece := by
  constructor
  · intro h
    cases h with
    | last => rfl
    | star line later => cases later
  · rintro rfl
    exact .last _

/-- A text fits pieces if it starts with the first, and after some characters on the same line the
rest fits the others. -/
theorem fits_cons_iff (more : pieces ≠ []) : Fits (piece :: pieces) text ↔
    ∃ w rest, '\n' ∉ w ∧ text = piece ++ w ++ rest ∧ Fits pieces rest := by
  constructor
  · intro h
    cases h with
    | last => exact absurd rfl more
    | star line later => exact ⟨_, _, line, rfl, later⟩
  · rintro ⟨w, rest, line, rfl, later⟩
    exact .star line later

/-- A piece stands at the front of the text, character by character. -/
theorem fits_cons_cons_iff (c : Char) : Fits ((c :: piece) :: pieces) text ↔
    ∃ rest, text = c :: rest ∧ Fits (piece :: pieces) rest := by
  constructor
  · intro h
    cases h with
    | last => exact ⟨piece, rfl, .last _⟩
    | star line later => exact ⟨_, rfl, .star line later⟩
  · rintro ⟨rest, rfl, h⟩
    cases h with
    | last => exact .last _
    | star line later => exact .star line later

/-- A star tries every length up to the next line feed, so it finds a match if there is one. -/
theorem starMatch_iff {rest : List Char → Bool} :
    isMatch.starMatch rest text = true ↔ ∃ w more, '\n' ∉ w ∧ text = w ++ more ∧
      rest more = true := by
  induction text with
  | nil =>
      rw [isMatch.starMatch]
      constructor
      · exact fun h => ⟨[], [], List.not_mem_nil, rfl, h⟩
      · rintro ⟨w, more, -, empty, h⟩
        rwa [(List.append_eq_nil_iff.mp empty.symm).2] at h
  | cons d text ih =>
      rw [isMatch.starMatch, Bool.or_eq_true, Bool.and_eq_true, bne_iff_ne, ih]
      constructor
      · rintro (h | ⟨other, w, more, line, rfl, h⟩)
        · exact ⟨[], d :: text, List.not_mem_nil, rfl, h⟩
        · refine ⟨d :: w, more, ?_, rfl, h⟩
          rw [List.mem_cons, not_or]
          exact ⟨other.symm, line⟩
      · rintro ⟨w, more, line, split, h⟩
        cases w with
        | nil => exact .inl (split ▸ h)
        | cons e w =>
            obtain ⟨rfl, rfl⟩ := List.cons.inj split
            rw [List.mem_cons, not_or] at line
            exact .inr ⟨Ne.symm line.1, w, more, line.2, rfl, h⟩

theorem isMatch_star (pattern text : List Char) :
    isMatch ('*' :: pattern) text = isMatch.starMatch (isMatch pattern) text := by
  rw [isMatch.eq_def]
  rfl

/-- A character of a pattern matches itself only. -/
theorem isMatch_char {c : Char} (other : c ≠ '*') :
    isMatch (c :: pattern) text = true ↔ ∃ rest, text = c :: rest ∧
      isMatch pattern rest = true := by
  rw [isMatch.eq_def]
  dsimp only
  rw [if_neg (by simpa using other)]
  cases text with
  | nil => simp
  | cons d text =>
      rw [Bool.and_eq_true, beq_iff_eq]
      constructor
      · rintro ⟨rfl, h⟩
        exact ⟨text, rfl, h⟩
      · rintro ⟨rest, same, h⟩
        obtain ⟨rfl, rfl⟩ := List.cons.inj same
        exact ⟨rfl, h⟩

/-- The matcher decides whether a text fits the pieces of a pattern. -/
theorem isMatch_iff : isMatch pattern text = true ↔ Fits (pattern.splitOn '*') text := by
  induction pattern generalizing text with
  | nil => rw [isMatch, List.splitOn_nil, fits_singleton_iff, List.isEmpty_iff]
  | cons c pattern ih =>
      have nonempty := List.splitOn_ne_nil '*' pattern
      rw [List.splitOn_cons_eq_if_modifyHead]
      by_cases star : c = '*'
      · rw [if_pos (by simpa using star), star, isMatch_star, starMatch_iff, fits_cons_iff nonempty]
        simp only [List.nil_append, ih]
      · obtain ⟨piece, pieces, split⟩ := List.exists_cons_of_ne_nil nonempty
        rw [if_neg (by simpa using star), isMatch_char star, split, List.modifyHead_cons,
          fits_cons_cons_iff]
        simp only [ih, split]

/-- The parts that stand for the pieces of a pattern. -/
def body (pieces : List (List Char)) : Regex :=
  [.anything].intercalate (pieces.map fun piece => piece.map .char)

theorem body_cons_cons (piece next : List Char) (pieces : List (List Char)) :
    body (piece :: next :: pieces) = piece.map .char ++ .anything :: body (next :: pieces) := by
  simp [body, List.intercalate_cons_cons]

/-- The expression of a pattern is read as the parts of its pieces between the anchors. -/
theorem read_expression (pattern : List Char) :
    Regex.read (expression pattern) = some (.start :: (body (pattern.splitOn '*') ++ [.stop])) := by
  have pieces_read (pieces : List (List Char)) (nonempty : pieces ≠ []) :
      Regex.read (['.', '*'].intercalate (pieces.map escape) ++ ['$']) =
        some (body pieces ++ [.stop]) := by
    induction pieces with
    | nil => exact absurd rfl nonempty
    | cons piece pieces ih =>
        cases pieces with
        | nil =>
            simp only [List.map_cons, List.map_nil, List.intercalate_singleton, read_escape]
            simp [Regex.read, body]
        | cons next pieces =>
            have later := ih (List.cons_ne_nil next pieces)
            rw [List.map_cons] at later
            rw [List.map_cons, List.map_cons, List.intercalate_cons_cons, List.append_assoc,
              List.append_assoc, read_escape]
            show Option.map _ (Regex.read ('.' :: '*' :: (_ ++ ['$']))) = _
            rw [Regex.read, later, body_cons_cons]
            simp
  rw [expression, Regex.read, pieces_read _ (List.splitOn_ne_nil '*' pattern)]
  rfl

example : expression "/gen(1)/*.x".toList = "^/gen\\(1\\)/.*\\.x$".toList := by decide +kernel

/-- The expression made of a pattern takes what fits the pieces of the pattern, up to the end of the
text. What stood before does not matter. -/
theorem takes_body_iff (nonempty : pieces ≠ []) {before taken after : List Char} :
    Takes (body pieces ++ [.stop]) before taken after ↔ after = [] ∧ Fits pieces taken := by
  induction pieces generalizing before taken with
  | nil => exact absurd rfl nonempty
  | cons piece pieces ih =>
      cases pieces with
      | nil =>
          have alone : body [piece] = piece.map .char := by simp [body]
          rw [alone, takes_chars_iff, fits_singleton_iff]
          constructor
          · rintro ⟨more, rfl, stops⟩
            obtain ⟨rfl, rfl⟩ := takes_stop_iff.mp stops
            exact ⟨rfl, List.append_nil piece⟩
          · rintro ⟨rfl, rfl⟩
            exact ⟨[], (List.append_nil _).symm, .stop .nothing⟩
      | cons next pieces =>
          have later := List.cons_ne_nil next pieces
          rw [body_cons_cons, List.append_assoc, List.cons_append, takes_chars_iff,
            fits_cons_iff later]
          constructor
          · rintro ⟨more, rfl, h⟩
            obtain ⟨w, more, line, rfl, rest⟩ := takes_anything_iff.mp h
            obtain ⟨ends, fits⟩ := (ih later).mp rest
            exact ⟨ends, w, more, line, (List.append_assoc ..).symm, fits⟩
          · rintro ⟨ends, w, more, line, rfl, fits⟩
            refine ⟨w ++ more, List.append_assoc .., ?_⟩
            exact takes_anything_iff.mpr ⟨w, more, line, rfl, (ih later).mpr ⟨ends, fits⟩⟩

/-- The expression of a pattern matches the texts that fit its pieces. -/
theorem matches_expression_iff :
    (∃ r, Regex.read (expression pattern) = some r ∧ r.Matches text) ↔
      Fits (pattern.splitOn '*') text := by
  have nonempty := List.splitOn_ne_nil '*' pattern
  rw [read_expression]
  simp only [Option.some_inj, exists_eq_left']
  rw [matches_start_iff fun h => ((takes_body_iff nonempty).mp h).1, takes_body_iff nonempty]
  simp

end

/-- What a list of step filters does with a path. -/
structure FiltersByLanguage (f : FileFilter) (path : String) : Prop where
  isStepFiltered : f.isStepFiltered path = true ↔
    ∃ pattern ∈ f.stepFilters, Fits (pattern.toList.splitOn '*') path.toList
  /-- It is what the regular expressions of the patterns do, each of which can be read. -/
  expressions : f.isStepFiltered path = true ↔
    ∃ pattern ∈ f.stepFilters, ∃ r, Regex.read (expression pattern.toList) = some r ∧
      r.Matches path.toList
  readable : ∀ pattern, (Regex.read (expression pattern)).isSome = true
  /-- Without a star a pattern stands for itself. -/
  literal : ∀ pattern : String, '*' ∉ pattern.toList →
    (Fits (pattern.toList.splitOn '*') path.toList ↔ path = pattern)

/-- A path is step-filtered if and only if the whole of it is in the language of some pattern. -/
theorem step_filters_match_their_language (f : FileFilter) (path : String) :
    FiltersByLanguage f path where
  isStepFiltered := by
    rw [FileFilter.isStepFiltered, List.any_eq_true]
    exact exists_congr fun pattern => and_congr_right fun _ => isMatch_iff
  expressions := by
    rw [FileFilter.isStepFiltered, List.any_eq_true]
    refine exists_congr fun pattern => and_congr_right fun _ => ?_
    rw [isMatch_iff, matches_expression_iff]
  readable pattern := by rw [read_expression]; rfl
  literal pattern plain := by
    rw [List.splitOn_eq_singleton plain, fits_singleton_iff, String.toList_inj]

end Source.Glob

end RemoteDebugger
