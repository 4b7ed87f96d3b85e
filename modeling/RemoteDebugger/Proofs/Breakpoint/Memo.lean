import RemoteDebugger.Breakpoint.Registry
import RemoteDebugger.Source.Filter

/-!
# Soundness of the memo

A place may be memoized if no breakpoint concerns events there, or if its file is excluded. The
first depends on the snapshot and the second on the file filter. Every change of the snapshot
empties the memo, so a sound memo stays sound without a look at what was changed; a switch of the
filter is sound again as soon as the memo is emptied after it.
-/

namespace RemoteDebugger

/-- A change that the controller makes to the breakpoints. -/
inductive RegistryChange where
  | add (b : Breakpoint)
  | remove (id : Nat) (file : String)
  | addException (f : ExceptionFilter)
  | removeException (typeName : String)
  | setExceptions (fs : List ExceptionFilter)
  | ignoreExceptionsAt (l : Source.Location)

namespace RegistryChange

def apply (r : BreakpointRegistry) : RegistryChange → BreakpointRegistry
  | add b => r.add b
  | remove id file => (r.remove id file).1
  | addException f => r.addException f
  | removeException typeName => (r.removeException typeName).1
  | setExceptions fs => r.setExceptions fs
  | ignoreExceptionsAt l => r.ignoreExceptionsAt l

/-- Every change makes a new generation and empties the memo. -/
theorem apply_eq_update (r : BreakpointRegistry) (c : RegistryChange) :
    ∃ f, c.apply r = r.update f := by
  cases c with
  | add b => exact ⟨fun p => p.addLine b, rfl⟩
  | remove id file => exact ⟨fun p => p.removeLine id file, rfl⟩
  | addException f =>
      exact ⟨fun p =>
        { p with exceptions := p.exceptions.filter (fun g => g.typeName != f.typeName) ++ [f] },
          rfl⟩
  | removeException typeName =>
      exact ⟨fun p => { p with exceptions := p.exceptions.filter (·.typeName != typeName) }, rfl⟩
  | setExceptions fs => exact ⟨fun p => { p with exceptions := fs }, rfl⟩
  | ignoreExceptionsAt l => exact ⟨fun p => { p with ignored := p.ignored.insert l }, rfl⟩

end RegistryChange

namespace SkipKey

/-- No breakpoint of a snapshot concerns events at the place. For a return none ever does. -/
def Idle (k : SkipKey) (p : Snapshot) : Prop :=
  match k.scope with
  | .line => p.at_ k.file k.line = []
  | .call => p.hasBreakpointsIn k.file = false ∧ p.hasExceptions = false
  | .ret => True

/-- Events at the place need no look: no breakpoint concerns them, or the file is excluded. -/
def Spared (k : SkipKey) (p : Snapshot) (f : Source.FileFilter) : Prop :=
  k.Idle p ∨ f.isExcluded k.file = true

end SkipKey

namespace BreakpointRegistry

/-- Every memoized place may be skipped under the present snapshot and filter. -/
def Sound (r : BreakpointRegistry) (f : Source.FileFilter) : Prop :=
  ∀ k, r.skips.contains k = true → k.Spared r.snapshot f

variable {r : BreakpointRegistry} {f : Source.FileFilter}

theorem sound_empty (f : Source.FileFilter) : Sound {} f := by
  intro k memoized
  cases memoized

/-- A change leaves nothing memoized, so afterwards the memo is sound for any filter. -/
theorem sound_update (r : BreakpointRegistry) (change : Snapshot → Snapshot)
    (f : Source.FileFilter) : (r.update change).Sound f := by
  intro k memoized
  rw [skips_update, SkipCache.contains_reset] at memoized
  cases memoized

/-- A place that may be skipped can be memoized, if it is accepted at all. -/
theorem Sound.memoize {k : SkipKey} {generation : Nat} (h : r.Sound f)
    (spared : r.skips.generation = generation → k.Spared r.snapshot f) :
    (r.memoize k generation).Sound f := by
  intro k' memoized
  rw [snapshot_memoize]
  rcases (SkipCache.contains_insert _ _ _ _).mp memoized with before | ⟨accepted, rfl⟩
  · exact h k' before
  · exact spared accepted

/-- What is memoized already is not memoized again. -/
theorem memoize_of_contains {k : SkipKey} (h : r.skips.contains k = true) (generation : Nat) :
    r.memoize k generation = r := by
  rw [memoize, SkipCache.insert]
  split
  · rw [List.insert_of_mem (List.contains_iff_mem.mp h)]
  · rfl

end BreakpointRegistry

end RemoteDebugger
