import Mathlib.Data.Set.Basic
import RemoteDebugger.Proofs.Breakpoint.Listing

/-!
# Stops for exceptions

The registry keeps the exceptions to stop on as a list of filters, and looks for the first one that
fits. To its users it is a set: which filters are registered can be told call by call, and whether
an exception stops the program is a question of whether some registered filter asks for it. The
order of the filters and how often one is listed make no difference, because every filter that asks
for a stop gives the same reason.
-/

namespace RemoteDebugger

/-- The filter names the type of an exception or one of its base types. -/
def ExceptionFilter.Names (f : ExceptionFilter) (e : RaisedException) : Prop :=
  f.typeName = e.typeName ∨ f.typeName ∈ e.ancestors

/-- The filter asks to stop for an exception, at a place where those that will be caught may be
ignored. -/
structure ExceptionFilter.AsksFor (f : ExceptionFilter) (e : RaisedException) (ignored : Prop) :
    Prop where
  names : f.Names e
  uncaught : e.unhandled = true → f.onTerminate = true
  caught : e.unhandled = false → f.always = true ∧ ¬ ignored

def RaisedException.stopReason (e : RaisedException) : StopReason :=
  if e.unhandled then .uncaughtException else .caughtException

theorem RaisedException.isInstanceOf_iff {e : RaisedException} {f : ExceptionFilter} :
    e.isInstanceOf f.typeName = true ↔ f.Names e := by
  rw [isInstanceOf, Bool.or_eq_true, beq_iff_eq, List.contains_iff_mem, ExceptionFilter.Names,
    eq_comm]

namespace Snapshot

section

variable {e : RaisedException} {ignored : Bool} {f : ExceptionFilter} {fs : List ExceptionFilter}
  {reason : StopReason}

/-- The first filter that asks for an exception decides, and those after it are not consulted. -/
theorem filterStop_cons_of_asks (h : f.AsksFor e (ignored = true)) :
    filterStop e ignored (f :: fs) = some e.stopReason := by
  rw [filterStop, if_pos (RaisedException.isInstanceOf_iff.mpr h.names), RaisedException.stopReason]
  cases raised : e.unhandled with
  | true => simp [h.uncaught raised]
  | false => simp [h.caught raised]

/-- A filter that does not ask for an exception might as well not be there. -/
theorem filterStop_cons_of_not_asks (h : ¬ f.AsksFor e (ignored = true)) :
    filterStop e ignored (f :: fs) = filterStop e ignored fs := by
  rw [filterStop]
  split
  · rename_i named
    have names := RaisedException.isInstanceOf_iff.mp named
    rw [if_neg, if_neg]
    · intro asked
      simp only [Bool.and_eq_true, Bool.not_eq_true'] at asked
      refine h ⟨names, fun uncaught => ?_, fun _ => ⟨asked.1.2, by simp [asked.2]⟩⟩
      exact absurd (uncaught.symm.trans asked.1.1) (by decide)
    · intro asked
      rw [Bool.and_eq_true] at asked
      refine h ⟨names, fun _ => asked.2, fun caught => ?_⟩
      exact absurd (caught.symm.trans asked.1) (by decide)
  · rfl

/-- The search for a filter that fits ends in a stop if any filter asks for it. -/
theorem filterStop_eq_some_iff :
    filterStop e ignored fs = some reason ↔
      reason = e.stopReason ∧ ∃ f ∈ fs, f.AsksFor e (ignored = true) := by
  induction fs with
  | nil => simp [filterStop]
  | cons f fs ih =>
      rw [List.exists_mem_cons_iff]
      by_cases asks : f.AsksFor e (ignored = true)
      · rw [filterStop_cons_of_asks asks, Option.some_inj, eq_comm]
        exact (and_iff_left (.inl asks)).symm
      · rw [filterStop_cons_of_not_asks asks, ih, or_iff_right asks]

/-- An exception stops exactly if some filter asks for it, and the reason depends on the exception
only. -/
theorem exceptionStop_eq_some_iff {s : Snapshot} {l : Source.Location} :
    s.exceptionStop e l = some reason ↔
      reason = e.stopReason ∧ ∃ f ∈ s.exceptions, f.AsksFor e (l ∈ s.ignored) := by
  rw [exceptionStop, filterStop_eq_some_iff]
  simp only [List.contains_iff_mem]

end

end Snapshot

namespace RegistryCall

def applyToFilters (fs : Set ExceptionFilter) : RegistryCall → Set ExceptionFilter
  | change (.addException f) => { g | g ∈ fs ∧ g.typeName ≠ f.typeName ∨ g = f }
  | change (.removeException typeName) => { g | g ∈ fs ∧ g.typeName ≠ typeName }
  | change (.setExceptions gs) => { g | g ∈ gs }
  | change _ | invalidate => fs

end RegistryCall

/-- The filters that are registered after some calls, told from the calls alone and without a
registry. -/
def filtersOf (calls : List RegistryCall) : Set ExceptionFilter :=
  calls.foldl RegistryCall.applyToFilters ∅

/-- After some calls, exceptions that will be caught are ignored at a place. -/
def IgnoredAfter (calls : List RegistryCall) (l : Source.Location) : Prop :=
  .change (.ignoreExceptionsAt l) ∈ calls

namespace BreakpointRegistry

/-- A call changes the filters of a registry as it changes the set of filters that the history
tells. -/
theorem mem_exceptions_apply {r : BreakpointRegistry} {fs : Set ExceptionFilter}
    (h : ∀ f, f ∈ r.snapshot.exceptions ↔ f ∈ fs) (call : RegistryCall) (f : ExceptionFilter) :
    f ∈ (call.apply r).snapshot.exceptions ↔ f ∈ call.applyToFilters fs := by
  cases call with
  | invalidate => exact h f
  | change c =>
      cases c with
      | add | remove | ignoreExceptionsAt => exact h f
      | setExceptions gs => exact Iff.rfl
      | removeException typeName =>
          show f ∈ r.snapshot.exceptions.filter _ ↔ f ∈ fs ∧ f.typeName ≠ typeName
          rw [List.mem_filter, h, bne_iff_ne]
      | addException g =>
          show f ∈ r.snapshot.exceptions.filter _ ++ [g] ↔ f ∈ fs ∧ f.typeName ≠ g.typeName ∨ f = g
          rw [List.mem_append, List.mem_filter, List.mem_singleton, h, bne_iff_ne]

/-- The list of filters has exactly those that are registered. -/
@[simp] theorem mem_exceptions_of (calls : List RegistryCall) (f : ExceptionFilter) :
    f ∈ (of calls).snapshot.exceptions ↔ f ∈ filtersOf calls := by
  have run {r : BreakpointRegistry} {fs : Set ExceptionFilter}
      (h : ∀ f, f ∈ r.snapshot.exceptions ↔ f ∈ fs) :
      f ∈ (calls.foldl RegistryCall.apply r).snapshot.exceptions ↔
        f ∈ calls.foldl RegistryCall.applyToFilters fs := by
    induction calls generalizing r fs with
    | nil => exact h f
    | cons call calls ih => exact ih (mem_exceptions_apply h call)
  exact run fun f => iff_of_false List.not_mem_nil (Set.notMem_empty f)

/-- The only call that changes which lines are ignored is the one that adds a line. None takes a
line back. -/
theorem mem_ignored_apply (r : BreakpointRegistry) (call : RegistryCall) (l : Source.Location) :
    l ∈ (call.apply r).snapshot.ignored ↔
      call = .change (.ignoreExceptionsAt l) ∨ l ∈ r.snapshot.ignored := by
  cases call with
  | invalidate => simp [RegistryCall.apply, invalidate, update]
  | change c =>
      cases c with
      | ignoreExceptionsAt place =>
          show l ∈ r.snapshot.ignored.insert place ↔ _
          rw [List.mem_insert_iff]
          simp [eq_comm]
      | add | remove | addException | removeException | setExceptions =>
          exact (or_iff_right (by simp)).symm

/-- Exceptions are ignored at a place once a call has asked for it. -/
@[simp] theorem mem_ignored_of (calls : List RegistryCall) (l : Source.Location) :
    l ∈ (of calls).snapshot.ignored ↔ IgnoredAfter calls l := by
  have run (r : BreakpointRegistry) :
      l ∈ (calls.foldl RegistryCall.apply r).snapshot.ignored ↔
        IgnoredAfter calls l ∨ l ∈ r.snapshot.ignored := by
    induction calls generalizing r with
    | nil => simp [IgnoredAfter]
    | cons call calls ih =>
        rw [List.foldl_cons, ih, mem_ignored_apply, IgnoredAfter, IgnoredAfter, List.mem_cons,
          or_left_comm, or_assoc, eq_comm]
  rw [of, run, or_iff_left]
  exact List.not_mem_nil

/-- An exception stops the program if a registered filter asks for it. -/
theorem exceptionStop_of_eq_some_iff {calls : List RegistryCall} {e : RaisedException}
    {l : Source.Location} {reason : StopReason} :
    (of calls).snapshot.exceptionStop e l = some reason ↔
      reason = e.stopReason ∧ ∃ f ∈ filtersOf calls, f.AsksFor e (IgnoredAfter calls l) := by
  simp only [Snapshot.exceptionStop_eq_some_iff, mem_exceptions_of, mem_ignored_of]

/-- No filter of this type is registered after some calls. -/
def IsNewTo (f : ExceptionFilter) (calls : List RegistryCall) : Prop :=
  ∀ g ∈ filtersOf calls, g.typeName ≠ f.typeName

theorem filtersOf_append (calls later : List RegistryCall) :
    filtersOf (calls ++ later) = later.foldl RegistryCall.applyToFilters (filtersOf calls) :=
  List.foldl_append

/-- A filter of a new type is added to the set, and removing its type takes it out again. -/
theorem filtersOf_add {f : ExceptionFilter} {calls : List RegistryCall} (new : IsNewTo f calls) :
    filtersOf (calls ++ [.change (.addException f)]) = insert f (filtersOf calls) ∧
      filtersOf (calls ++ [.change (.addException f), .change (.removeException f.typeName)]) =
        filtersOf calls := by
  constructor
  · rw [filtersOf_append]
    ext g
    show g ∈ filtersOf calls ∧ g.typeName ≠ f.typeName ∨ g = f ↔ g = f ∨ g ∈ filtersOf calls
    rw [or_comm, and_iff_left_of_imp (new g)]
  · rw [filtersOf_append]
    ext g
    show (g ∈ filtersOf calls ∧ g.typeName ≠ f.typeName ∨ g = f) ∧ g.typeName ≠ f.typeName ↔
      g ∈ filtersOf calls
    constructor
    · rintro ⟨⟨registered, -⟩ | rfl, other⟩
      · exact registered
      · exact absurd rfl other
    · exact fun registered => ⟨.inl ⟨registered, new g registered⟩, new g registered⟩

/-- How the registered filters decide whether an exception, raised at a place, stops the program. -/
structure DecidesByFilters (calls : List RegistryCall) (e : RaisedException) (l : Source.Location) :
    Prop where
  uncaught : (of calls).snapshot.exceptionStop e l = some .uncaughtException ↔
    e.unhandled = true ∧ ∃ f ∈ filtersOf calls, f.Names e ∧ f.onTerminate = true
  caught : (of calls).snapshot.exceptionStop e l = some .caughtException ↔
    e.unhandled = false ∧ ¬ IgnoredAfter calls l ∧ ∃ f ∈ filtersOf calls, f.Names e ∧
      f.always = true
  otherwise : ∀ reason, (of calls).snapshot.exceptionStop e l = some reason →
    reason = .uncaughtException ∨ reason = .caughtException
  /-- Only the set counts, whatever calls it comes from. -/
  bySet : ∀ calls' : List RegistryCall, filtersOf calls' = filtersOf calls →
    (IgnoredAfter calls' l ↔ IgnoredAfter calls l) →
    (of calls').snapshot.exceptionStop e l = (of calls).snapshot.exceptionStop e l
  /-- The filters may be listed in any order, and more than once. -/
  reordered : ∀ fs : List ExceptionFilter, (∀ f, f ∈ fs ↔ f ∈ filtersOf calls) →
    { (of calls).snapshot with exceptions := fs }.exceptionStop e l =
      (of calls).snapshot.exceptionStop e l
  /-- A filter of a new type takes no stop away. -/
  added : ∀ f, IsNewTo f calls → ∀ reason, (of calls).snapshot.exceptionStop e l = some reason →
    (of (calls ++ [.change (.addException f)])).snapshot.exceptionStop e l = some reason
  /-- A filter of a new type can be taken back. -/
  withdrawn : ∀ f, IsNewTo f calls →
    (of (calls ++ [.change (.addException f),
      .change (.removeException f.typeName)])).snapshot.exceptionStop e l =
      (of calls).snapshot.exceptionStop e l

section

variable {calls calls' : List RegistryCall} {e : RaisedException} {l : Source.Location}

/-- An exception that nobody handles stops exactly if a filter names it that asks for those. The
line it comes from does not matter. -/
theorem uncaught_iff : (of calls).snapshot.exceptionStop e l = some .uncaughtException ↔
    e.unhandled = true ∧ ∃ f ∈ filtersOf calls, f.Names e ∧ f.onTerminate = true := by
  rw [exceptionStop_of_eq_some_iff, RaisedException.stopReason]
  cases raised : e.unhandled with
  | true =>
      refine and_congr (iff_of_true rfl rfl) (exists_congr fun f => and_congr_right fun _ => ?_)
      exact ⟨fun asks => ⟨asks.names, asks.uncaught raised⟩, fun ⟨names, asked⟩ =>
        ⟨names, fun _ => asked, fun caught => absurd (raised.symm.trans caught) (by decide)⟩⟩
  | false => simp

/-- An exception that is handled stops exactly if a filter names it that asks for all, and its line
is not ignored. -/
theorem caught_iff : (of calls).snapshot.exceptionStop e l = some .caughtException ↔
    e.unhandled = false ∧ ¬ IgnoredAfter calls l ∧
      ∃ f ∈ filtersOf calls, f.Names e ∧ f.always = true := by
  rw [exceptionStop_of_eq_some_iff, RaisedException.stopReason]
  cases raised : e.unhandled with
  | true => simp
  | false =>
      refine and_congr (iff_of_true rfl rfl) ⟨?_, ?_⟩
      · rintro ⟨f, registered, asks⟩
        obtain ⟨asked, heeded⟩ := asks.caught raised
        exact ⟨heeded, f, registered, asks.names, asked⟩
      · rintro ⟨heeded, f, registered, names, asked⟩
        exact ⟨f, registered, names, fun uncaught => absurd (raised.symm.trans uncaught)
          (by decide),
          fun _ => ⟨asked, heeded⟩⟩

/-- Two registries with the same filters, and a place that is ignored in both or in neither, give
the same answer. -/
theorem exceptionStop_congr (filters : filtersOf calls' = filtersOf calls)
    (places : IgnoredAfter calls' l ↔ IgnoredAfter calls l) :
    (of calls').snapshot.exceptionStop e l = (of calls).snapshot.exceptionStop e l := by
  refine Option.ext fun reason => ?_
  rw [exceptionStop_of_eq_some_iff, exceptionStop_of_eq_some_iff, filters, places]

end

/-- Whatever is called, exceptions stop the program by the set of registered filters. -/
theorem exceptions_stop_by_filters (calls : List RegistryCall) (e : RaisedException)
    (l : Source.Location) : DecidesByFilters calls e l where
  uncaught := uncaught_iff
  caught := caught_iff
  otherwise reason stops := by
    rw [(exceptionStop_of_eq_some_iff.mp stops).1, RaisedException.stopReason]
    cases e.unhandled with
    | true => exact .inl rfl
    | false => exact .inr rfl
  bySet _ := exceptionStop_congr
  reordered fs same := by
    refine Option.ext fun reason => ?_
    rw [exceptionStop_of_eq_some_iff, Snapshot.exceptionStop_eq_some_iff]
    simp only [same, mem_ignored_of]
  added f new reason stops := by
    obtain ⟨rfl, g, registered, asks⟩ := exceptionStop_of_eq_some_iff.mp stops
    have heeded : IgnoredAfter (calls ++ [.change (.addException f)]) l ↔ IgnoredAfter calls l := by
      simp [IgnoredAfter]
    rw [exceptionStop_of_eq_some_iff, (filtersOf_add new).1, heeded]
    exact ⟨rfl, g, .inr registered, asks⟩
  withdrawn f new := by
    refine exceptionStop_congr (filtersOf_add new).2 ?_
    simp [IgnoredAfter]

end BreakpointRegistry

end RemoteDebugger
