import Mathlib.Logic.Function.Basic
import Mathlib.Logic.Relation
import RemoteDebugger.Proofs.Session.Skipping

/-!
# The memo under interleaving

What a session does in one step for an event, the threads of a program do side by side: each reads
the present snapshot, tests whether the file is excluded, decides against the snapshot it has read,
and memoizes the place under the generation of that snapshot. Between any two of these steps, other
threads and the controller take theirs. A change of the breakpoints is one step with the reset of
the memo, and a switch of the file filter is two: the flag is set, and then the memo is emptied.

A decision may therefore reach the memo at any later time. It carries the generation of what it was
made from, and the invariant is about such half-finished decisions: each belongs to an older
generation, and will not be accepted, or it was made from the present snapshot, and from the present
filter too unless a switch is between its two steps.
-/

namespace RemoteDebugger

/-- How far a thread is with its event, and what it holds meanwhile. It may be held up at any of
these points. -/
inductive Progress where
  | outside
  /-- It has read a snapshot. -/
  | looked (k : SkipKey) (p : Snapshot)
  /-- It has found that the file is not excluded. -/
  | traced (k : SkipKey) (p : Snapshot)
  /-- It is going to memoize the place under a generation. -/
  | found (k : SkipKey) (generation : Nat)

/-- What the threads and the controller share, with the progress of each thread. `switching` counts
the switches of the filter that are between their two steps. -/
structure SharedMemo (ι : Type) where
  registry : BreakpointRegistry
  filter : Source.FileFilter
  switching : Nat
  progress : ι → Progress

namespace SharedMemo

variable {ι : Type}

def init (f : Source.FileFilter) : SharedMemo ι := ⟨{}, f, 0, fun _ => .outside⟩

def at_ [DecidableEq ι] (s : SharedMemo ι) (i : ι) (p : Progress) : SharedMemo ι :=
  { s with progress := Function.update s.progress i p }

/-- One step of a thread or of the controller. -/
inductive Step [DecidableEq ι] (s : SharedMemo ι) : SharedMemo ι → Prop
  /-- A thread reads the present snapshot for an event at a place. -/
  | look (i : ι) (k : SkipKey) (h : s.progress i = .outside) :
      Step s (s.at_ i (.looked k s.registry.snapshot))
  | exclude (i : ι) {k : SkipKey} {p : Snapshot} (h : s.progress i = .looked k p)
      (excluded : s.filter.isExcluded k.file = true) : Step s (s.at_ i (.found k p.generation))
  | trace (i : ι) {k : SkipKey} {p : Snapshot} (h : s.progress i = .looked k p)
      (traced : s.filter.isExcluded k.file = false) : Step s (s.at_ i (.traced k p))
  /-- It decides against the snapshot it has read. -/
  | dismiss (i : ι) {k : SkipKey} {p : Snapshot} (h : s.progress i = .traced k p)
      (dismissed : k.Dismissed p) : Step s (s.at_ i (.found k p.generation))
  /-- Whatever it has found, it may have nothing to memoize. -/
  | leave (i : ι) : Step s (s.at_ i .outside)
  | memoize (i : ι) {k : SkipKey} {g : Nat} (h : s.progress i = .found k g) :
      Step s (at_ { s with registry := s.registry.memoize k g } i .outside)
  | change (c : RegistryChange) : Step s { s with registry := c.apply s.registry }
  /-- The two steps of a switch. -/
  | switch (enabled : Bool) : Step s
      { s with filter := { s.filter with enabled := enabled }, switching := s.switching + 1 }
  | invalidate (h : 0 < s.switching) : Step s
      { s with registry := s.registry.invalidate, switching := s.switching - 1 }

/-- The states that are reached from the initial one, in any order of steps. -/
def Reachable [DecidableEq ι] (s : SharedMemo ι) : Prop :=
  ∃ f, Relation.ReflTransGen Step (init f) s

/-- What a thread holds belongs to an older generation, or is right about the present. -/
def Current (now : Snapshot) (f : Source.FileFilter) (settled : Prop) : Progress → Prop
  | .outside => True
  | .looked _ p | .traced _ p => p.generation < now.generation ∨ p = now
  | .found k g => g < now.generation ∨ (g = now.generation ∧ (settled → k.Spared now f))

/-- The memo belongs to the present snapshot, and so does what the threads hold, or it is
outdated. -/
structure Inv (s : SharedMemo ι) : Prop where
  generation : s.registry.skips.generation = s.registry.snapshot.generation
  current : ∀ i, Current s.registry.snapshot s.filter (s.switching = 0) (s.progress i)
  sound : s.switching = 0 → s.registry.Sound s.filter

variable {s s' : SharedMemo ι} {f : Source.FileFilter}

theorem inv_init (f : Source.FileFilter) : Inv (init f : SharedMemo ι) where
  generation := rfl
  current _ := trivial
  sound _ := BreakpointRegistry.sound_empty f

/-- What a thread holds before a change is outdated after it. -/
theorem Current.outdated {now next : Snapshot} {settled settled' : Prop} {p : Progress}
    {f' : Source.FileFilter} (h : Current now f settled p)
    (newer : now.generation < next.generation) : Current next f' settled' p := by
  cases p with
  | outside => trivial
  | looked k p | traced k p =>
      rcases h with older | rfl
      · exact .inl (Nat.lt_trans older newer)
      · exact .inl newer
  | found k g =>
      rcases h with older | ⟨rfl, -⟩
      · exact .inl (Nat.lt_trans older newer)
      · exact .inl newer

/-- While a switch is under way, nothing is promised about the filter. -/
theorem Current.unsettled {now : Snapshot} {settled settled' : Prop} {p : Progress}
    {f' : Source.FileFilter} (h : Current now f settled p) (not_settled : ¬ settled') :
    Current now f' settled' p := by
  cases p with
  | outside => trivial
  | looked k p | traced k p => exact h
  | found k g =>
      rcases h with older | ⟨same, -⟩
      · exact .inl older
      · exact .inr ⟨same, fun settled => absurd settled not_settled⟩

/-- A step of one thread leaves what the others hold. -/
theorem Inv.at_ [DecidableEq ι] (h : Inv s) (i : ι) {p : Progress}
    (current : Current s.registry.snapshot s.filter (s.switching = 0) p) : Inv (s.at_ i p) where
  generation := h.generation
  current j := by
    by_cases mine : j = i
    · subst mine
      simpa only [SharedMemo.at_, Function.update_self] using current
    · simpa only [SharedMemo.at_, Function.update_of_ne mine] using h.current j
  sound := h.sound

/-- A change empties the memo and outdates what the threads hold. -/
theorem Inv.update (h : Inv s) (change : Snapshot → Snapshot) (switching : Nat) :
    Inv { s with registry := s.registry.update change, switching := switching } where
  generation := rfl
  current i := (h.current i).outdated (Nat.lt_succ_self _)
  sound _ := BreakpointRegistry.sound_update s.registry change s.filter

/-- A thread memoizes what it holds. If it is outdated, the memo does not take it; otherwise it is
right about the present. -/
theorem Inv.memoize (h : Inv s) {i : ι} {k : SkipKey} {g : Nat} (held : s.progress i = .found k g) :
    Inv { s with registry := s.registry.memoize k g } where
  generation := by
    rw [BreakpointRegistry.memoize, SkipCache.insert]
    split <;> exact h.generation
  current := h.current
  sound settled := by
    apply (h.sound settled).memoize
    intro accepted
    have current := h.current i
    rw [held] at current
    rcases current with older | ⟨-, spared⟩
    · have same := h.generation
      omega
    · exact spared settled

variable [DecidableEq ι]

/-- Every step keeps the invariant. -/
theorem Inv.step (h : Inv s) (step : Step s s') : Inv s' := by
  cases step with
  | look i k outside => exact h.at_ i (.inr rfl)
  | exclude i held excluded =>
      have current := h.current i
      rw [held] at current
      rcases current with older | rfl
      · exact h.at_ i (.inl older)
      · exact h.at_ i (.inr ⟨rfl, fun _ => .inr excluded⟩)
  | trace i held traced =>
      have current := h.current i
      rw [held] at current
      exact h.at_ i current
  | dismiss i held dismissed =>
      have current := h.current i
      rw [held] at current
      rcases current with older | rfl
      · exact h.at_ i (.inl older)
      · exact h.at_ i (.inr ⟨rfl, fun _ => .inl dismissed.idle⟩)
  | leave i => exact h.at_ i trivial
  | memoize i held => exact (h.memoize held).at_ i trivial
  | change c =>
      obtain ⟨f, applied⟩ := c.apply_eq_update s.registry
      rw [applied]
      exact h.update f s.switching
  | switch enabled =>
      exact
        { generation := h.generation
          current := fun i => (h.current i).unsettled (Nat.succ_ne_zero _)
          sound := fun settled => absurd settled (Nat.succ_ne_zero _) }
  | invalidate underway => exact h.update id _

/-- Whatever the order of the steps, the invariant holds. -/
theorem Reachable.inv (h : Reachable s) : Inv s := by
  obtain ⟨f, steps⟩ := h
  induction steps with
  | refl => exact inv_init f
  | tail _ step ih => exact ih.step step

/-- A thread that memoizes what it has found: it reads the snapshot, tests the file, decides if it
has to, and memoizes. -/
theorem memoize_steps {i : ι} (outside : s.progress i = .outside) {k : SkipKey}
    (spared : s.filter.isExcluded k.file = true ∨
      s.filter.isExcluded k.file = false ∧ k.Dismissed s.registry.snapshot) :
    Relation.ReflTransGen Step s
      { s with registry := s.registry.memoize k s.registry.snapshot.generation } := by
  have look := Step.look i k outside
  have held : (s.at_ i (.looked k s.registry.snapshot)).progress i =
      .looked k s.registry.snapshot := Function.update_self ..
  have back (p q : Progress) : ((s.at_ i p).at_ i q) = s.at_ i q := by
    simp only [SharedMemo.at_, Function.update_idem]
  have found : Relation.ReflTransGen Step s
      (s.at_ i (.found k s.registry.snapshot.generation)) := by
    rcases spared with excluded | ⟨traced, dismissed⟩
    · have exclude := Step.exclude i held excluded
      rw [back] at exclude
      exact (Relation.ReflTransGen.single look).tail exclude
    · have trace := Step.trace i held traced
      rw [back] at trace
      have dismiss := Step.dismiss i (k := k) (p := s.registry.snapshot)
        (s := s.at_ i (.traced k s.registry.snapshot)) (Function.update_self ..) dismissed
      rw [back] at dismiss
      exact ((Relation.ReflTransGen.single look).tail trace).tail dismiss
  have memoize := Step.memoize i (k := k) (g := s.registry.snapshot.generation)
    (s := s.at_ i (.found k s.registry.snapshot.generation)) (Function.update_self ..)
  have same : SharedMemo.at_ { s.at_ i (.found k s.registry.snapshot.generation) with
      registry := s.registry.memoize k s.registry.snapshot.generation } i .outside =
      { s with registry := s.registry.memoize k s.registry.snapshot.generation } := by
    simp only [SharedMemo.at_, Function.update_idem, ← outside, Function.update_eq_self]
  rw [← same]
  exact found.tail memoize

/-- In whatever order the steps are taken: when no switch is under way, a memoized line has no
breakpoint, and for a memoized call there is neither a breakpoint in the file nor an exception to
stop on, unless the file is excluded now. -/
theorem memo_is_sound (reachable : Reachable s) (settled : s.switching = 0) (file : String)
    (line : Nat) :
    (s.registry.skips.contains ⟨file, line, .line⟩ = true →
      s.registry.snapshot.at_ file line = [] ∨ s.filter.isExcluded file = true) ∧
    (s.registry.skips.contains ⟨file, line, .call⟩ = true →
      (s.registry.snapshot.hasBreakpointsIn file = false ∧
        s.registry.snapshot.hasExceptions = false) ∨ s.filter.isExcluded file = true) := by
  have sound := reachable.inv.sound settled
  exact ⟨sound ⟨file, line, .line⟩, sound ⟨file, line, .call⟩⟩

/-- One thread has memoized a line without a breakpoint. -/
def oneLineMemoized : SharedMemo Nat :=
  { init ⟨true, [], [], []⟩ with
    registry := ({} : BreakpointRegistry).memoize ⟨"/app/main.x", 3, .line⟩ 0 }

/-- The conditions are met by a state in which something has been memoized. -/
theorem oneLineMemoized_is_sound :
    oneLineMemoized.registry.skips.contains ⟨"/app/main.x", 3, .line⟩ = true ∧
    (oneLineMemoized.registry.skips.contains ⟨"/app/main.x", 3, .line⟩ = true →
      oneLineMemoized.registry.snapshot.at_ "/app/main.x" 3 = [] ∨
        oneLineMemoized.filter.isExcluded "/app/main.x" = true) ∧
    (oneLineMemoized.registry.skips.contains ⟨"/app/main.x", 3, .call⟩ = true →
      (oneLineMemoized.registry.snapshot.hasBreakpointsIn "/app/main.x" = false ∧
        oneLineMemoized.registry.snapshot.hasExceptions = false) ∨
        oneLineMemoized.filter.isExcluded "/app/main.x" = true) := by
  have dismissed : SkipKey.Dismissed ⟨"/app/main.x", 3, .line⟩ {} :=
    ⟨.start {} Session.oneLine, { ref := Session.mainThread }, .line, 0, rfl, rfl, rfl, rfl⟩
  have reached : Reachable oneLineMemoized :=
    ⟨⟨true, [], [], []⟩, memoize_steps (i := 0) rfl (.inr ⟨by decide +kernel, dismissed⟩)⟩
  exact ⟨by decide +kernel, memo_is_sound reached rfl "/app/main.x" 3⟩

/-- What a session shares with the threads of its program. -/
def ofSession (s : Session) (progress : ι → Progress) : SharedMemo ι :=
  ⟨s.breakpoints, s.filter, 0, progress⟩

/-- The look of a session at an event is made of the steps of one thread that nothing interrupts. -/
theorem lookAt_steps (s : Session) (t : Thread) (kind : EventKind) (frame : FrameRef)
    {progress : ι → Progress} {i : ι} (outside : progress i = .outside) :
    Relation.ReflTransGen Step (ofSession s progress)
      (ofSession (s.lookAt t kind frame).1 progress) := by
  obtain ⟨threads, q, skips, looked⟩ := s.lookAt_eq t kind frame
  rcases s.lookAt_breakpoints t kind frame with kept | ⟨k, -, -, spared, memoized⟩
  · rw [ofSession, ofSession, kept, looked.filter]
  · rw [ofSession, ofSession, memoized, looked.filter]
    exact memoize_steps (s := ⟨s.breakpoints, s.filter, 0, progress⟩) outside spared

/-- A switch of the filter by a request is made of its two steps. -/
theorem setDontTrace_steps (s : Session) (enabled : Bool) (progress : ι → Progress) :
    Relation.ReflTransGen Step (ofSession s progress)
      (ofSession (s.setDontTrace enabled) progress) := by
  have switch := Step.switch (s := ofSession s progress) enabled
  exact (Relation.ReflTransGen.single switch).tail (Step.invalidate (Nat.succ_pos 0))

end SharedMemo

end RemoteDebugger
