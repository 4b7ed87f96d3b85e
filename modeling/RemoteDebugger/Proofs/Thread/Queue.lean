import RemoteDebugger.Thread.Queue

/-!
# Operations on the command queue

A queue changes by its operations only: commands are posted, threads take the commands addressed to
them or to any thread, the commands of a thread that is gone are dropped, and the queue is closed.
Whatever each operation keeps holds of every queue that comes of a new one. The number kept beside
the queue is the number of waiting commands, and a closed queue is empty.
-/

namespace RemoteDebugger.CommandQueue

def postAll (q : CommandQueue) (cs : List QueuedCommand) : CommandQueue :=
  { q with commands := q.commands ++ cs, pending := q.pending + cs.length }

@[simp] theorem postAll_postAll (q : CommandQueue) (first second : List QueuedCommand) :
    (q.postAll first).postAll second = q.postAll (first ++ second) := by
  simp [postAll, Nat.add_assoc]

@[simp] theorem postAll_nil (q : CommandQueue) : q.postAll [] = q := by
  simp [postAll]

@[simp]
theorem post_of_open {q : CommandQueue} (accepting : q.terminated = false) (c : QueuedCommand) :
    q.post c = .ok (q.postAll [c]) := by
  rw [post, if_neg (by simp [accepting])]
  rfl

@[simp]
theorem post_of_closed {q : CommandQueue} (closed : q.terminated = true) (c : QueuedCommand) :
    q.post c = .error .sessionTerminated := by
  rw [post, if_pos closed]

/-- A command is accepted only by an open queue, and then it is the last. -/
theorem post_eq_ok {q q' : CommandQueue} {c : QueuedCommand} (h : q.post c = .ok q') :
    q.terminated = false ∧ q' = q.postAll [c] := by
  cases accepting : q.terminated with
  | false =>
      rw [post_of_open accepting] at h
      exact ⟨rfl, (Except.ok.inj h).symm⟩
  | true =>
      rw [post_of_closed accepting] at h
      cases h

/-- The commands that a thread takes and those that it leaves are all the commands. -/
theorem perm_takeFor (q : CommandQueue) (id : String) :
    q.commands.Perm ((q.takeFor id).1 ++ (q.takeFor id).2.commands) := by
  rw [takeFor]
  split
  · rw [List.partition_eq_filter_filter]
    exact (List.filter_append_perm _ _).symm
  · exact List.Perm.refl _

/-- A command that is taken was in the queue, and the others stay. -/
theorem perm_takeOne {q q' : CommandQueue} {id : String} {c : QueuedCommand}
    (h : q.takeOne id = some (c, q')) : q.commands.Perm (c :: q'.commands) := by
  obtain ⟨c', found, same⟩ := Option.map_eq_some_iff.mp h
  obtain ⟨rfl, rfl⟩ := Prod.ext_iff.mp same
  obtain ⟨mine, before, after, commands, others⟩ := List.find?_eq_some_iff_append.mp found
  have left : q.commands.eraseP (·.isFor id) = before ++ after := by
    rw [commands, List.eraseP_append_right _ (by simpa using others)]
    exact congrArg (before ++ ·) (List.eraseP_cons_of_pos mine)
  show q.commands.Perm (c' :: q.commands.eraseP (·.isFor id))
  rw [left, commands]
  exact List.perm_middle

/-- A thread takes a command that waits for it. -/
theorem mem_of_takeOne {q q' : CommandQueue} {id : String} {c : QueuedCommand}
    (h : q.takeOne id = some (c, q')) : c ∈ q.commands.filter fun c => c.isFor id := by
  obtain ⟨c', found, same⟩ := Option.map_eq_some_iff.mp h
  obtain ⟨rfl, rfl⟩ := Prod.ext_iff.mp same
  have mine : c'.isFor id = true := by simpa using List.find?_some found
  exact List.mem_filter.mpr ⟨List.mem_of_find?_eq_some found, mine⟩

theorem mem_takeOne {q q' : CommandQueue} {id : String} {c : QueuedCommand}
    (h : q.takeOne id = some (c, q')) : c ∈ q.commands :=
  (List.mem_filter.mp (mem_of_takeOne h)).1

/-- Taking one command lowers the counter by one, whomever it is for. -/
theorem pending_takeOne {q q' : CommandQueue} {id : String} {c : QueuedCommand}
    (h : q.takeOne id = some (c, q')) : q'.pending = q.pending - 1 := by
  obtain ⟨c', found, same⟩ := Option.map_eq_some_iff.mp h
  obtain ⟨rfl, rfl⟩ := Prod.ext_iff.mp same
  rfl

/-- Taking a command neither closes nor opens the queue. -/
theorem terminated_takeOne {q q' : CommandQueue} {id : String} {c : QueuedCommand}
    (h : q.takeOne id = some (c, q')) : q'.terminated = q.terminated := by
  obtain ⟨c', found, same⟩ := Option.map_eq_some_iff.mp h
  obtain ⟨rfl, rfl⟩ := Prod.ext_iff.mp same
  rfl

/-- A thread that waits for a command finds one only while the queue is open. -/
theorem waitFor_eq_command {q q' : CommandQueue} {id : String} {c : QueuedCommand}
    (h : q.waitFor id = (.command c, q')) :
    q.terminated = false ∧ q.takeOne id = some (c, q') := by
  cases accepting : q.terminated with
  | true =>
      rw [waitFor, if_pos accepting] at h
      cases h
  | false =>
      rw [waitFor, if_neg (by simp [accepting])] at h
      cases taken : q.takeOne id with
      | none =>
          rw [taken] at h
          cases h
      | some found =>
          rw [taken] at h
          cases h
          exact ⟨rfl, rfl⟩

/-- A thread takes some of the commands, and leaves some. -/
theorem mem_takeFor {q : CommandQueue} {id : String} {c : QueuedCommand}
    (h : c ∈ (q.takeFor id).1 ∨ c ∈ (q.takeFor id).2.commands) : c ∈ q.commands :=
  (q.perm_takeFor id).mem_iff.mpr (List.mem_append.mpr h)

@[simp] theorem terminated_takeFor (q : CommandQueue) (id : String) :
    (q.takeFor id).2.terminated = q.terminated := by
  rw [takeFor]
  split <;> rfl

@[simp] theorem terminated_discardFor (q : CommandQueue) (id : String) :
    (q.discardFor id).terminated = q.terminated := rfl

/-- A queue comes of another one by operations, with these commands posted in between. -/
inductive Operated (q : CommandQueue) : List QueuedCommand → CommandQueue → Prop
  | untouched : Operated q [] q
  | posted {cs : List QueuedCommand} {q' q'' : CommandQueue} (before : Operated q cs q')
      {c : QueuedCommand} (accepted : q'.post c = .ok q'') : Operated q (cs ++ [c]) q''
  | took {cs : List QueuedCommand} {q' q'' : CommandQueue} (before : Operated q cs q') {id : String}
      {c : QueuedCommand} (taken : q'.takeOne id = some (c, q'')) : Operated q cs q''
  | tookAll {cs : List QueuedCommand} {q' : CommandQueue} (before : Operated q cs q')
      (id : String) :
      Operated q cs (q'.takeFor id).2
  | discarded {cs : List QueuedCommand} {q' : CommandQueue} (before : Operated q cs q')
      (id : String) : Operated q cs (q'.discardFor id)
  | closed {cs : List QueuedCommand} {q' : CommandQueue} (before : Operated q cs q') :
      Operated q cs q'.terminate

section

variable {q q' q'' : CommandQueue} {cs ds : List QueuedCommand}

/-- Operations may follow each other, and what they add comes in their order. -/
theorem Operated.trans (first : Operated q cs q') (second : Operated q' ds q'') :
    Operated q (cs ++ ds) q'' := by
  induction second with
  | untouched =>
      rw [List.append_nil]
      exact first
  | posted _ accepted ih =>
      rw [← List.append_assoc]
      exact .posted ih accepted
  | took _ taken ih => exact .took ih taken
  | tookAll _ id ih => exact .tookAll ih id
  | discarded _ id ih => exact .discarded ih id
  | closed _ ih => exact .closed ih

/-- Posting several commands is posting them one by one. Only a queue that is open accepts any. -/
theorem operated_postAll (accepting : cs ≠ [] → q.terminated = false) :
    Operated q cs (q.postAll cs) := by
  induction cs generalizing q with
  | nil =>
      rw [postAll_nil]
      exact .untouched
  | cons c cs ih =>
      have opened : q.terminated = false := accepting (List.cons_ne_nil c cs)
      have first : Operated q [c] (q.postAll [c]) := .posted .untouched (post_of_open opened c)
      have rest : Operated (q.postAll [c]) cs ((q.postAll [c]).postAll cs) := ih fun _ => opened
      rw [postAll_postAll] at rest
      exact first.trans rest

/-- What is left by a thread that takes its commands is in the order it was in. -/
theorem sublist_takeFor (q : CommandQueue) (id : String) :
    (q.takeFor id).2.commands.Sublist q.commands := by
  rw [takeFor]
  split
  · rw [List.partition_eq_filter_filter]
    exact List.filter_sublist
  · exact List.Sublist.refl _

/-- What is left after one command is taken is in the order it was in. -/
theorem sublist_takeOne {id : String} {c : QueuedCommand} (h : q.takeOne id = some (c, q')) :
    q'.commands.Sublist q.commands := by
  obtain ⟨c', found, same⟩ := Option.map_eq_some_iff.mp h
  obtain ⟨rfl, rfl⟩ := Prod.ext_iff.mp same
  exact List.eraseP_sublist

/-- What waits in a queue was waiting before or has been posted since, in this order. -/
theorem Operated.sublist (h : Operated q cs q') : q'.commands.Sublist (q.commands ++ cs) := by
  induction h with
  | untouched => exact List.sublist_append_left _ _
  | posted _ accepted ih =>
      rw [post] at accepted
      split at accepted
      · cases accepted
      · cases accepted
        rw [← List.append_assoc]
        exact ih.append_right _
  | took _ taken ih => exact (sublist_takeOne taken).trans ih
  | tookAll _ id ih => exact (sublist_takeFor _ id).trans ih
  | discarded _ id ih => exact List.filter_sublist.trans ih
  | closed _ ih => exact List.nil_sublist _

end

/-- The number kept beside the queue is the number of waiting commands, and none waits in a closed
queue. -/
structure Sound (q : CommandQueue) : Prop where
  counted : q.pending = q.commands.length
  emptied : q.terminated = true → q.commands = []

theorem sound_new : Sound {} := ⟨rfl, fun _ => rfl⟩

variable {q q' : CommandQueue}

/-- The counter is right after a command has been accepted. -/
theorem Sound.posted (h : Sound q) {c : QueuedCommand} (accepted : q.post c = .ok q') :
    Sound q' := by
  rw [post] at accepted
  split at accepted
  · cases accepted
  · rename_i opened
    cases accepted
    constructor
    · show q.pending + 1 = (q.commands ++ [c]).length
      rw [List.length_append, h.counted]
      rfl
    · exact fun closed => absurd closed opened

theorem Sound.took (h : Sound q) {id : String} {c : QueuedCommand}
    (taken : q.takeOne id = some (c, q')) : Sound q' := by
  have one_less := (perm_takeOne taken).length_eq
  constructor
  · rw [pending_takeOne taken, h.counted, one_less]
    rfl
  · intro closed
    rw [terminated_takeOne taken] at closed
    rw [h.emptied closed] at one_less
    cases one_less

/-- A thread takes all commands that are for it, and leaves the others. -/
theorem Sound.takeFor_eq (h : Sound q) (id : String) :
    q.takeFor id =
      (q.commands.filter (·.isFor id), { q with
        commands := q.commands.filter fun c => !c.isFor id
        pending := (q.commands.filter fun c => !c.isFor id).length }) := by
  have all := (List.filter_append_perm (fun c => c.isFor id) q.commands).length_eq
  rw [List.length_append] at all
  rw [takeFor]
  split
  · rw [List.partition_eq_filter_filter, h.counted]
    simp only [Prod.mk.injEq, true_and, mk.injEq, and_true]
    exact ⟨rfl, Nat.sub_eq_of_eq_add' all.symm⟩
  · rename_i none_pending
    have none_waits : q.commands = [] := by
      rw [← List.length_eq_zero_iff, ← h.counted]
      simpa [hasPending] using none_pending
    obtain ⟨commands, pending, terminated⟩ := q
    obtain rfl : pending = commands.length := h.counted
    obtain rfl : commands = [] := none_waits
    rfl

theorem Sound.tookAll (h : Sound q) (id : String) : Sound (q.takeFor id).2 := by
  rw [h.takeFor_eq id]
  constructor
  · rfl
  · intro closed
    show q.commands.filter _ = []
    rw [h.emptied closed, List.filter_nil]

theorem Sound.discarded (h : Sound q) (id : String) : Sound (q.discardFor id) := by
  have fewer : (q.commands.filter fun c => c.target != .thread id).length ≤ q.commands.length :=
    List.length_filter_le ..
  constructor
  · show q.pending - (q.commands.length - (q.commands.filter _).length) =
        (q.commands.filter _).length
    rw [h.counted]
    omega
  · intro closed
    show q.commands.filter _ = []
    rw [h.emptied closed, List.filter_nil]

theorem Sound.closed (h : Sound q) : Sound q.terminate := by
  refine ⟨?_, fun _ => rfl⟩
  show q.pending - q.commands.length = 0
  rw [h.counted, Nat.sub_self]

/-- What operations make of a sound queue is sound. -/
theorem Sound.operated (h : Sound q) {cs : List QueuedCommand} (operated : Operated q cs q') :
    Sound q' := by
  induction operated with
  | untouched => exact h
  | posted _ accepted ih => exact ih.posted accepted
  | took _ taken ih => exact ih.took taken
  | tookAll _ id ih => exact ih.tookAll id
  | discarded _ id ih => exact ih.discarded id
  | closed _ ih => exact ih.closed

end RemoteDebugger.CommandQueue
