import RemoteDebugger.Proofs.Session.Registered
import RemoteDebugger.Proofs.Session.Shared

/-!
# Sessions as shared sessions

A session is shown by a shared session in which no call is in the middle of anything. Each thread is
shown by its context, and the call of a stopped thread waits in its stop. The key of the context
stands for the thread of the program that makes the calls about the thread. Which keys the contexts
have is left open; a thread that has departed keeps its own until it leaves its event.

What a session changes at once has its counterpart here: `Shows` is kept by a change of the queue,
of the outbox, of the registered threads, and of one thread by its call.
-/

namespace RemoteDebugger

/-- What the call about a thread is doing. It waits while the thread is stopped. -/
def Thread.Does (t : Thread) (key : Nat) (a : Activity) : Prop :=
  match t.suspension with
  | none => ∃ answer, a = .idle answer
  | some x => a = .calling t.id (.waiting key x.exception.isSome)

/-- A thread is shown by the context of a key. -/
structure Presents (c : SharedSession Nat) (p : Nat × Thread) : Prop where
  context : c.contexts p.1 = ⟨p.2.control, p.2.inEngine⟩
  does : p.2.Does p.1 (c.activity p.1)
  made : p.1 < c.made

/-- The shared session shows a session. Its threads come with the keys of their contexts, those that
have departed apart. -/
structure Shows (c : SharedSession Nat) (s : Session) (known gone : List (Nat × Thread)) :
    Prop where
  ending : c.ending = if s.finished then .closed else .lasting
  lifecycle : c.lifecycle = s.lifecycle
  queue : c.queue = s.queue
  outbox : c.outbox = s.outbox
  threads : known.map Prod.snd = s.threads
  registry : c.registry = known.map fun p => (p.2.id, p.1)
  departed : gone.map Prod.snd = s.departed
  distinct : ((known ++ gone).map Prod.fst).Nodup
  presents : ∀ p ∈ known ++ gone, Presents c p
  others : ∀ i, i ∉ (known ++ gone).map Prod.fst → ∃ answer, c.activity i = .idle answer
  /-- The commands that wait are answered as requests are. -/
  numbered : s.queue.Answers (· % 2 = 1)

open SharedSession Session

/-- What a call does with one context shows in no other thread. -/
theorem Presents.of_ne {c : SharedSession Nat} {p : Nat × Thread} (h : Presents c p) {key : Nat}
    (other : p.1 ≠ key) (x : Context) (a : Activity) : Presents ((c.set key x).doing key a) p where
  context := by
    rw [contexts_doing, contexts_set, Function.update_of_ne other]
    exact h.context
  does := by
    rw [activity_doing, Function.update_of_ne other]
    exact h.does
  made := h.made

namespace Shows

variable {c : SharedSession Nat} {s s' : Session} {known gone : List (Nat × Thread)}

/-- A new session is shown by a shared session that nobody has called. -/
theorem start (setup : Setup) (program : Program) :
    Shows {} (Session.start setup program) [] [] where
  ending := rfl
  lifecycle := rfl
  queue := rfl
  outbox := rfl
  threads := rfl
  registry := rfl
  departed := rfl
  distinct := List.nodup_nil
  presents _ member := absurd member List.not_mem_nil
  others _ _ := ⟨false, rfl⟩
  numbered _ member := absurd member List.not_mem_nil

theorem finished (h : Shows c s known gone) : c.finished = s.finished := by
  rw [SharedSession.finished, h.ending]
  cases s.finished <;> rfl

theorem thread?_eq (h : Shows c s known gone) (id : String) :
    s.thread? id = (known.find? fun p => p.2.id == id).map Prod.snd := by
  rw [thread?, ← h.threads, List.find?_map]
  rfl

/-- The key that is registered for a thread is the one it is shown by. -/
theorem key?_eq (h : Shows c s known gone) (id : String) :
    c.key? id = (known.find? fun p => p.2.id == id).map Prod.fst := by
  rw [key?, h.registry]
  clear h
  induction known with
  | nil => rfl
  | cons p rest ih =>
      rw [List.map_cons, List.lookup_cons, List.find?_cons, BEq.comm]
      cases p.2.id == id with
      | true => rfl
      | false => exact ih

/-- A thread that is not known has no key. Those that have departed keep theirs, but are not found
by it. -/
theorem key?_of_unknown (h : Shows c s known gone) {id : String} (unknown : s.thread? id = none) :
    c.key? id = none := by
  rw [h.thread?_eq, Option.map_eq_none_iff] at unknown
  rw [h.key?_eq, unknown]
  rfl

/-- A registered thread comes with its key. -/
theorem key?_of_known (h : Shows c s known gone) {id : String} {t : Thread}
    (registered : s.thread? id = some t) : ∃ key, (key, t) ∈ known ∧ c.key? id = some key := by
  rw [h.thread?_eq, Option.map_eq_some_iff] at registered
  obtain ⟨⟨key, u⟩, found, rfl⟩ := registered
  refine ⟨key, List.mem_of_find?_eq_some found, ?_⟩
  rw [h.key?_eq, found]
  rfl

/-- Only some of the parts of a session show. -/
theorem congr (h : Shows c s known gone) (finished : s'.finished = s.finished)
    (lifecycle : s'.lifecycle = s.lifecycle) (queue : s'.queue = s.queue)
    (outbox : s'.outbox = s.outbox) (threads : s'.threads = s.threads)
    (departed : s'.departed = s.departed) : Shows c s' known gone where
  ending := by rw [finished]; exact h.ending
  lifecycle := by rw [lifecycle]; exact h.lifecycle
  queue := by rw [queue]; exact h.queue
  outbox := by rw [outbox]; exact h.outbox
  threads := by rw [threads]; exact h.threads
  registry := h.registry
  departed := by rw [departed]; exact h.departed
  distinct := h.distinct
  presents := h.presents
  others := h.others
  numbered := by rw [queue]; exact h.numbered

/-- What is memoized is not shown. It matters to which events are looked at, and this is left open
anyway. -/
theorem memoize (h : Shows c s known gone) (place : Option SkipKey) (generation : Nat) :
    Shows c (s.memoize place generation) known gone := by
  obtain ⟨skips, memoized⟩ := s.memoize_eq place generation
  rw [memoized]
  exact h.congr rfl rfl rfl rfl rfl rfl

/-- A change of the queue shows as the same change, if the commands carry odd numbers. -/
theorem queued (h : Shows c s known gone) {q : CommandQueue} (numbered : q.Answers (· % 2 = 1)) :
    Shows { c with queue := q } { s with queue := q } known gone :=
  { h with
    queue := rfl
    presents := fun p member =>
      ⟨(h.presents p member).context, (h.presents p member).does, (h.presents p member).made⟩
    numbered := numbered }

/-- The controller lets the program start in both. -/
theorem ready (h : Shows c s known gone) :
    Shows { c with lifecycle := c.lifecycle.ready } s.markReady known gone :=
  { h with
    lifecycle := congrArg Lifecycle.ready h.lifecycle
    presents := fun p member =>
      ⟨(h.presents p member).context, (h.presents p member).does, (h.presents p member).made⟩ }

/-- What is sent by one is sent by the other. There is no condition on it here. -/
theorem sent (h : Shows c s known gone) (o : Wire.Outbox) :
    Shows { c with outbox := o } { s with outbox := o } known gone :=
  { h with
    outbox := rfl
    presents := fun p member =>
      ⟨(h.presents p member).context, (h.presents p member).does, (h.presents p member).made⟩ }

theorem notify (h : Shows c s known gone) (command : Wire.Command) (payload : String) :
    Shows (c.notify command payload) (s.notify command payload) known gone := by
  rw [SharedSession.notify, h.outbox]
  exact h.sent _

/-- Commands that have been served show in the outbox. -/
theorem serves (h : Shows c s known gone) (serves : Serves s s') :
    Shows { c with outbox := s'.outbox } s' known gone := by
  refine (h.sent s'.outbox).congr serves.finished ?_ serves.queue rfl serves.threads
    serves.departed
  rw [serves]

/-- A thread that is shown by no context has made a call. -/
theorem idle (h : Shows c s known gone) {i : Nat} (other : i ∉ (known ++ gone).map Prod.fst)
    (answer : Bool) : Shows (c.doing i (.idle answer)) s known gone where
  ending := h.ending
  lifecycle := h.lifecycle
  queue := h.queue
  outbox := h.outbox
  threads := h.threads
  registry := h.registry
  departed := h.departed
  distinct := h.distinct
  presents p member := by
    have apart : p.1 ≠ i := by
      rintro rfl
      exact other (List.mem_map_of_mem member)
    refine ⟨(h.presents p member).context, ?_, (h.presents p member).made⟩
    rw [activity_doing, Function.update_of_ne apart]
    exact (h.presents p member).does
  others j apart := by
    by_cases mine : j = i
    · subst mine
      exact ⟨answer, activity_doing_self ..⟩
    · rw [activity_doing, Function.update_of_ne mine]
      exact h.others j apart
  numbered := h.numbered

/-- A thread of the program is in no call unless a stop that is shown keeps it there. -/
theorem idle_of_awake (h : Shows c s known gone) {i : Nat}
    (awake : ∀ p ∈ known ++ gone, p.1 = i → p.2.suspension = none) :
    ∃ answer, c.activity i = .idle answer := by
  by_cases shown : i ∈ (known ++ gone).map Prod.fst
  · obtain ⟨p, member, rfl⟩ := List.mem_map.mp shown
    have does := (h.presents p member).does
    rwa [Thread.Does, awake p member rfl] at does
  · exact h.others i shown

/-- The next key is free, so a new context is shown by no thread yet. -/
theorem made_notMem (h : Shows c s known gone) : c.made ∉ (known ++ gone).map Prod.fst := by
  intro member
  obtain ⟨p, shown, same⟩ := List.mem_map.mp member
  have less := (h.presents p shown).made
  omega

/-- A new thread is shown by the context that has been made for it. -/
theorem introduce (h : Shows c s known gone) {who : ThreadRef} (new : s.thread? who.id = none) :
    Shows ((c.introduce who.id).notify .threadCreate (Payload.threadCreated who))
      (s.introduce who).1 (known ++ [(c.made, { ref := who })]) gone := by
  have members (p : Nat × Thread) (member : p ∈ known ++ [(c.made, { ref := who })] ++ gone) :
      p = (c.made, { ref := who }) ∨ p ∈ known ++ gone := by
    simp only [List.mem_append, List.mem_singleton] at member ⊢
    tauto
  have keys : ((known ++ [(c.made, ({ ref := who } : Thread))] ++ gone).map Prod.fst).Perm
      (c.made :: (known ++ gone).map Prod.fst) := by
    rw [List.append_assoc, List.singleton_append]
    exact List.perm_middle.map Prod.fst
  rw [introduce_of_new new]
  constructor
  case ending => exact h.ending
  case lifecycle => exact h.lifecycle
  case queue => exact h.queue
  case outbox => exact congrArg (fun o : Wire.Outbox => o.notify _ _) h.outbox
  case threads =>
    rw [List.map_append, h.threads]
    rfl
  case registry =>
    rw [List.map_append, ← h.registry]
    rfl
  case departed => exact h.departed
  case distinct => exact keys.nodup_iff.mpr (List.nodup_cons.mpr ⟨h.made_notMem, h.distinct⟩)
  case presents =>
    intro p member
    rcases members p member with rfl | old
    · obtain ⟨answer, idle⟩ := h.others c.made h.made_notMem
      exact ⟨Function.update_self .., ⟨answer, idle⟩, Nat.lt_succ_self _⟩
    · have before := h.presents p old
      refine ⟨?_, before.does, Nat.lt_succ_of_lt before.made⟩
      exact (Function.update_of_ne (Nat.ne_of_lt before.made) ..).trans before.context
  case others =>
    intro i apart
    exact h.others i fun member => apart (keys.mem_iff.mpr (List.mem_cons_of_mem _ member))
  case numbered => exact h.numbered

/-- One thread in a list of threads with distinct keys has become another one. -/
theorem mem_set {l : List (Nat × Thread)} (distinct : (l.map Prod.fst).Nodup) {i : Nat}
    {key : Nat} {t t' : Thread} (here : l[i]? = some (key, t)) {p : Nat × Thread}
    (member : p ∈ l.set i (key, t')) : p = (key, t') ∨ p ∈ l ∧ p.1 ≠ key := by
  induction l generalizing i with
  | nil => cases here
  | cons q rest ih =>
      rw [List.map_cons, List.nodup_cons] at distinct
      cases i with
      | zero =>
          obtain rfl := Option.some.inj here
          rw [List.set_cons_zero] at member
          rcases List.mem_cons.mp member with rfl | later
          · exact .inl rfl
          · refine .inr ⟨List.mem_cons_of_mem _ later, fun same => distinct.1 ?_⟩
            exact List.mem_map.mpr ⟨p, later, same⟩
      | succ i =>
          have there : rest[i]? = some (key, t) := here
          rw [List.set_cons_succ] at member
          rcases List.mem_cons.mp member with rfl | later
          · refine .inr ⟨List.mem_cons_self, fun same => distinct.1 ?_⟩
            exact List.mem_map.mpr ⟨_, List.mem_of_getElem? there, same.symm⟩
          · exact (ih distinct.2 there later).imp_right fun ⟨old, other⟩ =>
              ⟨List.mem_cons_of_mem _ old, other⟩

/-- A registered thread becomes what its call has made of it. -/
theorem at_known (h : Shows c s known gone) {i key : Nat} {t t' : Thread}
    (here : known[i]? = some (key, t)) (same : t'.id = t.id) {a : Activity}
    (does : t'.Does key a) :
    Shows ((c.set key ⟨t'.control, t'.inEngine⟩).doing key a)
      { s with threads := s.threads.set i t' } (known.set i (key, t')) gone := by
  have distinct := h.distinct
  rw [List.map_append] at distinct
  obtain ⟨first, -, apart⟩ := List.nodup_append.mp distinct
  have there : key ∈ known.map Prod.fst := List.mem_map.mpr ⟨_, List.mem_of_getElem? here, rfl⟩
  have keys : (known.set i (key, t')).map Prod.fst = known.map Prod.fst := map_set_of_eq here rfl
  constructor
  case ending => exact h.ending
  case lifecycle => exact h.lifecycle
  case queue => exact h.queue
  case outbox => exact h.outbox
  case threads => rw [List.map_set, h.threads]
  case registry => rw [map_set_of_eq here (congrArg (·, key) same)]; exact h.registry
  case departed => exact h.departed
  case distinct => rwa [List.map_append, keys]
  case presents =>
    intro p member
    rcases List.mem_append.mp member with registered | left
    · rcases mem_set first here registered with rfl | ⟨old, other⟩
      · refine ⟨?_, ?_, (h.presents _ (List.mem_append_left _ (List.mem_of_getElem? here))).made⟩
        · rw [contexts_doing, contexts_set, Function.update_self]
        · rwa [activity_doing_self]
      · exact (h.presents p (List.mem_append_left _ old)).of_ne other _ a
    · refine (h.presents p (List.mem_append_right _ left)).of_ne ?_ _ a
      exact (apart key there p.1 (List.mem_map_of_mem left)).symm
  case others =>
    intro j other
    rw [List.map_append, keys, ← List.map_append] at other
    have mine : j ≠ key := by
      rintro rfl
      rw [List.map_append] at other
      exact other (List.mem_append_left _ there)
    rw [activity_doing, Function.update_of_ne mine]
    exact h.others j other
  case numbered => exact h.numbered

/-- A thread that has departed becomes what its call has made of it, and is gone when the call is
over. -/
theorem at_gone (h : Shows c s known gone) {i key : Nat} {t t' : Thread}
    (here : gone[i]? = some (key, t)) {a : Activity} (does : t'.Does key a) :
    Shows ((c.set key ⟨t'.control, t'.inEngine⟩).doing key a)
      { s with departed := (s.departed.set i t').filter fun t => t.suspension.isSome } known
      ((gone.set i (key, t')).filter fun p => p.2.suspension.isSome) := by
  have distinct := h.distinct
  rw [List.map_append] at distinct
  obtain ⟨-, second, apart⟩ := List.nodup_append.mp distinct
  have there : key ∈ gone.map Prod.fst := List.mem_map.mpr ⟨_, List.mem_of_getElem? here, rfl⟩
  have keys : (gone.set i (key, t')).map Prod.fst = gone.map Prod.fst := map_set_of_eq here rfl
  constructor
  case ending => exact h.ending
  case lifecycle => exact h.lifecycle
  case queue => exact h.queue
  case outbox => exact h.outbox
  case threads => exact h.threads
  case registry => exact h.registry
  case departed =>
    have moved : (gone.set i (key, t')).map Prod.snd = (gone.map Prod.snd).set i t' := List.map_set
    rw [← h.departed]
    dsimp only
    rw [← moved, List.filter_map]
    rfl
  case distinct =>
    rw [List.map_append]
    refine distinct.sublist (List.Sublist.append (List.Sublist.refl _) ?_)
    rw [← keys]
    exact List.filter_sublist.map Prod.fst
  case presents =>
    intro p member
    rcases List.mem_append.mp member with registered | left
    · refine (h.presents p (List.mem_append_left _ registered)).of_ne ?_ _ a
      exact apart p.1 (List.mem_map_of_mem registered) key there
    · rcases mem_set second here (List.mem_filter.mp left).1 with rfl | ⟨old, other⟩
      · refine ⟨?_, ?_, (h.presents _ (List.mem_append_right _ (List.mem_of_getElem? here))).made⟩
        · rw [contexts_doing, contexts_set, Function.update_self]
        · rwa [activity_doing_self]
      · exact (h.presents p (List.mem_append_right _ old)).of_ne other _ a
  case others =>
    intro j other
    -- a thread that is not shown any more has left its event
    have awake {p : Nat × Thread} (member : p ∈ gone.set i (key, t')) (same : p.1 = j) :
        p.2.suspension = none := by
      rw [← Option.not_isSome_iff_eq_none]
      intro stopped
      refine other (List.mem_map.mpr ⟨p, List.mem_append_right _ ?_, same⟩)
      exact List.mem_filter.mpr ⟨member, stopped⟩
    obtain ⟨bound, found⟩ := List.getElem?_eq_some_iff.mp here
    by_cases mine : j = key
    · subst mine
      have left := awake (List.mem_set bound _) rfl
      rw [activity_doing_self]
      rwa [Thread.Does, left] at does
    · rw [activity_doing, Function.update_of_ne mine]
      refine h.idle_of_awake fun p member same => ?_
      rcases List.mem_append.mp member with registered | departed
      · exact absurd (List.mem_map.mpr ⟨p, List.mem_append_left _ registered, same⟩) other
      · obtain ⟨k, there⟩ := List.mem_iff_getElem?.mp departed
        have elsewhere : i ≠ k := by
          rintro rfl
          obtain rfl := Option.some.inj (here.symm.trans there)
          exact mine same.symm
        refine awake (List.mem_iff_getElem?.mpr ⟨k, ?_⟩) same
        rwa [List.getElem?_set_ne elsewhere]
  case numbered => exact h.numbered

/-- The thread of a context has made a call that changes nothing. -/
theorem rest (h : Shows c s known gone) {key : Nat} {t : Thread} (member : (key, t) ∈ known)
    (awake : t.suspension = none) (answer : Bool) :
    Shows (c.doing key (.idle answer)) s known gone := by
  obtain ⟨i, here⟩ := List.mem_iff_getElem?.mp member
  have does : t.Does key (.idle answer) := by
    rw [Thread.Does, awake]
    exact ⟨answer, rfl⟩
  have registered : s.threads[i]? = some t := by
    rw [← h.threads, List.getElem?_map, here]
    rfl
  have shown := h.at_known here rfl does
  have same : known.set i (key, t) = known := by
    obtain ⟨bound, found⟩ := List.getElem?_eq_some_iff.mp here
    rw [← found, List.set_getElem_self]
  rwa [set_self (h.presents _ (List.mem_append_left _ member)).context, set_of_here registered,
    same] at shown

/-- The key that stands for the thread that makes a call about a thread. A stopped thread makes none
itself. -/
def caller (c : SharedSession Nat) (key : Nat) (t : Thread) : Nat :=
  if t.suspension.isSome then c.made else key

/-- When the call about a thread has returned, the thread of the program that has made it is free
again. -/
theorem returned (h : Shows c s known gone) {key : Nat} {t : Thread} (member : (key, t) ∈ known)
    (answer : Bool) : Shows (c.doing (caller c key t) (.idle answer)) s known gone := by
  rw [caller]
  split
  · exact h.idle h.made_notMem answer
  · rename_i awake
    exact h.rest member (by simpa using awake) answer

/-- Elements that a key tells apart: one of them, and those with other keys. -/
theorem perm_cons_filter {α β : Type} [DecidableEq β] {f : α → β} {l : List α}
    (distinct : (l.map f).Nodup) {x : α} (member : x ∈ l) :
    l.Perm (x :: l.filter fun y => f y != f x) := by
  obtain ⟨before, after, rfl⟩ := List.append_of_mem member
  rw [List.map_append, List.map_cons, List.nodup_middle, List.nodup_cons, ← List.map_append]
    at distinct
  have kept : (before ++ after).filter (fun y => f y != f x) = before ++ after :=
    List.filter_eq_self.mpr fun y other => bne_iff_ne.mpr fun same =>
      distinct.1 (List.mem_map.mpr ⟨y, other, same⟩)
  rw [List.filter_append] at kept
  rw [List.filter_append, List.filter_cons_of_neg (by simp), kept]
  exact List.perm_middle

/-- The commands that wait are answered as before when some are dropped. -/
theorem discarded (h : Shows c s known gone) (id : String) :
    (s.queue.discardFor id).Answers (· % 2 = 1) :=
  fun k member => h.numbered k (List.mem_filter.mp member).1

/-- A thread that exits is registered no more. One that is stopped stays in its call. -/
theorem remove (h : Shows c s known gone) (distinct : (s.threads.map Thread.id).Nodup) {key : Nat}
    {t : Thread} (member : (key, t) ∈ known) :
    Shows (c.remove t.id) { s with
        threads := s.threads.filter fun u => u.id != t.id
        departed := if t.suspension.isSome then s.departed ++ [t] else s.departed }
      (known.filter fun p => p.2.id != t.id)
      (if t.suspension.isSome then gone ++ [(key, t)] else gone) := by
  have ids : (known.map fun p => p.2.id).Nodup := by
    rwa [← h.threads, List.map_map] at distinct
  have without : (known ++ gone).Perm
      ((key, t) :: ((known.filter fun p => p.2.id != t.id) ++ gone)) :=
    (perm_cons_filter ids member).append_right gone
  have after : ((known.filter fun p => p.2.id != t.id) ++
      if t.suspension.isSome then gone ++ [(key, t)] else gone).Perm
      ((if t.suspension.isSome then [(key, t)] else []) ++
        ((known.filter fun p => p.2.id != t.id) ++ gone)) := by
    split
    · rw [← List.append_assoc]
      exact List.perm_append_comm
    · exact .refl _
  constructor
  case ending => exact h.ending
  case lifecycle => exact h.lifecycle
  case queue => exact h.queue
  case outbox => exact h.outbox
  case threads =>
    rw [← h.threads, List.filter_map]
    rfl
  case registry =>
    rw [SharedSession.remove, h.registry, List.filter_map]
    rfl
  case departed =>
    split
    · rw [List.map_append, h.departed]
      rfl
    · exact h.departed
  case distinct =>
    have nodup := (without.map Prod.fst).nodup_iff.mp h.distinct
    rw [(after.map Prod.fst).nodup_iff]
    split
    · exact nodup
    · exact (List.nodup_cons.mp nodup).2
  case presents =>
    intro p shown
    have before : p ∈ known ++ gone := by
      rw [without.mem_iff]
      rw [after.mem_iff] at shown
      rcases List.mem_append.mp shown with left | other
      · split at left
        · exact List.mem_singleton.mp left ▸ List.mem_cons_self
        · cases left
      · exact List.mem_cons_of_mem _ other
    exact ⟨(h.presents p before).context, (h.presents p before).does, (h.presents p before).made⟩
  case others =>
    intro j other
    refine h.idle_of_awake ?_
    rintro p before rfl
    have lost : p ∉ _ := fun left => other (List.mem_map_of_mem (after.mem_iff.mpr left))
    rcases List.mem_cons.mp (without.mem_iff.mp before) with rfl | left
    · split at lost
      · exact absurd (List.mem_append_left _ List.mem_cons_self) lost
      · rename_i awake
        simpa using awake
    · exact absurd (List.mem_append_right _ left) lost
  case numbered => exact h.numbered

/-- A request to stop shows in no context. -/
theorem askedAll (h : Shows c s known gone) :
    Shows c { s with threads := s.threads.map Thread.asked }
      (known.map fun p => (p.1, p.2.asked)) gone := by
  have keys : ((known.map fun p => (p.1, p.2.asked)) ++ gone).map Prod.fst =
      (known ++ gone).map Prod.fst := by
    rw [List.map_append, List.map_append, List.map_map]
    rfl
  constructor
  case ending => exact h.ending
  case lifecycle => exact h.lifecycle
  case queue => exact h.queue
  case outbox => exact h.outbox
  case threads =>
    rw [List.map_map, ← h.threads, List.map_map]
    rfl
  case registry =>
    rw [List.map_map]
    exact h.registry
  case departed => exact h.departed
  case distinct => rw [keys]; exact h.distinct
  case presents =>
    intro p member
    rcases List.mem_append.mp member with asked | left
    · obtain ⟨q, known, rfl⟩ := List.mem_map.mp asked
      have before := h.presents q (List.mem_append_left _ known)
      exact ⟨before.context, before.does, before.made⟩
    · exact h.presents p (List.mem_append_right _ left)
  case others =>
    rw [keys]
    exact h.others
  case numbered => exact h.numbered

/-- A request to stop sets a flag that is not shown. It makes events be decided otherwise, which is
left open anyway. -/
theorem asked (h : Shows c s known gone) (distinct : (s.threads.map Thread.id).Nodup) {t : Thread}
    (registered : s.thread? t.id = some t) :
    ∃ known', Shows c (s.putThread t.asked) known' gone := by
  obtain ⟨key, member, -⟩ := h.key?_of_known registered
  obtain ⟨i, here⟩ := List.mem_iff_getElem?.mp member
  have there : s.threads[i]? = some t := by
    rw [← h.threads, List.getElem?_map, here]
    rfl
  have presents := h.presents _ (List.mem_append_left _ member)
  have same : t.asked.id = t.id := rfl
  have does : t.asked.Does key (c.activity key) := presents.does
  have shown := h.at_known here same does
  have context : c.contexts key = ⟨t.asked.control, t.asked.inEngine⟩ := presents.context
  rw [set_self context, doing_self rfl] at shown
  refine ⟨_, shown.congr rfl rfl rfl rfl ?_ rfl⟩
  exact map_replace distinct there same

/-- A session that ends is shown by all steps of the end. -/
theorem ended (h : Shows c s known gone) (lasting : s.finished = false) :
    Shows c.ended s.finish (known.map fun p => (p.1, p.2.resume .running 0)) gone := by
  rw [Session.finish, if_neg (by simp [lasting])]
  have registered : c.registry.map Prod.snd = known.map Prod.fst := by
    rw [h.registry, List.map_map]
    rfl
  have distinct := h.distinct
  rw [List.map_append] at distinct
  obtain ⟨-, -, apart⟩ := List.nodup_append.mp distinct
  have keys : ((known.map fun p => (p.1, p.2.resume .running 0)) ++ gone).map Prod.fst =
      (known ++ gone).map Prod.fst := by
    rw [List.map_append, List.map_append, List.map_map]
    rfl
  constructor
  case ending => rfl
  case lifecycle => rfl
  case queue => exact congrArg CommandQueue.terminate h.queue
  case outbox => exact congrArg Wire.Outbox.close h.outbox
  case threads =>
    rw [List.map_map, ← h.threads, List.map_map]
    rfl
  case registry =>
    rw [List.map_map]
    exact h.registry
  case departed => exact h.departed
  case distinct => rw [keys]; exact h.distinct
  case presents =>
    intro p member
    rcases List.mem_append.mp member with woken | left
    · obtain ⟨q, known, rfl⟩ := List.mem_map.mp woken
      have before := h.presents q (List.mem_append_left _ known)
      refine ⟨?_, before.does, before.made⟩
      show SharedSession.woken _ _ _ = _
      rw [registered, SharedSession.woken, if_pos (List.mem_map_of_mem known), before.context]
      rfl
    · have before := h.presents p (List.mem_append_right _ left)
      refine ⟨?_, before.does, before.made⟩
      show SharedSession.woken _ _ _ = _
      rw [registered, SharedSession.woken, if_neg ?_, before.context]
      exact fun known => apart _ known _ (List.mem_map_of_mem left) rfl
  case others =>
    rw [keys]
    exact h.others
  case numbered => exact fun k member => absurd member List.not_mem_nil

end Shows

end RemoteDebugger
