import Mathlib.Data.List.Induction
import RemoteDebugger.Proofs.Thread.Queue

/-!
# What becomes of posted commands

Any number of threads call the queue, one call after the other in any order. Beside the queue runs a
journal, which has an entry for every command that was accepted, in the order of posting, and says
what has become of it. The queue has no such journal, but it behaves as if it were kept: the
commands that wait are those of the open entries, and what a thread has received are the commands
handed to it, in the order of posting. An entry that is settled stays as it is, so no command is
lost or delivered twice.

Entries are settled from the front of the journal. That is why nothing is delivered to a thread
while an earlier command for it still waits.
-/

namespace RemoteDebugger.CommandQueue

inductive Call where
  | post (c : QueuedCommand)
  | takeFor (id : String)
  | waitFor (id : String)
  | discardFor (id : String)
  | terminate
  deriving DecidableEq, Repr

/-- How much a call takes off the number of waiting commands. -/
def lowersBy (q : CommandQueue) : Call → Nat
  | .post _ => 0
  | .takeFor id => (q.takeFor id).1.length
  | .waitFor id =>
    match (q.waitFor id).1 with
    | .command _ => 1
    | .terminated | .nothing => 0
  | .discardFor id => q.commands.length - (q.discardFor id).commands.length
  | .terminate => q.commands.length

/-- A queue, with the commands that it has accepted and those that it has delivered, in the order in
which it did. -/
structure Traffic where
  queue : CommandQueue := {}
  accepted : List QueuedCommand := []
  deliveries : List (String × QueuedCommand) := []

namespace Traffic

def after (t : Traffic) : Call → Traffic
  | .post c =>
    match t.queue.post c with
    | .ok q => { t with queue := q, accepted := t.accepted ++ [c] }
    | .error _ => t
  | .takeFor id =>
    let (cs, q) := t.queue.takeFor id
    { t with queue := q, deliveries := t.deliveries ++ cs.map fun c => (id, c) }
  | .waitFor id =>
    match t.queue.waitFor id with
    | (.command c, q) => { t with queue := q, deliveries := t.deliveries ++ [(id, c)] }
    | (_, q) => { t with queue := q }
  | .discardFor id => { t with queue := t.queue.discardFor id }
  | .terminate => { t with queue := t.queue.terminate }

/-- What has passed through a new queue. -/
def of (calls : List Call) : Traffic := calls.foldl after {}

/-- The commands that a thread has received, in the order in which it did. -/
def receivedBy (t : Traffic) (id : String) : List QueuedCommand :=
  (t.deliveries.filter fun d => d.1 == id).map Prod.snd

end Traffic

/-- What has become of an accepted command. It waits, or has been settled in one way, and this is
final. -/
inductive Status where
  | queued
  | handed (id : String)
  | discarded (id : String)
  | dropped
  deriving DecidableEq, Repr

/-- An accepted command and what has become of it. -/
structure Entry where
  command : QueuedCommand
  status : Status
  deriving DecidableEq, Repr

namespace Entry

/-- The command still waits, and it is one of these. -/
def Waits (p : QueuedCommand → Bool) (e : Entry) : Prop := e.status = .queued ∧ p e.command = true

instance (p : QueuedCommand → Bool) (e : Entry) : Decidable (e.Waits p) :=
  inferInstanceAs (Decidable (_ ∧ _))

/-- Write down what has become of the commands of a kind that still wait. -/
def settleAll (p : QueuedCommand → Bool) (f : Status) : List Entry → List Entry
  | [] => []
  | e :: rest =>
    if e.Waits p then { e with status := f } :: settleAll p f rest else e :: settleAll p f rest

/-- Write down what has become of the first command of a kind that still waits. -/
def settleFirst (p : QueuedCommand → Bool) (f : Status) : List Entry → List Entry
  | [] => []
  | e :: rest =>
    if e.Waits p then { e with status := f } :: rest else e :: settleFirst p f rest

/-- The commands of which the same has become, in the order of posting. -/
def thatAre (f : Status) (es : List Entry) : List QueuedCommand :=
  (es.filter fun e => e.status = f).map Entry.command

/-- The later state of an entry. One that is settled stays as it is. -/
def Continues (e e' : Entry) : Prop := e'.command = e.command ∧ (e.status = .queued ∨ e' = e)

/-- Nothing is handed to a thread before an earlier command that the thread could take. -/
def NoneOvertaken (es : List Entry) : Prop :=
  es.Pairwise fun earlier later =>
    ∀ id, later.status = .handed id → earlier.command.isFor id = true → earlier.status ≠ .queued

end Entry

/-- The accepted commands in the order of posting, and whether more are accepted. -/
structure Journal where
  entries : List Entry := []
  closed : Bool := false

namespace Journal

/-- What is written down at a call. -/
def after (j : Journal) : Call → Journal
  | .post c => if j.closed then j else { j with entries := j.entries ++ [⟨c, .queued⟩] }
  | .takeFor id => { j with entries := Entry.settleAll (·.isFor id) (.handed id) j.entries }
  | .waitFor id => { j with entries := Entry.settleFirst (·.isFor id) (.handed id) j.entries }
  | .discardFor id =>
    { j with entries := Entry.settleAll (·.target == .thread id) (.discarded id) j.entries }
  | .terminate => { entries := Entry.settleAll (fun _ => true) .dropped j.entries, closed := true }

def of (calls : List Call) : Journal := calls.foldl after {}

end Journal

/-- Some entries of a kind are settled, from the front, and the list has their commands. -/
inductive Settles (p : QueuedCommand → Bool) (f : Status) :
    List Entry → List QueuedCommand → List Entry → Prop
  | done (es : List Entry) : Settles p f es [] es
  | skip {e : Entry} {es es' : List Entry} {cs : List QueuedCommand} (other : ¬ e.Waits p)
      (rest : Settles p f es cs es') : Settles p f (e :: es) cs (e :: es')
  | settle {e : Entry} {es es' : List Entry} {cs : List QueuedCommand} (waits : e.Waits p)
      (rest : Settles p f es cs es') :
      Settles p f (e :: es) (e.command :: cs) ({ e with status := f } :: es')

section

variable {p : QueuedCommand → Bool} {f g : Status} {e : Entry} {es es' : List Entry}
variable {cs : List QueuedCommand}

open Entry

theorem thatAre_cons_of_eq (same : e.status = f) :
    thatAre f (e :: es) = e.command :: thatAre f es := by
  simp [thatAre, same]

theorem thatAre_cons_of_ne (other : e.status ≠ f) : thatAre f (e :: es) = thatAre f es := by
  simp [thatAre, other]

theorem thatAre_append (es es' : List Entry) :
    thatAre f (es ++ es') = thatAre f es ++ thatAre f es' := by
  simp [thatAre]

/-- An entry that is passed over does not match, or is not in the queue any more. -/
theorem status_of_not_waits (other : ¬ e.Waits p) :
    e.status = .queued ∧ ¬ p e.command = true ∨ e.status ≠ .queued := by
  by_cases queued : e.status = .queued
  · exact .inl ⟨queued, fun kind => other ⟨queued, kind⟩⟩
  · exact .inr queued

/-- Settling all entries that match takes exactly those commands, in their order. -/
theorem settles_settleAll (es : List Entry) :
    Settles p f es ((thatAre .queued es).filter p) (settleAll p f es) := by
  induction es with
  | nil => exact .done []
  | cons e es ih =>
      rw [settleAll]
      split
      · rename_i waits
        rw [thatAre_cons_of_eq waits.1, List.filter_cons_of_pos waits.2]
        exact .settle waits ih
      · rename_i other
        obtain ⟨queued, others⟩ | settled := status_of_not_waits other
        · rw [thatAre_cons_of_eq queued, List.filter_cons_of_neg others]
          exact .skip other ih
        · rw [thatAre_cons_of_ne settled]
          exact .skip other ih

/-- Settling the first entry that matches takes this one command, if there is any. -/
theorem settles_settleFirst (es : List Entry) :
    Settles p f es ((thatAre .queued es).find? p).toList (settleFirst p f es) := by
  induction es with
  | nil => exact .done []
  | cons e es ih =>
      rw [settleFirst]
      split
      · rename_i waits
        rw [thatAre_cons_of_eq waits.1, List.find?_cons_of_pos waits.2]
        exact .settle waits (.done es)
      · rename_i other
        obtain ⟨queued, others⟩ | settled := status_of_not_waits other
        · rw [thatAre_cons_of_eq queued, List.find?_cons_of_neg others]
          exact .skip other ih
        · rw [thatAre_cons_of_ne settled]
          exact .skip other ih

/-- All commands of the kind are gone from those that wait. -/
theorem queued_settleAll (closing : f ≠ .queued) (es : List Entry) :
    thatAre .queued (settleAll p f es) = (thatAre .queued es).filter fun c => !p c := by
  induction es with
  | nil => rfl
  | cons e es ih =>
      rw [settleAll]
      split
      · rename_i waits
        rw [thatAre_cons_of_ne closing, thatAre_cons_of_eq waits.1, ih,
          List.filter_cons_of_neg (by simp [waits.2])]
      · rename_i other
        obtain ⟨queued, others⟩ | settled := status_of_not_waits other
        · rw [thatAre_cons_of_eq queued, thatAre_cons_of_eq queued, ih,
            List.filter_cons_of_pos (by simp [others])]
        · rw [thatAre_cons_of_ne settled, thatAre_cons_of_ne settled, ih]

/-- The first command of the kind is gone from those that wait. -/
theorem queued_settleFirst (closing : f ≠ .queued) (es : List Entry) :
    thatAre .queued (settleFirst p f es) = (thatAre .queued es).eraseP p := by
  induction es with
  | nil => rfl
  | cons e es ih =>
      rw [settleFirst]
      split
      · rename_i waits
        rw [thatAre_cons_of_ne closing, thatAre_cons_of_eq waits.1, List.eraseP_cons_of_pos waits.2]
      · rename_i other
        obtain ⟨queued, others⟩ | settled := status_of_not_waits other
        · rw [thatAre_cons_of_eq queued, thatAre_cons_of_eq queued, ih,
            List.eraseP_cons_of_neg others]
        · rw [thatAre_cons_of_ne settled, thatAre_cons_of_ne settled, ih]

theorem Entry.Continues.refl (e : Entry) : e.Continues e := ⟨rfl, .inr rfl⟩

/-- An entry that has continued may continue further. Once it has left the queue, its fate is
fixed. -/
theorem Entry.Continues.trans {e e' e'' : Entry} (first : e.Continues e')
    (second : e'.Continues e'') :
    e.Continues e'' := by
  refine ⟨second.1.trans first.1, ?_⟩
  cases first.2 with
  | inl queued => exact .inl queued
  | inr same =>
      subst same
      exact second.2

/-- Settling entries changes their fates and not their commands. -/
theorem Settles.commands (h : Settles p f es cs es') :
    es'.map Entry.command = es.map Entry.command := by
  induction h with
  | done es => rfl
  | skip _ _ ih => rw [List.map_cons, List.map_cons, ih]
  | settle _ _ ih => rw [List.map_cons, List.map_cons, ih]

/-- Every entry continues, those that were settled and those that were passed over. -/
theorem Settles.continues (h : Settles p f es cs es') {i : Nat} (found : es[i]? = some e) :
    ∃ e', es'[i]? = some e' ∧ e.Continues e' := by
  induction h generalizing i with
  | done es => exact ⟨e, found, .refl e⟩
  | skip _ _ ih =>
      cases i with
      | zero => exact ⟨e, found, .refl e⟩
      | succ i => exact ih found
  | settle waits _ ih =>
      cases i with
      | zero =>
          cases found
          exact ⟨_, rfl, rfl, .inl waits.1⟩
      | succ i => exact ih found

/-- Where no command is taken, no entry has changed. -/
theorem Settles.eq_of_nil (h : Settles p f es [] es') : es' = es := by
  generalize empty : ([] : List QueuedCommand) = cs at h
  induction h with
  | done es => rfl
  | skip _ _ ih => rw [ih empty]
  | settle => cases empty

/-- An entry was there before, or it has just been settled. -/
theorem Settles.mem (h : Settles p f es cs es') (member : e ∈ es') :
    e ∈ es ∨ e.status = f ∧ p e.command = true := by
  induction h with
  | done es => exact .inl member
  | skip _ _ ih =>
      cases member with
      | head => exact .inl List.mem_cons_self
      | tail _ later =>
          cases ih later with
          | inl before => exact .inl (List.mem_cons_of_mem _ before)
          | inr settled => exact .inr settled
  | settle waits _ ih =>
      cases member with
      | head => exact .inr ⟨rfl, waits.2⟩
      | tail _ later =>
          cases ih later with
          | inl before => exact .inl (List.mem_cons_of_mem _ before)
          | inr settled => exact .inr settled

/-- Settling does not touch what was settled in another way. -/
theorem Settles.thatAre_of_ne (h : Settles p f es cs es') (other : f ≠ g) (settled : g ≠ .queued) :
    thatAre g es' = thatAre g es := by
  induction h with
  | done es => rfl
  | @skip e es es' cs _ _ ih =>
      by_cases same : e.status = g
      · rw [thatAre_cons_of_eq same, thatAre_cons_of_eq same, ih]
      · rw [thatAre_cons_of_ne same, thatAre_cons_of_ne same, ih]
  | @settle e es es' cs waits _ ih =>
      have before : e.status ≠ g := fun same => settled (same.symm.trans waits.1)
      rw [thatAre_cons_of_ne other, thatAre_cons_of_ne before, ih]

/-- What is settled comes after what was settled in the same way, since nothing was overtaken. -/
theorem Settles.thatAre_handed {id : String} (h : Settles (·.isFor id) (.handed id) es cs es')
    (order : NoneOvertaken es) :
    thatAre (.handed id) es' = thatAre (.handed id) es ++ cs := by
  induction h with
  | done es => rw [List.append_nil]
  | @skip e es es' cs _ _ ih =>
      have later := ih (List.pairwise_cons.mp order).2
      by_cases same : e.status = .handed id
      · rw [thatAre_cons_of_eq same, thatAre_cons_of_eq same, later, List.cons_append]
      · rw [thatAre_cons_of_ne same, thatAre_cons_of_ne same, later]
  | @settle e es es' cs waits _ ih =>
      obtain ⟨first, rest⟩ := List.pairwise_cons.mp order
      have before : e.status ≠ .handed id := by
        rw [waits.1]
        exact Status.noConfusion
      have untold : thatAre (.handed id) es = [] := by
        rw [thatAre, List.map_eq_nil_iff, List.filter_eq_nil_iff]
        intro later member handed
        exact first later member id (of_decide_eq_true handed) waits.2 waits.1
      have head : thatAre (.handed id) ({ e with status := .handed id } :: es') =
          e.command :: thatAre (.handed id) es' := thatAre_cons_of_eq rfl
      rw [head, thatAre_cons_of_ne before, ih rest, untold]
      rfl

/-- Settling from the front overtakes nothing. -/
theorem Settles.noneOvertaken (h : Settles p f es cs es') (closing : f ≠ .queued)
    (kind : ∀ id c, f = .handed id → c.isFor id = true → p c = true)
    (order : NoneOvertaken es) : NoneOvertaken es' := by
  induction h with
  | done es => exact order
  | @skip e es es' cs other rest ih =>
      obtain ⟨first, later⟩ := List.pairwise_cons.mp order
      refine List.pairwise_cons.mpr ⟨?_, ih later⟩
      intro e' member id handed mine queued
      cases rest.mem member with
      | inl before => exact first e' before id handed mine queued
      | inr settled =>
          apply other
          exact ⟨queued, kind id e.command (settled.1.symm.trans handed) mine⟩
  | @settle e es es' cs _ rest ih =>
      refine List.pairwise_cons.mpr ⟨?_, ih (List.pairwise_cons.mp order).2⟩
      intro e' _ id _ _ queued
      exact closing queued

end

/-- The journal tells what has passed through the queue: the entries that wait are its commands, in
order, and the settled ones were taken or dropped. -/
structure Recorded (t : Traffic) (j : Journal) : Prop where
  sound : t.queue.Sound
  closed : j.closed = t.queue.terminated
  accepted : t.accepted = j.entries.map Entry.command
  waiting : t.queue.commands = Entry.thatAre .queued j.entries
  received : ∀ id, t.receivedBy id = Entry.thatAre (.handed id) j.entries
  order : Entry.NoneOvertaken j.entries

section

variable {t : Traffic} {j : Journal} {q : CommandQueue} {id : String} {c : QueuedCommand}
variable {p : QueuedCommand → Bool} {f : Status} {es : List Entry} {cs : List QueuedCommand}

open Entry

/-- What is delivered to one thread is received by this thread, after what it has received before,
and by no other. -/
theorem receivedBy_deliver (t : Traffic) (id other : String) (cs : List QueuedCommand) :
    Traffic.receivedBy { t with queue := q, deliveries := t.deliveries ++ cs.map fun c =>
      (id, c) } other =
      t.receivedBy other ++ if id = other then cs else [] := by
  simp only [Traffic.receivedBy, List.filter_append, List.map_append, List.filter_map]
  split
  · rename_i same
    simp [Function.comp_def, same]
  · rename_i different
    simp [Function.comp_def, different]

/-- Commands are handed to a thread. -/
theorem Recorded.handed (h : Recorded t j) (sound : q.Sound)
    (terminated : q.terminated = t.queue.terminated)
    (settles : Settles (·.isFor id) (.handed id) j.entries cs es)
    (waiting : q.commands = thatAre .queued es) :
    Recorded { t with queue := q, deliveries := t.deliveries ++ cs.map fun c => (id, c) }
      { j with entries := es } where
  sound := sound
  closed := h.closed.trans terminated.symm
  accepted := h.accepted.trans settles.commands.symm
  waiting := waiting
  received := by
    intro other
    rw [receivedBy_deliver, h.received other]
    split
    · rename_i same
      subst same
      exact (settles.thatAre_handed h.order).symm
    · rename_i different
      rw [List.append_nil]
      apply (settles.thatAre_of_ne ?_ Status.noConfusion).symm
      exact fun same => different (Status.handed.inj same)
  order := by
    apply settles.noneOvertaken Status.noConfusion _ h.order
    intro other c same mine
    rw [Status.handed.inj same]
    exact mine

/-- Commands are removed that no thread receives. -/
theorem Recorded.removed (h : Recorded t j) (sound : q.Sound) {closed : Bool}
    (terminated : closed = q.terminated) (settles : Settles p f j.entries cs es)
    (closing : f ≠ .queued) (unhanded : ∀ id, f ≠ .handed id)
    (waiting : q.commands = thatAre .queued es) :
    Recorded { t with queue := q } { entries := es, closed := closed } where
  sound := sound
  closed := terminated
  accepted := h.accepted.trans settles.commands.symm
  waiting := waiting
  received := by
    intro id
    exact (h.received id).trans (settles.thatAre_of_ne (unhanded id) Status.noConfusion).symm
  order := settles.noneOvertaken closing (fun id _ same => absurd same (unhanded id)) h.order

/-- A command is accepted. -/
theorem Recorded.posted (h : Recorded t j) (accepting : t.queue.terminated = false)
    (c : QueuedCommand) :
    Recorded { t with queue := t.queue.postAll [c], accepted := t.accepted ++ [c] }
      { j with entries := j.entries ++ [⟨c, .queued⟩] } where
  sound := h.sound.posted (post_of_open accepting c)
  closed := h.closed
  accepted := by
    rw [List.map_append, h.accepted]
    rfl
  waiting := by
    show t.queue.commands ++ [c] = _
    rw [thatAre_append, h.waiting]
    rfl
  received := by
    intro id
    rw [thatAre_append, ← h.received id]
    exact (List.append_nil _).symm
  order := by
    refine List.pairwise_append.mpr ⟨h.order, List.pairwise_singleton _ _, ?_⟩
    intro earlier _ later member id handed
    rw [List.mem_singleton.mp member] at handed
    cases handed

/-- A thread that finds nothing leaves everything as it is. -/
theorem Traffic.after_of_nothing (t : Traffic) (same : (t.queue.waitFor id).2 = t.queue)
    (no_command : ∀ c, (t.queue.waitFor id).1 ≠ .command c) : t.after (.waitFor id) = t := by
  rw [Traffic.after]
  split
  · rename_i c q polled
    rw [polled] at no_command
    exact absurd rfl (no_command c)
  · rename_i q _ polled
    rw [polled] at same
    obtain rfl : q = t.queue := same
    rfl

/-- A thread that waits takes the first command for it, or finds none, as in a closed queue. -/
theorem Sound.waitFor_cases (h : q.Sound) (id : String) :
    (∃ c q', q.waitFor id = (.command c, q') ∧ q.takeOne id = some (c, q')) ∨
      (q.waitFor id).2 = q ∧ (∀ c, (q.waitFor id).1 ≠ .command c) ∧
        q.commands.find? (·.isFor id) = none := by
  rw [waitFor]
  split
  · rename_i closed
    refine .inr ⟨rfl, fun _ => Polled.noConfusion, ?_⟩
    rw [h.emptied closed]
    rfl
  · split
    · rename_i c q' taken
      exact .inl ⟨c, q', rfl, taken⟩
    · rename_i no_command
      exact .inr ⟨rfl, fun _ => Polled.noConfusion, Option.map_eq_none_iff.mp no_command⟩

/-- A journal that records the traffic does so after a thread has waited, whatever it has found. -/
theorem Recorded.waited (h : Recorded t j) (id : String) :
    Recorded (t.after (.waitFor id)) (j.after (.waitFor id)) := by
  have settles := settles_settleFirst (p := (·.isFor id)) (f := .handed id) j.entries
  have left := queued_settleFirst (p := (·.isFor id)) (f := .handed id) Status.noConfusion j.entries
  rw [← h.waiting] at settles left
  obtain ⟨c, q, polled, taken⟩ | ⟨same, no_command, nothing⟩ := h.sound.waitFor_cases id
  · obtain ⟨c', found, took⟩ := Option.map_eq_some_iff.mp taken
    obtain ⟨rfl, rfl⟩ := Prod.ext_iff.mp took
    rw [found] at settles
    simp only [Traffic.after, polled, Journal.after]
    exact h.handed (h.sound.took taken) rfl settles left.symm
  · rw [nothing] at settles
    rw [t.after_of_nothing same no_command, Journal.after, settles.eq_of_nil]
    exact h

/-- A journal that records the traffic does so after any further call. -/
theorem Recorded.after (h : Recorded t j) (call : Call) :
    Recorded (t.after call) (j.after call) := by
  cases call with
  | post c =>
      cases closed : t.queue.terminated with
      | true =>
          rw [Journal.after, if_pos (h.closed.trans closed)]
          simp only [Traffic.after, post_of_closed closed]
          exact h
      | false =>
          rw [Journal.after, if_neg (by simp [h.closed, closed])]
          simp only [Traffic.after, post_of_open closed]
          exact h.posted closed c
  | takeFor id =>
      have settles := settles_settleAll (p := (·.isFor id)) (f := .handed id) j.entries
      have left := queued_settleAll (p := (·.isFor id)) (f := .handed id) Status.noConfusion
        j.entries
      rw [← h.waiting] at settles left
      have sound := h.sound.tookAll id
      rw [h.sound.takeFor_eq id] at sound
      simp only [Traffic.after, h.sound.takeFor_eq id]
      exact h.handed sound rfl settles left.symm
  | waitFor id => exact h.waited id
  | discardFor id =>
      apply h.removed (h.sound.discarded id) h.closed (settles_settleAll j.entries)
        Status.noConfusion (fun _ => Status.noConfusion)
      rw [queued_settleAll Status.noConfusion, ← h.waiting]
      rfl
  | terminate =>
      apply h.removed h.sound.closed rfl (settles_settleAll j.entries) Status.noConfusion
        (fun _ => Status.noConfusion)
      rw [queued_settleAll Status.noConfusion]
      simp [CommandQueue.terminate]

/-- A queue that has been closed is empty, and its counter is zero. -/
theorem Sound.eq_of_closed (h : q.Sound) (closed : q.terminated = true) :
    q = { commands := [], pending := 0, terminated := true } := by
  obtain ⟨commands, pending, terminated⟩ := q
  obtain rfl : terminated = true := closed
  obtain rfl : commands = [] := h.emptied rfl
  obtain rfl : pending = 0 := h.counted
  rfl

/-- A closed queue changes no more, and nothing passes through it. -/
theorem Traffic.after_of_closed (sound : t.queue.Sound) (closed : t.queue.terminated = true)
    (call : Call) : t.after call = t := by
  obtain ⟨queue, accepted, deliveries⟩ := t
  obtain rfl := sound.eq_of_closed closed
  cases call with
  | takeFor id => simp [Traffic.after, takeFor, hasPending]
  | post | waitFor | discardFor | terminate => rfl

/-- The number of waiting commands changes by what is accepted and by what a call takes off. -/
theorem Traffic.pending_after (sound : t.queue.Sound) (call : Call) :
    (t.after call).queue.pending + t.queue.lowersBy call + t.accepted.length =
      t.queue.pending + (t.after call).accepted.length := by
  cases call with
  | post c =>
      cases closed : t.queue.terminated with
      | true =>
          simp only [Traffic.after, post_of_closed closed, lowersBy]
          omega
      | false =>
          simp only [Traffic.after, post_of_open closed, lowersBy, postAll, List.length_append,
            List.length_singleton]
          omega
  | takeFor id =>
      have all := (List.filter_append_perm (fun c => c.isFor id) t.queue.commands).length_eq
      rw [List.length_append] at all
      simp only [Traffic.after, lowersBy, sound.takeFor_eq id, sound.counted]
      omega
  | waitFor id =>
      obtain ⟨c, q', polled, taken⟩ | ⟨same, no_command, -⟩ := sound.waitFor_cases id
      · have one_less := (perm_takeOne taken).length_eq
        have counted := (sound.took taken).counted
        simp only [Traffic.after, lowersBy, polled, sound.counted, counted, one_less,
          List.length_cons]
      · have nothing : t.queue.lowersBy (.waitFor id) = 0 := by
          rw [lowersBy]
          split
          · rename_i c polled
            exact absurd polled (no_command c)
          · rfl
          · rfl
        rw [t.after_of_nothing same no_command, nothing]
        omega
  | discardFor id =>
      have fewer := List.length_filter_le (fun c => c.target != .thread id) t.queue.commands
      simp only [Traffic.after, lowersBy, discardFor, sound.counted]
      omega
  | terminate =>
      simp only [Traffic.after, lowersBy, CommandQueue.terminate, sound.counted]
      omega

/-- The counter is never lowered below zero, so lowering it is exact. -/
theorem Sound.lowersBy_le (h : q.Sound) (call : Call) : q.lowersBy call ≤ q.pending := by
  have balance := Traffic.pending_after (t := { queue := q }) h call
  cases call with
  | post c => exact Nat.zero_le _
  | takeFor | discardFor | terminate =>
      simp only [Traffic.after] at balance
      omega
  | waitFor id =>
      have none_accepted : (Traffic.after { queue := q } (.waitFor id)).accepted = [] := by
        rw [Traffic.after]
        split
        · rfl
        · rfl
      simp only [none_accepted] at balance
      omega

/-- A call leaves no entry behind and takes back no fate. -/
theorem Journal.continues_after (j : Journal) (call : Call) {i : Nat} {e : Entry}
    (found : j.entries[i]? = some e) :
    ∃ e', (j.after call).entries[i]? = some e' ∧ e.Continues e' := by
  cases call with
  | post c =>
      rw [Journal.after]
      split
      · exact ⟨e, found, .refl e⟩
      · refine ⟨e, ?_, .refl e⟩
        obtain ⟨within, -⟩ := List.getElem?_eq_some_iff.mp found
        show (j.entries ++ _)[i]? = some e
        rw [List.getElem?_append_left within]
        exact found
  | takeFor | discardFor | terminate => exact (settles_settleAll j.entries).continues found
  | waitFor => exact (settles_settleFirst j.entries).continues found

end

/-- A settled entry has its reason in the calls. -/
def Entry.IsJustified (calls : List Call) (e : Entry) : Prop :=
  match e.status with
  | .queued => True
  | .handed id => e.command.isFor id = true
  | .discarded id => e.command.target = .thread id ∧ .discardFor id ∈ calls
  | .dropped => .terminate ∈ calls

section

variable {calls further : List Call} {call : Call}

theorem Traffic.of_append (calls : List Call) (call : Call) :
    Traffic.of (calls ++ [call]) = (Traffic.of calls).after call :=
  List.foldl_append

theorem Journal.of_append (calls : List Call) (call : Call) :
    Journal.of (calls ++ [call]) = (Journal.of calls).after call :=
  List.foldl_append

/-- After any calls, the journal records the traffic. -/
theorem recorded_of (calls : List Call) : Recorded (Traffic.of calls) (Journal.of calls) := by
  induction calls using List.reverseRecOn with
  | nil =>
      exact { sound := sound_new, closed := rfl, accepted := rfl, waiting := rfl,
              received := fun _ => rfl, order := .nil }
  | append_singleton calls call ih =>
      rw [Traffic.of_append, Journal.of_append]
      exact ih.after call

/-- What has justified the fate of an entry justifies it after further calls. -/
theorem Entry.IsJustified.later {e : Entry} (h : e.IsJustified calls) :
    e.IsJustified (calls ++ [call]) := by
  obtain ⟨c, status⟩ := e
  cases status with
  | queued => trivial
  | handed id => exact h
  | discarded id => exact ⟨h.1, List.mem_append_left _ h.2⟩
  | dropped => exact List.mem_append_left _ h

/-- Every entry has met its fate by a call that accounts for it, and an entry that waits has met
none. -/
theorem isJustified_of (calls : List Call) {e : Entry} (member : e ∈ (Journal.of calls).entries) :
    e.IsJustified calls := by
  induction calls using List.reverseRecOn with
  | nil => cases member
  | append_singleton calls call ih =>
      have now : call ∈ calls ++ [call] := List.mem_append_right _ List.mem_cons_self
      rw [Journal.of_append] at member
      obtain ⟨c, status⟩ := e
      cases call with
      | post c' =>
          rw [Journal.after] at member
          split at member
          · exact (ih member).later
          · cases List.mem_append.mp member with
            | inl before => exact (ih before).later
            | inr new =>
                cases List.mem_singleton.mp new
                trivial
      | takeFor id =>
          obtain before | ⟨rfl, mine⟩ := (settles_settleAll _).mem member
          · exact (ih before).later
          · exact mine
      | waitFor id =>
          obtain before | ⟨rfl, mine⟩ := (settles_settleFirst _).mem member
          · exact (ih before).later
          · exact mine
      | discardFor id =>
          obtain before | ⟨rfl, addressed⟩ := (settles_settleAll _).mem member
          · exact (ih before).later
          · exact ⟨eq_of_beq addressed, now⟩
      | terminate =>
          obtain before | ⟨rfl, -⟩ := (settles_settleAll _).mem member
          · exact (ih before).later
          · exact now

/-- The queue is closed once it has been terminated. -/
theorem closed_of_terminate (member : .terminate ∈ calls) : (Journal.of calls).closed = true := by
  induction calls using List.reverseRecOn with
  | nil => cases member
  | append_singleton calls call ih =>
      rw [Journal.of_append]
      cases call with
      | terminate => rfl
      | post c =>
          have before : .terminate ∈ calls := by simpa using member
          rw [Journal.after, if_pos (ih before)]
          exact ih before
      | takeFor | waitFor | discardFor =>
          have before : .terminate ∈ calls := by simpa using member
          exact ih before

/-- An entry keeps its place, and once it is settled it stays as it is. -/
theorem Journal.continues_of (calls further : List Call) {i : Nat} {e : Entry}
    (found : (Journal.of calls).entries[i]? = some e) :
    ∃ e', (Journal.of (calls ++ further)).entries[i]? = some e' ∧ e.Continues e' := by
  induction further using List.reverseRecOn with
  | nil =>
      rw [List.append_nil]
      exact ⟨e, found, .refl e⟩
  | append_singleton further call ih =>
      obtain ⟨e', found', kept⟩ := ih
      rw [← List.append_assoc, Journal.of_append]
      obtain ⟨e'', found'', kept'⟩ := Journal.continues_after _ call found'
      exact ⟨e'', found'', kept.trans kept'⟩

/-- After the end, nothing is accepted and nothing delivered, whatever calls come. -/
theorem Traffic.of_terminated (terminated : .terminate ∈ calls) (further : List Call) :
    Traffic.of (calls ++ further) = Traffic.of calls := by
  have recorded := recorded_of calls
  have closed := recorded.closed.symm.trans (closed_of_terminate terminated)
  induction further using List.reverseRecOn with
  | nil => rw [List.append_nil]
  | append_singleton further call ih =>
      rw [← List.append_assoc, Traffic.of_append, ih]
      exact Traffic.after_of_closed recorded.sound closed call

/-- What a queue does in all calls. -/
structure DeliversOnceInOrder (calls : List Call) : Prop where
  counted : (Traffic.of calls).queue.pending = (Traffic.of calls).queue.commands.length
  /-- No call takes more off the number of waiting commands than it is. -/
  lowered : ∀ call, (Traffic.of calls).queue.lowersBy call ≤ (Traffic.of calls).queue.pending
  /-- Nothing else changes the number than what is accepted and what is taken off. -/
  balanced : ∀ call,
    (Traffic.of (calls ++ [call])).queue.pending + (Traffic.of calls).queue.lowersBy call +
        (Traffic.of calls).accepted.length =
      (Traffic.of calls).queue.pending + (Traffic.of (calls ++ [call])).accepted.length
  /-- There is one entry for each accepted command. -/
  accepted : (Traffic.of calls).accepted = (Journal.of calls).entries.map Entry.command
  waiting : (Traffic.of calls).queue.commands = Entry.thatAre .queued (Journal.of calls).entries
  received : ∀ id,
    (Traffic.of calls).receivedBy id = Entry.thatAre (.handed id) (Journal.of calls).entries
  justified : ∀ e ∈ (Journal.of calls).entries, e.IsJustified calls
  order : Entry.NoneOvertaken (Journal.of calls).entries
  /-- An entry keeps its place in all later calls, and once it is settled it stays as it is. -/
  settled : ∀ (further : List Call) (i : Nat) (e : Entry), (Journal.of calls).entries[i]? = some e →
    ∃ e', (Journal.of (calls ++ further)).entries[i]? = some e' ∧ e.Continues e'
  /-- A terminated queue is empty and refuses commands, and nothing passes through it any more. -/
  terminated : .terminate ∈ calls →
    (Traffic.of calls).queue = { commands := [], pending := 0, terminated := true } ∧
      (∀ c, (Traffic.of calls).queue.post c = .error .sessionTerminated) ∧
      ∀ further, Traffic.of (calls ++ further) = Traffic.of calls

/-- Every accepted command is delivered once and in order, or still waits, or is removed for a
reason, whatever the threads call. -/
theorem queue_delivers_once_in_order (calls : List Call) : DeliversOnceInOrder calls := by
  have recorded := recorded_of calls
  refine
    { counted := recorded.sound.counted
      lowered := recorded.sound.lowersBy_le
      balanced := ?_
      accepted := recorded.accepted
      waiting := recorded.waiting
      received := recorded.received
      justified := fun _ => isJustified_of calls
      order := recorded.order
      settled := fun further _ _ => Journal.continues_of calls further
      terminated := ?_ }
  · intro call
    rw [Traffic.of_append]
    exact Traffic.pending_after recorded.sound call
  · intro member
    have closed := recorded.closed.symm.trans (closed_of_terminate member)
    exact ⟨recorded.sound.eq_of_closed closed, post_of_closed closed, Traffic.of_terminated member⟩

/-- What operations make of a new queue, calls make of it. -/
theorem Operated.exists_calls {q : CommandQueue} {cs : List QueuedCommand} (h : Operated {} cs q) :
    ∃ calls, (Traffic.of calls).queue = q ∧ (Traffic.of calls).accepted = cs := by
  induction h with
  | untouched => exact ⟨[], rfl, rfl⟩
  | @posted cs q' q'' _ c accepted ih =>
      obtain ⟨calls, rfl, rfl⟩ := ih
      refine ⟨calls ++ [.post c], ?_⟩
      simp [Traffic.of_append, Traffic.after, accepted]
  | @took cs q' q'' before id c taken ih =>
      obtain ⟨calls, rfl, rfl⟩ := ih
      refine ⟨calls ++ [.waitFor id], ?_⟩
      obtain ⟨c', q, polled, took⟩ | ⟨-, -, nothing_waits⟩ :=
        (recorded_of calls).sound.waitFor_cases id
      · cases took.symm.trans taken
        simp [Traffic.of_append, Traffic.after, polled]
      · rw [takeOne, nothing_waits] at taken
        cases taken
  | tookAll _ id ih =>
      obtain ⟨calls, rfl, rfl⟩ := ih
      exact ⟨calls ++ [.takeFor id], by simp [Traffic.of_append, Traffic.after]⟩
  | discarded _ id ih =>
      obtain ⟨calls, rfl, rfl⟩ := ih
      exact ⟨calls ++ [.discardFor id], by simp [Traffic.of_append, Traffic.after]⟩
  | closed _ ih =>
      obtain ⟨calls, rfl, rfl⟩ := ih
      exact ⟨calls ++ [.terminate], by simp [Traffic.of_append, Traffic.after]⟩

end

end RemoteDebugger.CommandQueue
