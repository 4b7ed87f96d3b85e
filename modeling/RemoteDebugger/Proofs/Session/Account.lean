import Mathlib.Logic.ExistsUnique
import RemoteDebugger.Proofs.Session.Turnover

/-!
# Accounts of requests

A session keeps an account of what it owes. Notifications are numbered with the even numbers in
order. The number of a request is carried by at most one message, or by one command that waits or
has been dropped; and by exactly one of these if the request is promised an answer. This holds along
every run in which the controller numbers its requests with distinct odd numbers.
-/

namespace RemoteDebugger

def Input.seq? : Input → Option Int
  | .request _ seq _ => some seq
  | _ => none

/-- A number occurs among those of the requests exactly if some request in the inputs carries it. -/
theorem Input.mem_seqs {inputs : List Input} {n : Int} :
    n ∈ inputs.filterMap seq? ↔ ∃ code payload, request code n payload ∈ inputs := by
  constructor
  · intro member
    obtain ⟨i, known, numbered⟩ := List.mem_filterMap.mp member
    cases i with
    | request code seq payload =>
        obtain rfl := Option.some.inj numbered
        exact ⟨code, payload, known⟩
    | threadStarted | threadExited | event | serve | console | finish | program => cases numbered
  · rintro ⟨code, payload, known⟩
    exact List.mem_filterMap.mpr ⟨_, known, rfl⟩

/-- If the input is a request, its number is odd, and no request in the past had it. -/
def Input.IsNew (i : Input) (past : List Input) : Prop :=
  ∀ n, i.seq? = some n → n % 2 = 1 ∧ n ∉ past.filterMap seq?

/-- The numbers of the requests that wait for the answers of commands. -/
def QueuedCommand.numbers (cs : List QueuedCommand) : List Int :=
  cs.filterMap fun c => c.action.seq?

theorem QueuedCommand.numbers_append (cs ds : List QueuedCommand) :
    numbers (cs ++ ds) = numbers cs ++ numbers ds :=
  List.filterMap_append

/-- The actions answer under odd numbers. -/
def Action.AllOdd (as : List Action) : Prop := ∀ a ∈ as, ∀ n, a.seq? = some n → n % 2 = 1

theorem Action.AllOdd.init {as : List Action} {a : Action} (h : AllOdd (as ++ [a])) : AllOdd as :=
  fun b earlier => h b (List.mem_append_left _ earlier)

namespace Wire.Outbox

def numbers (o : Outbox) : List Int := o.messages.map Message.seq

def notifications (o : Outbox) : List Message := o.messages.filter fun m => m.seq % 2 = 0

def evenNumbers (k : Nat) : List Int := (List.range k).map fun i : Nat => 2 * ((i : Int) + 1)

theorem evenNumbers_succ (k : Nat) :
    evenNumbers (k + 1) = evenNumbers k ++ [2 * ((k : Int) + 1)] := by
  rw [evenNumbers, List.range_succ, List.map_append]
  rfl

/-- The messages with even numbers are notifications, and are numbered in order. -/
structure Numbered (o : Outbox) : Prop where
  last : o.lastSeq = 2 * (o.notifications.length : Int)
  inOrder : o.notifications.map Message.seq = evenNumbers o.notifications.length
  notices : ∀ m ∈ o.notifications, m.command.isNotification = true

theorem evenNumbers_nodup (k : Nat) : (evenNumbers k).Nodup := by
  refine List.pairwise_map.mpr (List.nodup_range.imp ?_)
  intro i j other
  omega

variable {o o' : Outbox} {as : List Action}

/-- No two notifications carry the same number. -/
theorem Numbered.count_le (h : o.Numbered) {n : Int} (even : n % 2 = 0) :
    o.numbers.count n ≤ 1 := by
  have even_numbers : o.numbers.filter (fun n => n % 2 = 0) = o.notifications.map Message.seq :=
    List.filter_map
  have same : (o.notifications.map Message.seq).count n = o.numbers.count n := by
    rw [← even_numbers, List.count_filter (by simpa only [decide_eq_true_eq] using even)]
  rw [← same, h.inOrder]
  exact List.nodup_iff_count.mp (evenNumbers_nodup _) n

/-- Under an odd number an answer cannot be taken for a notification. -/
theorem notifications_respond {n : Int} (odd : n % 2 = 1) (c : Command) (payload : String) :
    (o.respond c n payload).notifications = o.notifications := by
  have not_even : ¬ n % 2 = 0 := by omega
  have none_new : [Message.mk c n payload].filter (fun m => m.seq % 2 = 0) = [] :=
    List.filter_cons_of_neg (by simpa only [decide_eq_true_eq] using not_even)
  rw [notifications, messages_respond, List.filter_append, none_new, List.append_nil, notifications]

/-- The next notification takes the next even number. -/
theorem Numbered.notify (h : o.Numbered) {c : Command} (notice : c.isNotification = true)
    (payload : String) : (o.notify c payload).Numbered := by
  have even : (o.lastSeq + 2) % 2 = 0 := by
    rw [h.last]
    omega
  have grown : (o.notify c payload).notifications =
      o.notifications ++ [⟨c, o.lastSeq + 2, payload⟩] := by
    have one_new : [Message.mk c (o.lastSeq + 2) payload].filter (fun m => m.seq % 2 = 0) =
        [⟨c, o.lastSeq + 2, payload⟩] :=
      List.filter_cons_of_pos (by simpa only [decide_eq_true_eq] using even)
    rw [notifications, messages_notify, List.filter_append, one_new, notifications]
  constructor
  · rw [grown, List.length_append]
    show o.lastSeq + 2 = _
    rw [h.last]
    simp only [List.length_singleton]
    omega
  · rw [grown, List.length_append, List.length_singleton, List.map_append, h.inOrder,
      evenNumbers_succ]
    have next : o.lastSeq + 2 = 2 * ((o.notifications.length : Int) + 1) := by
      rw [h.last]
      omega
    simp only [List.map_cons, List.map_nil, next]
  · intro m member
    rw [grown] at member
    rcases List.mem_append.mp member with before | new
    · exact h.notices m before
    · obtain rfl := List.mem_singleton.mp new
      exact notice

/-- What sends no notifications leaves their numbering alone. -/
theorem Numbered.of_same (h : o.Numbered) (same : o'.notifications = o.notifications)
    (last : o'.lastSeq = o.lastSeq) : o'.Numbered := by
  constructor
  · rw [last, same]
    exact h.last
  · rw [same]
    exact h.inOrder
  · rw [same]
    exact h.notices

theorem Numbered.respond (h : o.Numbered) {n : Int} (odd : n % 2 = 1) (c : Command)
    (payload : String) : (o.respond c n payload).Numbered :=
  h.of_same (notifications_respond odd c payload) rfl

theorem Numbered.close (h : o.Numbered) : o.close.Numbered := by
  refine h.of_same ?_ rfl
  rw [notifications, messages_close, notifications]

/-- What is answered under odd numbers leaves the numbering of notifications alone. -/
theorem Numbered.settles (h : o.Numbered) (settles : Settles o as o')
    (odd : Action.AllOdd as) : o'.Numbered := by
  induction settles with
  | nothing => exact h
  | notified _ payload notice ih => exact (ih odd).notify notice payload
  | closed _ ih => exact (ih odd).close
  | silent _ _ ih => exact ih odd.init
  | answered _ payload numbered _ ih =>
      exact (ih odd.init).respond (odd _ (by simp) _ numbered) _ payload

@[simp] theorem numbers_respond (o : Outbox) (c : Command) (n : Int) (payload : String) :
    (o.respond c n payload).numbers = o.numbers ++ [n] := by
  rw [numbers, messages_respond, List.map_append]
  rfl

@[simp] theorem numbers_close (o : Outbox) : o.close.numbers = o.numbers := by
  rw [numbers, messages_close, numbers]

/-- A notification takes an even number, so it answers no request. -/
theorem count_notify (even : o.lastSeq % 2 = 0) {n : Int} (odd : n % 2 = 1) (c : Command)
    (payload : String) : (o.notify c payload).numbers.count n = o.numbers.count n := by
  have other : o.lastSeq + 2 ≠ n := by omega
  rw [numbers, messages_notify, List.map_append, List.count_append, numbers]
  simp [other]

theorem Numbered.even (h : o.Numbered) : o.lastSeq % 2 = 0 := by
  rw [h.last]
  omega

/-- Every message with an odd number that is new answers one of the actions. -/
theorem Settles.mem (settles : Settles o as o') (h : o.Numbered)
    (odd : Action.AllOdd as) {m : Message} (sent : m ∈ o'.messages)
    (mine : m.seq % 2 = 1) :
    m ∈ o.messages ∨
      ∃ a ∈ as, a.seq? = some m.seq ∧ (m.command = .error ∨ a.answer? = some m.command) := by
  induction settles with
  | nothing => exact .inl sent
  | notified before payload _ ih =>
      rw [messages_notify] at sent
      rcases List.mem_append.mp sent with earlier | new
      · exact ih odd earlier
      · obtain rfl := List.mem_singleton.mp new
        have even := (h.settles before odd).even
        dsimp only at mine
        omega
  | closed _ ih =>
      rw [messages_close] at sent
      exact ih odd sent
  | silent _ _ ih =>
      rcases ih odd.init sent with before | ⟨a, known, answers⟩
      · exact .inl before
      · exact .inr ⟨a, List.mem_append_left _ known, answers⟩
  | answered _ payload numbered entitled ih =>
      rw [messages_respond] at sent
      rcases List.mem_append.mp sent with earlier | new
      · rcases ih odd.init earlier with
          before | ⟨a, known, answers⟩
        · exact .inl before
        · exact .inr ⟨a, List.mem_append_left _ known, answers⟩
      · obtain rfl := List.mem_singleton.mp new
        exact .inr ⟨_, by simp, numbered, entitled⟩

/-- An action is answered at most once. -/
theorem Settles.count_le (settles : Settles o as o') (h : o.Numbered)
    (odd : Action.AllOdd as) {n : Int} (mine : n % 2 = 1) :
    o'.numbers.count n ≤ o.numbers.count n + (as.filterMap Action.seq?).count n := by
  induction settles with
  | nothing => simp
  | notified before payload _ ih =>
      rw [count_notify (h.settles before odd).even mine]
      exact ih odd
  | closed _ ih =>
      rw [numbers_close]
      exact ih odd
  | silent _ _ ih =>
      have earlier := ih odd.init
      rw [List.filterMap_append, List.count_append]
      omega
  | answered _ payload numbered _ ih =>
      have earlier := ih odd.init
      rw [numbers_respond, List.filterMap_append, List.count_append, List.count_append]
      simp only [List.filterMap_cons, numbered, List.filterMap_nil]
      omega

/-- An action that is promised an answer is answered exactly once. -/
theorem Settles.count_eq (settles : Settles o as o') (h : o.Numbered)
    (odd : Action.AllOdd as) {n : Int} (mine : n % 2 = 1)
    (promised : ∀ a ∈ as, a.seq? = some n → a.answer? ≠ none) :
    o'.numbers.count n = o.numbers.count n + (as.filterMap Action.seq?).count n := by
  induction settles with
  | nothing => simp
  | notified before payload _ ih =>
      rw [count_notify (h.settles before odd).even mine]
      exact ih odd promised
  | closed _ ih =>
      rw [numbers_close]
      exact ih odd promised
  | @silent as o' _ a plain ih =>
      have earlier := ih odd.init fun a earlier => promised a (List.mem_append_left _ earlier)
      have other : a.seq? ≠ some n := by
        intro numbered
        exact promised a (by simp) numbered plain
      rw [List.filterMap_append, List.count_append, earlier]
      cases numbered : a.seq? with
      | none => simp [numbered]
      | some k =>
          have not_mine : k ≠ n := by
            rintro rfl
            exact other numbered
          simp [numbered, not_mine]
  | answered _ payload numbered _ ih =>
      have earlier := ih odd.init fun a earlier => promised a (List.mem_append_left _ earlier)
      rw [numbers_respond, List.filterMap_append, List.count_append, List.count_append, earlier]
      simp only [List.filterMap_cons, numbered, List.filterMap_nil]
      omega

end Wire.Outbox

namespace Session

open Wire (Command)
open Wire.Outbox
open QueuedCommand (numbers)

/-- What can have become of a request for an answer. Each of them is shown by messages or commands
that can be counted. -/
inductive Fate where
  | answered
  | waiting
  | dropped
  deriving DecidableEq, Repr

/-- A request whose three counts add up to one has met exactly one fate. -/
theorem Fate.existsUnique {carriers : Fate → Nat}
    (h : carriers .answered + carriers .waiting + carriers .dropped = 1) :
    ∃! fate, carriers fate = 1 := by
  have parts : carriers .answered = 1 ∨ carriers .waiting = 1 ∨ carriers .dropped = 1 := by omega
  rcases parts with answered | waiting | dropped
  · refine ⟨.answered, answered, ?_⟩
    intro fate one
    cases fate <;> first | rfl | omega
  · refine ⟨.waiting, waiting, ?_⟩
    intro fate one
    cases fate <;> first | rfl | omega
  · refine ⟨.dropped, dropped, ?_⟩
    intro fate one
    cases fate <;> first | rfl | omega

/-- How many messages or commands show that the request with a number has met a fate, in a session
that has dropped some commands. -/
def carriers (s : Session) (gone : List QueuedCommand) (n : Int) : Fate → Nat
  | .answered => s.outbox.numbers.count n
  | .waiting => (numbers s.queue.commands).count n
  | .dropped => (numbers gone).count n

/-- How often a number is carried in all. -/
def tally (s : Session) (gone : List QueuedCommand) (n : Int) : Nat :=
  s.outbox.numbers.count n + (numbers s.queue.commands).count n + (numbers gone).count n

/-- The account of a session that has reacted to some inputs and has dropped some commands. -/
structure Ledger (s : Session) (past : List Input) (gone : List QueuedCommand) : Prop where
  numbered : s.outbox.Numbered
  /-- A message with an odd number answers a request: with an error, or as promised. -/
  answers : ∀ m ∈ s.outbox.messages, m.seq % 2 = 1 → ∃ code payload,
    Input.request code m.seq payload ∈ past ∧
      (m.command = .error ∨ Command.promised code = some m.command)
  /-- A command answers under the number of a request, and as this request is promised. -/
  owed : ∀ c ∈ s.queue.commands ++ gone, ∀ n, c.action.seq? = some n →
    n % 2 = 1 ∧ n ∈ past.filterMap Input.seq? ∧
      ∀ code payload, Input.request code n payload ∈ past → Command.promised code = c.action.answer?
  once : ∀ n, n % 2 = 1 → s.tally gone n ≤ 1
  /-- A request that is promised an answer is not lost. -/
  kept : ∀ code n payload, Input.request code n payload ∈ past → Command.promised code ≠ none →
    n % 2 = 1 ∧ s.tally gone n = 1

/-- In a new session there is nothing to account for. -/
theorem ledger_start (setup : Setup) (program : Program) : Ledger (start setup program) [] [] where
  numbered := ⟨rfl, rfl, fun _ sent => absurd sent List.not_mem_nil⟩
  answers _ sent := absurd sent List.not_mem_nil
  owed _ member := absurd member List.not_mem_nil
  once _ _ := Nat.zero_le 1
  kept _ _ _ known := absurd known List.not_mem_nil

section

variable {s s' : Session} {past : List Input} {gone lost : List QueuedCommand}

/-- Whatever becomes of commands, the account stays right. -/
theorem Ledger.turnover (h : Ledger s past gone) (turnover : Turnover s s' lost) :
    Ledger s' past (gone ++ lost) := by
  obtain ⟨done, queue, settles⟩ := turnover
  have mine (c : QueuedCommand) (taken : c ∈ done) : c ∈ s.queue.commands ++ gone :=
    List.mem_append_left _ (queue.mem_iff.mpr (List.mem_append_left _ taken))
  have odd : Action.AllOdd (done.map QueuedCommand.action) := by
    intro a taken n numbered
    obtain ⟨c, member, rfl⟩ := List.mem_map.mp taken
    exact (h.owed c (mine c member) n numbered).1
  have counts (n : Int) : (numbers s.queue.commands).count n =
      ((done.map QueuedCommand.action).filterMap Action.seq?).count n +
        ((numbers lost).count n + (numbers s'.queue.commands).count n) := by
    have same := (queue.filterMap fun c => c.action.seq?).count_eq n
    rw [List.filterMap_append, List.filterMap_append, List.count_append, List.count_append] at same
    rwa [List.filterMap_map]
  constructor
  · exact h.numbered.settles settles odd
  · intro m sent odd_number
    rcases settles.mem h.numbered odd sent odd_number with before | ⟨a, taken, numbered, answer⟩
    · exact h.answers m before odd_number
    · obtain ⟨c, member, rfl⟩ := List.mem_map.mp taken
      obtain ⟨-, asked, promised⟩ := h.owed c (mine c member) _ numbered
      obtain ⟨code, payload, known⟩ := Input.mem_seqs.mp asked
      refine ⟨code, payload, known, answer.imp_right ?_⟩
      exact (promised code payload known).trans
  · intro c member
    refine h.owed c ?_
    rcases List.mem_append.mp member with waits | dropped
    · exact List.mem_append_left _ (queue.mem_iff.mpr (by simp [waits]))
    · rcases List.mem_append.mp dropped with before | new
      · exact List.mem_append_right _ before
      · exact List.mem_append_left _ (queue.mem_iff.mpr (by simp [new]))
  · intro n odd_number
    have at_most := settles.count_le h.numbered odd odd_number
    have before := h.once n odd_number
    have same := counts n
    rw [tally, QueuedCommand.numbers_append, List.count_append]
    rw [tally] at before
    omega
  · intro code n payload known wanted
    obtain ⟨odd_number, before⟩ := h.kept code n payload known wanted
    have answered := settles.count_eq h.numbered odd odd_number (by
      intro a taken numbered
      obtain ⟨c, member, rfl⟩ := List.mem_map.mp taken
      obtain ⟨-, -, promised⟩ := h.owed c (mine c member) n numbered
      rwa [← promised code payload known])
    have same := counts n
    refine ⟨odd_number, ?_⟩
    rw [tally, QueuedCommand.numbers_append, List.count_append]
    rw [tally] at before
    omega

theorem Ledger.same (h : Ledger s past gone) (queue : s'.queue = s.queue)
    (outbox : s'.outbox = s.outbox) : Ledger s' past gone := by
  have turnover : Turnover s s' [] := .of_queue queue (outbox ▸ .nothing)
  simpa using h.turnover turnover

/-- A number that no request has carried is carried by nothing. -/
theorem Ledger.tally_fresh (h : Ledger s past gone) {n : Int} (odd : n % 2 = 1)
    (fresh : n ∉ past.filterMap Input.seq?) : s.tally gone n = 0 := by
  have unsent : s.outbox.numbers.count n = 0 := by
    rw [List.count_eq_zero]
    intro sent
    obtain ⟨m, member, rfl⟩ := List.mem_map.mp sent
    obtain ⟨code, payload, known, -⟩ := h.answers m member odd
    exact fresh (Input.mem_seqs.mpr ⟨code, payload, known⟩)
  have unasked (cs : List QueuedCommand) (part : ∀ c ∈ cs, c ∈ s.queue.commands ++ gone) :
      (numbers cs).count n = 0 := by
    rw [List.count_eq_zero]
    intro asked
    obtain ⟨c, member, numbered⟩ := List.mem_filterMap.mp asked
    exact fresh (h.owed c (part c member) n numbered).2.1
  rw [tally, unsent, unasked s.queue.commands fun c => List.mem_append_left _,
    unasked gone fun c => List.mem_append_right _]

/-- What is owed for the inputs so far is still owed after one more, as its number is new. -/
theorem Ledger.owed_later (h : Ledger s past gone) {i : Input} (fresh : i.IsNew past)
    {c : QueuedCommand}
    (member : c ∈ s.queue.commands ++ gone) {n : Int} (numbered : c.action.seq? = some n) :
    n % 2 = 1 ∧ n ∈ (past ++ [i]).filterMap Input.seq? ∧
      ∀ code payload, Input.request code n payload ∈ past ++ [i] →
        Command.promised code = c.action.answer? := by
  obtain ⟨odd, asked, promised⟩ := h.owed c member n numbered
  refine ⟨odd, ?_, ?_⟩
  · rw [List.filterMap_append]
    exact List.mem_append_left _ asked
  · intro code payload known
    rcases List.mem_append.mp known with before | new
    · exact promised code payload before
    · obtain rfl := List.mem_singleton.mp new
      exact absurd asked (fresh n rfl).2

/-- What has been answered still answers a request of the past after one more input. -/
theorem Ledger.answers_later (h : Ledger s past gone) (i : Input) {m : Wire.Message}
    (sent : m ∈ s.outbox.messages) (odd : m.seq % 2 = 1) :
    ∃ code payload, Input.request code m.seq payload ∈ past ++ [i] ∧
      (m.command = .error ∨ Command.promised code = some m.command) := by
  obtain ⟨code, payload, known, answer⟩ := h.answers m sent odd
  exact ⟨code, payload, List.mem_append_left _ known, answer⟩

/-- An input that is promised no answer changes no account. -/
theorem Ledger.note (h : Ledger s past gone) {i : Input} (fresh : i.IsNew past)
    (plain : ∀ code n payload, i = .request code n payload → Command.promised code = none) :
    Ledger s (past ++ [i]) gone where
  numbered := h.numbered
  answers _ sent odd := h.answers_later i sent odd
  owed _ member _ numbered := h.owed_later fresh member numbered
  once := h.once
  kept code n payload known wanted := by
    rcases List.mem_append.mp known with before | new
    · exact h.kept code n payload before wanted
    · exact absurd (plain code n payload (List.mem_singleton.mp new).symm) wanted

/-- Commands that nobody answers are on no account. -/
theorem Ledger.resumed (h : Ledger s past gone) {cs : List QueuedCommand}
    (go : ∀ c ∈ cs, ∃ state, c.action = .resume state ∧ state ≠ .suspended) :
    Ledger { s with queue := s.queue.postAll cs } past gone := by
  have plain (c : QueuedCommand) (new : c ∈ cs) : c.action.seq? = none := by
    obtain ⟨state, resumes, -⟩ := go c new
    rw [resumes]
    rfl
  have unnumbered : numbers cs = [] := List.filterMap_eq_nil_iff.mpr plain
  have same (n : Int) : tally { s with queue := s.queue.postAll cs } gone n = s.tally gone n := by
    rw [tally, tally]
    show _ + (numbers (s.queue.commands ++ cs)).count n + _ = _
    rw [QueuedCommand.numbers_append, unnumbered, List.append_nil]
  constructor
  · exact h.numbered
  · exact h.answers
  · intro c member n numbered
    rcases List.mem_append.mp member with waits | dropped
    · rcases List.mem_append.mp waits with before | new
      · exact h.owed c (List.mem_append_left _ before) n numbered
      · rw [plain c new] at numbered
        cases numbered
    · exact h.owed c (List.mem_append_right _ dropped) n numbered
  · intro n odd
    rw [same]
    exact h.once n odd
  · intro code n payload known wanted
    rw [same]
    exact h.kept code n payload known wanted

section

variable {code : Nat} {n : Int} {payload : String}

/-- A new number is carried once, and the others are carried as before. -/
theorem Ledger.carry (h : Ledger s past gone) (fresh : (Input.request code n payload).IsNew past)
    (tallies : ∀ k, s'.tally gone k = s.tally gone k + [n].count k) :
    (∀ k, k % 2 = 1 → s'.tally gone k ≤ 1) ∧
      ∀ code' k payload', Input.request code' k payload' ∈ past ++ [.request code n payload] →
        Command.promised code' ≠ none → k % 2 = 1 ∧ s'.tally gone k = 1 := by
  obtain ⟨odd, fresh⟩ := fresh n rfl
  have mine : s'.tally gone n = 1 := by
    rw [tallies, h.tally_fresh odd fresh, List.count_singleton_self]
  have others (k : Int) (other : n ≠ k) : s'.tally gone k = s.tally gone k := by
    rw [tallies, List.count_singleton, if_neg (by simpa using other), Nat.add_zero]
  constructor
  · intro k odd_number
    by_cases same : n = k
    · subst same
      exact Nat.le_of_eq mine
    · rw [others k same]
      exact h.once k odd_number
  · intro code' k payload' known wanted
    rcases List.mem_append.mp known with before | new
    · have other : n ≠ k := by
        rintro rfl
        exact fresh (Input.mem_seqs.mpr ⟨code', payload', before⟩)
      rw [others k other]
      exact h.kept code' k payload' before wanted
    · obtain ⟨-, rfl, -⟩ := Input.request.inj (List.mem_singleton.mp new)
      exact ⟨odd, mine⟩

/-- A request is answered at once. -/
theorem Ledger.answered (h : Ledger s past gone) (fresh : (Input.request code n payload).IsNew past)
    {c : Command}
    (entitled : c = .error ∨ Command.promised code = some c) (text : String) :
    Ledger (s.respond c n text) (past ++ [.request code n payload]) gone := by
  have tallies (k : Int) : (s.respond c n text).tally gone k = s.tally gone k + [n].count k := by
    rw [tally, tally]
    show (s.outbox.respond c n text).numbers.count k + (numbers s.queue.commands).count k + _ = _
    rw [numbers_respond, List.count_append]
    omega
  obtain ⟨once, kept⟩ := h.carry fresh tallies
  constructor
  · exact h.numbered.respond (fresh n rfl).1 c text
  · intro m sent odd_number
    have parts : m ∈ s.outbox.messages ++ [⟨c, n, text⟩] := by
      rwa [← messages_respond]
    rcases List.mem_append.mp parts with before | new
    · exact h.answers_later _ before odd_number
    · obtain rfl := List.mem_singleton.mp new
      exact ⟨code, payload, by simp, entitled⟩
  · intro c' member k numbered
    exact h.owed_later fresh member numbered
  · exact once
  · exact kept

/-- A request is put into the queue. -/
theorem Ledger.posted (h : Ledger s past gone) (fresh : (Input.request code n payload).IsNew past)
    {c : QueuedCommand} (numbered : c.action.seq? = some n)
    (entitled : Command.promised code = c.action.answer?) :
    Ledger { s with queue := s.queue.postAll [c] } (past ++ [.request code n payload]) gone := by
  have tallies (k : Int) :
      tally { s with queue := s.queue.postAll [c] } gone k = s.tally gone k + [n].count k := by
    rw [tally, tally]
    show s.outbox.numbers.count k + (numbers (s.queue.commands ++ [c])).count k + _ = _
    have new : numbers [c] = [n] := by simp [QueuedCommand.numbers, numbered]
    rw [QueuedCommand.numbers_append, new, List.count_append]
    omega
  obtain ⟨once, kept⟩ := h.carry fresh tallies
  obtain ⟨odd, unseen⟩ := fresh n rfl
  constructor
  · exact h.numbered
  · intro m sent odd_number
    exact h.answers_later _ sent odd_number
  · intro c' member k numbered'
    rcases List.mem_append.mp member with waits | dropped
    · rcases List.mem_append.mp waits with before | new
      · exact h.owed_later fresh (List.mem_append_left _ before) numbered'
      · obtain rfl := List.mem_singleton.mp new
        obtain rfl := Option.some.inj (numbered.symm.trans numbered')
        refine ⟨odd, Input.mem_seqs.mpr ⟨code, payload, by simp⟩, ?_⟩
        intro code' payload' known
        rcases List.mem_append.mp known with before | same
        · exact absurd (Input.mem_seqs.mpr ⟨code', payload', before⟩) unseen
        · obtain ⟨rfl, -, -⟩ := Input.request.inj (List.mem_singleton.mp same)
          exact entitled
    · exact h.owed_later fresh (List.mem_append_right _ dropped) numbered'
  · exact once
  · exact kept

/-- A request is answered, or granted as it is promised. -/
theorem Ledger.request (h : Ledger s past gone)
    (fresh : (Input.request code n payload).IsNew past) :
    Ledger (s.request code n payload) (past ++ [.request code n payload])
      (gone ++ s.drops (.request code n payload)) := by
  have steady (same : (s.request code n payload).finished = s.finished) :
      gone ++ s.drops (.request code n payload) = gone := by
    have reacted : (s.react (.request code n payload)).1.finished = s.finished := same
    rw [drops_of_steady reacted fun _ => rfl, List.append_nil]
  have noted (plain : Command.promised code = none) :
      Ledger s (past ++ [.request code n payload]) gone := by
    refine h.note fresh ?_
    rintro code' n' payload' ⟨⟩
    exact plain
  rcases s.request_cases code n payload with ⟨e, refused⟩ | ⟨-, granted⟩
  · rw [steady (by rw [refused]; rfl), refused]
    exact h.answered fresh (.inl rfl) e.message
  · have ending (ends : (s.request code n payload).finished = true) :
        s.drops (.request code n payload) = if s.finished then [] else s.queue.commands := by
      have reacted : (s.react (.request code n payload)).1.finished = true := ends
      exact drops_of_ending reacted
    generalize s.request code n payload = s' at granted steady ending ⊢
    cases granted with
    | answered command text entitled =>
        rw [steady rfl]
        exact h.answered fresh (.inr entitled) text
    | posted c accepting numbered entitled =>
        rw [steady rfl]
        exact h.posted fresh numbered entitled
    | resumed cs accepting go plain =>
        rw [steady rfl]
        exact (noted plain).resumed go
    | ready plain =>
        obtain ⟨lifecycle, same⟩ := s.markReady_eq
        rw [steady (same ▸ rfl), same]
        exact (noted plain).same rfl rfl
    | finished plain =>
        rw [ending s.finished_finish]
        exact (noted plain).turnover s.turnover_finish
    | askedAll plain | asked _ _ plain | changed _ plain | switched _ plain =>
        rw [steady rfl]
        exact (noted plain).same rfl rfl

end

/-- Whatever a session reacts to, its account stays right. -/
theorem Ledger.react (h : Ledger s past gone) {i : Input} (fresh : i.IsNew past) :
    Ledger (s.react i).1 (past ++ [i]) (gone ++ s.drops i) := by
  by_cases asks : ∃ code n payload, i = .request code n payload
  · obtain ⟨code, n, payload, rfl⟩ := asks
    exact h.request fresh
  · have quiet (code : Nat) (n : Int) (payload : String) : i ≠ .request code n payload := by
      rintro rfl
      exact asks ⟨code, n, payload, rfl⟩
    exact (h.note fresh fun code n payload same => absurd same (quiet code n payload)).turnover
      (turnover_react quiet)

/-- The account stays right along a run if all its requests, those of the past included, carry
distinct odd numbers. -/
theorem Ledger.run (h : Ledger s past gone) {inputs : List Input}
    (odd : ∀ n ∈ inputs.filterMap Input.seq?, n % 2 = 1)
    (distinct : ((past ++ inputs).filterMap Input.seq?).Nodup) :
    Ledger (s.run inputs) (past ++ inputs) (gone ++ s.dropped inputs) := by
  induction inputs generalizing s past gone with
  | nil =>
      rw [dropped, List.append_nil, List.append_nil]
      exact h
  | cons i inputs ih =>
      have fresh : i.IsNew past := by
        intro n numbered
        rw [List.filterMap_append, List.filterMap_cons_some numbered] at distinct
        rw [List.filterMap_cons_some numbered] at odd
        refine ⟨odd n List.mem_cons_self, ?_⟩
        intro before
        exact (List.nodup_append.mp distinct).2.2 n before n List.mem_cons_self rfl
      have split : past ++ i :: inputs = (past ++ [i]) ++ inputs := by simp
      rw [split] at distinct ⊢
      rw [run_cons, dropped, ← List.append_assoc]
      refine ih (h.react fresh) ?_ distinct
      intro n member
      refine odd n ?_
      obtain ⟨j, later, numbered⟩ := List.mem_filterMap.mp member
      exact List.mem_filterMap.mpr ⟨j, List.mem_cons_of_mem _ later, numbered⟩

end

/-- The messages of a session account for all it has reacted to, and for the commands that it has
dropped. -/
structure Accounted (s : Session) (past : List Input) (gone : List QueuedCommand) : Prop where
  /-- The messages with even numbers are notifications, numbered in order. -/
  notices : ∀ m ∈ s.outbox.notifications, m.command.isNotification = true
  inOrder : s.outbox.notifications.map Wire.Message.seq = evenNumbers s.outbox.notifications.length
  /-- No two messages carry the same number. -/
  distinct : s.outbox.numbers.Nodup
  /-- A message with an odd number answers a request: with an error, or as promised. -/
  answers : ∀ m ∈ s.outbox.messages, m.seq % 2 = 1 → ∃ code payload,
    Input.request code m.seq payload ∈ past ∧
      (m.command = .error ∨ Command.promised code = some m.command)
  /-- A request that is promised an answer is answered once, or its command waits, or it has been
  dropped. -/
  fates : ∀ code n payload, Input.request code n payload ∈ past → Command.promised code ≠ none →
    ∃! fate, s.carriers gone n fate = 1

/-- What the ledger keeps from step to step contains what is promised of a session as a whole. -/
theorem Ledger.accounted {s : Session} {past : List Input} {gone : List QueuedCommand}
    (h : Ledger s past gone) : Accounted s past gone where
  notices := h.numbered.notices
  inOrder := h.numbered.inOrder
  distinct := by
    refine List.nodup_iff_count.mpr fun n => ?_
    rcases Int.emod_two_eq n with even | odd
    · exact h.numbered.count_le even
    · have once := h.once n odd
      rw [tally] at once
      omega
  answers := h.answers
  fates code n payload known wanted := by
    obtain ⟨-, once⟩ := h.kept code n payload known wanted
    exact Fate.existsUnique once

/-- If the controller numbers its requests with distinct odd numbers, then whatever else happens,
every message is accounted for, and so is every request that is promised an answer: it is answered,
waits or has been dropped, and only one of these. -/
theorem requests_are_accounted_for (setup : Setup) (program : Program) (inputs : List Input)
    (odd : ∀ n ∈ inputs.filterMap Input.seq?, n % 2 = 1)
    (distinct : (inputs.filterMap Input.seq?).Nodup) :
    Accounted ((start setup program).run inputs) inputs ((start setup program).dropped inputs) :=
  ((ledger_start setup program).run odd distinct).accounted

/-- Of three requests for the frame of a stopped thread, the first is answered, the second is
dropped when the thread exits, and the third is refused. -/
def queriesAroundExit : List Input :=
  [.request 111 1 "7\tline\t/app/main.x\t3", .event mainThread .line 0, .request 114 3 "1\t*",
    .serve 0, .request 114 5 "1\t*", .threadExited mainThread.id, .request 114 7 "1\t*"]

/-- The exchange meets the conditions on the numbers, so each of its requests has a fate. -/
theorem queriesAroundExit_are_accounted_for :
    (∀ n ∈ queriesAroundExit.filterMap Input.seq?, n % 2 = 1) ∧
      (queriesAroundExit.filterMap Input.seq?).Nodup ∧
      Accounted ((start {} oneLine).run queriesAroundExit) queriesAroundExit
        ((start {} oneLine).dropped queriesAroundExit) := by
  have odd : ∀ n ∈ queriesAroundExit.filterMap Input.seq?, n % 2 = 1 := by decide
  have distinct : (queriesAroundExit.filterMap Input.seq?).Nodup := by decide
  exact ⟨odd, distinct, requests_are_accounted_for {} oneLine queriesAroundExit odd distinct⟩

end Session

end RemoteDebugger
