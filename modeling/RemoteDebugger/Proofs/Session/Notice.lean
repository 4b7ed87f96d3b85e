import RemoteDebugger.Proofs.Session.Remarks
import RemoteDebugger.Proofs.Wire.Field
import RemoteDebugger.Proofs.Xml

/-!
# Notices about threads

What a controller learns of a thread it reads from the notifications: each names its thread
somewhere in its payload. The story of a thread is what all notifications about it tell, in the
order in which they were sent. Remarks add nothing to any story.
-/

namespace RemoteDebugger

/-- What a notification tells of a thread. The reason of a stop is given by a command. -/
inductive Notice where
  | created
  | suspended (why : Wire.Command)
  | ran
  | killed
  /-- The exception that the thread is going to stop for. -/
  | raised
  /-- The stop for an exception is over. -/
  | proceeded
  deriving DecidableEq, Repr

namespace Notice

/-- The reason of a stop, read from its number. -/
def reason? (text : String) : Option Wire.Command :=
  Wire.Command.all.find? fun c => toString c.code == text

/-- The thread that a notification is about, and what it tells. -/
def read? (c : Wire.Command) (payload : String) : Option (String × Notice) :=
  match c with
  | .threadCreate => (Xml.value? payload 1).map fun id => (id, .created)
  | .threadSuspend =>
    match Xml.value? payload 0, (Xml.value? payload 1).bind reason? with
    | some id, some why => some (id, .suspended why)
    | _, _ => none
  | .threadRun => (Wire.splitFields payload)[0]?.map fun id => (id, .ran)
  | .threadKill => some (payload, .killed)
  | .sendExceptionTrace =>
    ((Wire.splitFields payload)[3]?.bind fun stop => Xml.value? stop 0).map fun id => (id, .raised)
  | .sendExceptionTraceProceeded => some (payload, .proceeded)
  | _ => none

/-- What a message tells of a thread. Only notifications do, which have even numbers. -/
def of? (id : String) (m : Wire.Message) : Option Notice :=
  if m.seq % 2 = 0 then
    match read? m.command m.payload with
    | some (who, n) => if who = id then some n else none
    | none => none
  else none

@[simp] theorem reason?_code (c : Wire.Command) : reason? (toString c.code) = some c := by
  cases c <;> decide

@[simp] theorem read?_threadCreated (t : ThreadRef) :
    read? .threadCreate (Payload.threadCreated t) = some (t.id, .created) := by
  rw [read?, Payload.value?_threadCreated, Option.map_some]

/-- The announcement of a stop is read back with its thread and its reason. The frames it carries
are not read here. -/
@[simp] theorem read?_suspendedThread (sources : Source.SourceMap) (p : Program) (t : ThreadRef)
    (reason : StopReason) (top : FrameRef) :
    read? .threadSuspend (Payload.suspendedThread sources p t reason top) =
      some (t.id, .suspended reason.command) := by
  rw [read?, Payload.value?_suspendedThread_id, Payload.value?_suspendedThread_reason,
    Option.bind_some, reason?_code]

@[simp] theorem read?_run (id cause : String) :
    read? .threadRun (Wire.joinFields [id, cause]) = some (id, .ran) := by
  rw [read?, Wire.splitFields_joinFields (by simp), List.getElem?_cons_zero, Option.map_some]

/-- The announcement of an exception tells which thread has raised it. The stop that it comes with
is announced on its own. -/
@[simp] theorem read?_exception (sources : Source.SourceMap) (p : Program) (t : ThreadRef)
    (reason : StopReason) (top : FrameRef) (frame type message : String) :
    read? .sendExceptionTrace (Wire.joinFields
      [frame, type, message, Payload.suspendedThread sources p t reason top]) =
      some (t.id, .raised) := by
  rw [read?, Wire.splitFields_joinFields (by simp)]
  simp only [List.getElem?_cons_succ, List.getElem?_cons_zero, Option.bind_some,
    Payload.value?_suspendedThread_id, Option.map_some]

theorem read?_aside {c : Wire.Command} (h : c.isAside = true) (payload : String) :
    read? c payload = none := by
  cases c <;> first | rfl | cases h

end Notice

namespace Wire.Outbox

def story (o : Outbox) (id : String) : List Notice := o.messages.filterMap (Notice.of? id)

/-- An outbox has grown, with words added to the story of one thread. Notifications are counted in
even numbers throughout. -/
def Tells (who : String) (words : List Notice) (o o' : Outbox) : Prop :=
  o.lastSeq % 2 = 0 → o'.lastSeq % 2 = 0 ∧
    ∀ id, o'.story id = o.story id ++ if who = id then words else []

variable {o o' o'' : Outbox} {who : String}

/-- What two parts tell of a thread is told in their order, and of the other threads still
nothing. -/
theorem Tells.trans {first second : List Notice} (h : Tells who first o o')
    (h' : Tells who second o' o'') : Tells who (first ++ second) o o'' := by
  intro even
  obtain ⟨even', told⟩ := h even
  obtain ⟨even'', told'⟩ := h' even'
  constructor
  · exact even''
  · intro id
    rw [told', told, List.append_assoc]
    split <;> rfl

/-- A notification about a thread is a word of its story, and of no other thread's. -/
theorem tells_notify {c : Command} {payload : String} {n : Notice}
    (h : Notice.read? c payload = some (who, n)) : Tells who [n] o (o.notify c payload) := by
  intro even
  have next : (o.lastSeq + 2) % 2 = 0 := by omega
  constructor
  · exact next
  · intro id
    have read : Notice.of? id ⟨c, o.lastSeq + 2, payload⟩ = if who = id then some n else none := by
      rw [Notice.of?, if_pos next]
      simp only [h]
    rw [story, messages_notify, List.filterMap_append, List.filterMap_cons, read, story]
    by_cases mine : who = id
    · rw [if_pos mine, if_pos mine, List.filterMap_nil]
    · rw [if_neg mine, if_neg mine, List.filterMap_nil]

/-- An outbox has grown, and no story has. What was added are answers, or notifications about no
thread. -/
def Hushed (o o' : Outbox) : Prop :=
  o.lastSeq % 2 = 0 → o'.lastSeq % 2 = 0 ∧ ∀ id, o'.story id = o.story id

theorem Hushed.refl (o : Outbox) : Hushed o o := by
  intro even
  exact ⟨even, fun _ => rfl⟩

/-- Where neither part adds to a story, both together do not. -/
theorem Hushed.trans (h : Hushed o o') (h' : Hushed o' o'') : Hushed o o'' := by
  intro even
  obtain ⟨even', same⟩ := h even
  obtain ⟨even'', same'⟩ := h' even'
  constructor
  · exact even''
  · intro id
    exact (same' id).trans (same id)

/-- A notification that tells nothing of a thread adds to no story. It takes a number all the
same. -/
theorem hushed_notify {c : Command} {payload : String} (h : Notice.read? c payload = none) :
    Hushed o (o.notify c payload) := by
  intro even
  constructor
  · show (o.lastSeq + 2) % 2 = 0
    omega
  · intro id
    have read : Notice.of? id ⟨c, o.lastSeq + 2, payload⟩ = none := by
      simp only [Notice.of?, h, ite_self]
    rw [story, messages_notify, List.filterMap_append, List.filterMap_cons, read, story]
    exact List.append_nil _

/-- Where no story has grown, nothing has been told of any thread. -/
theorem Hushed.tells (h : Hushed o o') (who : String) : Tells who [] o o' := by
  intro even
  obtain ⟨even', same⟩ := h even
  refine ⟨even', fun id => ?_⟩
  rw [same, ite_self, List.append_nil]

/-- An answer tells nothing, since its number is odd or its command is of no notice. -/
theorem hushed_respond {c : Command} {seq : Int} {payload : String}
    (h : seq % 2 = 1 ∨ Notice.read? c payload = none) : Hushed o (o.respond c seq payload) := by
  intro even
  constructor
  · exact even
  · intro id
    have read : Notice.of? id ⟨c, seq, payload⟩ = none := by
      rcases h with odd | silent
      · have not_even : ¬ seq % 2 = 0 := by omega
        rw [Notice.of?, if_neg not_even]
      · simp only [Notice.of?, silent, ite_self]
    rw [story, messages_respond, List.filterMap_append, List.filterMap_cons, read, story]
    exact List.append_nil _

/-- The end of the stream is no word about a thread. The stories are what they were. -/
theorem hushed_close (o : Outbox) : Hushed o o.close := by
  intro even
  constructor
  · exact even
  · intro id
    rw [story, messages_close, story]

/-- Remarks add nothing to any story. -/
theorem Remarks.hushed (h : Remarks (· % 2 = 1) o o') : Hushed o o' := by
  induction h with
  | nothing => exact Hushed.refl o
  | answer _ c payload odd _ ih => exact ih.trans (hushed_respond (.inl odd))
  | aside _ payload aside _ ih => exact ih.trans (hushed_notify (Notice.read?_aside aside payload))

end Wire.Outbox

end RemoteDebugger
