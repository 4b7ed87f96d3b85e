import RemoteDebugger.Proofs.Session.Payload
import RemoteDebugger.Proofs.Wire.Field
import RemoteDebugger.Session.Request

/-!
# What messages carry

Most payloads are made by the engine, as documents or from fields, and are one line each, whatever
texts they are made of. A few commands pass on a text as it is: the identifier of a thread, a source
file, the result of a custom operation, the message of an error.

Looks at the program are read by a small logic of what they find: `Ensures P look` says that
whatever `look` finds has the property `P`, with one rule for each way to put looks together.
-/

namespace RemoteDebugger

/-- The payload of the command is a text from elsewhere, passed on as it is. -/
def Wire.Command.isVerbatim : Wire.Command → Bool
  | .threadKill | .sendExceptionTraceProceeded | .runCustomOperation | .getFileContents | .error =>
    true
  | _ => false

/-- A message of the command can have this payload: it is one line, unless the command passes on a
text as it is. -/
def Wire.Command.Carries (c : Wire.Command) (payload : String) : Prop :=
  c.isVerbatim = true ∨ '\n' ∉ payload.toList

namespace Payload

open Xml (lineFeed_notMem_document)

theorem lineFeed_notMem_threadList (ts : List ThreadRef) : '\n' ∉ (threadList ts).toList := by
  refine lineFeed_notMem_document fun x member => ?_
  obtain ⟨t, -, rfl⟩ := List.mem_map.mp member
  exact isWellFormed_thread t

/-- The announcement of a stop is one line, whatever the names in it are: a line feed in a name is
escaped. -/
theorem lineFeed_notMem_suspendedThread (sources : Source.SourceMap) (p : Program) (t : ThreadRef)
    (reason : StopReason) (top : FrameRef) :
    '\n' ∉ (suspendedThread sources p t reason top).toList :=
  lineFeed_notMem_document (List.forall_mem_singleton.mpr
    (isWellFormed_suspended sources p t reason top))

theorem lineFeed_notMem_completions (cs : List Completion) : '\n' ∉ (completions cs).toList := by
  refine lineFeed_notMem_document fun x member => ?_
  obtain ⟨c, -, rfl⟩ := List.mem_map.mp member
  exact isWellFormed_completion c

theorem lineFeed_notMem_consoleOutput (text : String) (stream maxLength : Nat) :
    '\n' ∉ (consoleOutput text stream maxLength).toList :=
  lineFeed_notMem_document (List.forall_mem_singleton.mpr (isWellFormed_console _ stream))

theorem lineFeed_notMem_callSignature (c : CallSignature) : '\n' ∉ (callSignature c).toList :=
  lineFeed_notMem_document (List.forall_mem_singleton.mpr (isWellFormed_callSignature c))

/-- A list of variables is one line, also when their values are shown on several. -/
theorem lineFeed_notMem_variableList (h : Heap) (maxText : Nat) (vars : Bindings)
    (registry : Registry) :
    '\n' ∉ (variableList h maxText vars registry).1.toList := by
  rw [variableList_eq]
  refine lineFeed_notMem_document fun x member => ?_
  obtain ⟨t, -, rfl⟩ := List.mem_map.mp member
  exact isWellFormed_element t

end Payload

/-- What a look finds, if it finds something, has a property. -/
def Inspect.Ensures {α : Type} (P : α → Prop) (look : Inspect α) : Prop :=
  ∀ h r a h' r', (look.run h).run.run r = (.ok (a, h'), r') → P a

namespace Inspect.Ensures

variable {α β : Type} {P : β → Prop}

/-- What the second look ensures, both ensure together, if it does so after whatever the first can
find. -/
theorem bind {Q : α → Prop} {look : Inspect α} {next : α → Inspect β}
    (first : Ensures Q look) (rest : ∀ a, Q a → Ensures P (next a)) :
    Ensures P (look >>= next) := by
  intro h r b h' r' found
  simp only [StateT.run_bind, ExceptT.run_bind] at found
  cases looked : (look.run h).run.run r with
  | mk result middle =>
      rw [looked] at found
      cases result with
      | error e => cases found
      | ok a => exact rest a.1 (first h r a.1 a.2 middle looked) a.2 middle b h' r' found

theorem always {look : Inspect β} (h : ∀ b, P b) : Ensures P look := fun _ _ b _ _ _ => h b

/-- Nothing has to be known of what the first look finds. -/
theorem after {look : Inspect α} {next : α → Inspect β} (rest : ∀ a, Ensures P (next a)) :
    Ensures P (look >>= next) :=
  bind (Q := fun _ => True) (always fun _ => trivial) fun a _ => rest a

theorem found {b : β} (h : P b) : Ensures P (pure b : Inspect β) := by
  intro heap r b' heap' r' found
  cases found
  exact h

theorem failed (e : Error) : Ensures P (throw e : Inspect β) := by
  intro heap r b heap' r' found
  cases found

/-- A look that only reads ensures what every value it may read has. -/
theorem lift {x : Except Error β} (h : ∀ b, x = .ok b → P b) :
    Ensures P (liftM x : Inspect β) := by
  intro heap r b heap' r' found
  cases x with
  | error e => cases found
  | ok b =>
      cases found
      exact h b rfl

end Inspect.Ensures

namespace Session

/-- What a look found, on the session as a whole. -/
theorem inspect_ensures {α : Type} {P : α → Prop} {s s' : Session} {look : Inspect α} {a : α}
    (ensures : look.Ensures P) (h : s.inspect look = (s', .ok a)) : P a := by
  rw [inspect] at h
  split at h
  rename_i result resolvers looked
  obtain ⟨-, found⟩ := Prod.ext_iff.mp h
  cases result with
  | error e => cases found
  | ok found' =>
      obtain rfl := Except.ok.inj found
      exact ensures _ _ found'.1 found'.2 resolvers looked

/-- Variables are shown in one line. -/
theorem showVariables_carries (s : Session) (vars : Bindings) (c : Wire.Command) :
    (s.showVariables vars).Ensures c.Carries := by
  refine .after fun h => ?_
  intro heap r payload heap' r' found
  cases found
  exact .inr (Payload.lineFeed_notMem_variableList h s.config.maxVariableText vars r)

end Session

end RemoteDebugger
