import RemoteDebugger.Proofs.Value.Rendering
import RemoteDebugger.Proofs.Xml.Document

/-!
# Payloads are read back

Each kind of payload has a reader of its own, made of the reader of documents and the names of the
attributes. It returns what the payload was written from: all of a thread, a completion or a call
signature, and of a stopped thread, a variable or a text for the console what the payload is meant
to tell.
-/

namespace RemoteDebugger

namespace Xml

def attrs : Xml → List Attribute
  | .empty _ _ attrs | .node _ attrs _ => attrs

/-- The elements inside an element. -/
def children : Xml → List Xml
  | .empty _ _ _ => []
  | .node _ _ children => children

def text? (x : Xml) (name : String) : Option String := x.attrs.lookup name

/-- The number written in an attribute. -/
def number? (x : Xml) (name : String) : Option Nat :=
  (x.text? name).bind fun s => Text.digits? s.toList

theorem number?_of_text? {x : Xml} {name : String} {n : Nat}
    (h : x.text? name = some (toString n)) :
    x.number? name = some n := by
  rw [number?, h, Option.bind_some, Text.digits?_toString]

end Xml

namespace Payload

open Xml (escape unescape IsWellFormed)

def readItems {α : Type} (item : Xml → Option α) (payload : String) : Option (List α) :=
  (Xml.readDocument payload).bind (List.mapM item)

def readItem {α : Type} (item : Xml → Option α) (payload : String) : Option α :=
  (Xml.readDocument payload).bind fun
    | [x] => item x
    | _ => none

def thread? (x : Xml) : Option ThreadRef := do
  pure { id := ← x.text? "id", name := ← x.text? "name" }

/-- What is told of a frame of a stopped thread. -/
structure FrameNotice where
  id : Nat
  function : String
  file : String
  line : Nat
  deriving DecidableEq, Repr

/-- What is told of a thread that stopped: its identifier, the code of the reason and its stack. -/
structure StopNotice where
  thread : String
  reason : Nat
  stack : List FrameNotice
  deriving DecidableEq, Repr

@[inherit_doc FrameNotice] def frameNotice? (x : Xml) : Option FrameNotice := do
  pure {
    id := ← x.number? "id"
    function := ← x.text? "name"
    file := ← x.text? "file"
    line := ← x.number? "line" }

@[inherit_doc StopNotice] def stopNotice? (x : Xml) : Option StopNotice := do
  pure {
    thread := ← x.text? "id"
    reason := ← x.number? "stop_reason"
    stack := ← x.children.mapM frameNotice? }

structure VariableNotice where
  name : String
  type : String
  qualifier : Option String
  shown : String
  isContainer : Bool
  deriving DecidableEq, Repr

def variableNotice? (x : Xml) : Option VariableNotice := do
  pure {
    name := ← x.text? "name"
    type := ← x.text? "type"
    qualifier := x.text? "qualifier"
    shown := ← x.text? "value"
    isContainer := (x.text? "isContainer").isSome }

def completion? (x : Xml) : Option Completion := do
  pure {
    name := ← x.text? "p0"
    doc := ← x.text? "p1"
    args := ← x.text? "p2"
    kind := ← x.number? "p3" }

def console? (x : Xml) : Option (String × Nat) := do
  pure (← x.text? "s", ← x.number? "ctx")

/-- An argument of a call signature with its type. -/
def argument? (x : Xml) : Option (String × String) := do
  pure (← x.text? "name", ← x.text? "type")

def callSignature? (x : Xml) : Option CallSignature := do
  pure {
    file := ← x.text? "file"
    name := ← x.text? "name"
    args := ← x.children.mapM argument? }

section

variable {α β : Type} {write : β → Xml} {item : Xml → Option α} {told : β → α}

/-- Reading a list of items is reading each of them, if each can be read. -/
theorem mapM_map (each : ∀ b, item (write b) = some (told b)) (bs : List β) :
    (bs.map write).mapM item = some (bs.map told) := by
  have same : item ∘ write = fun b => pure (told b) := funext each
  rw [List.mapM_map, same, List.mapM_pure]
  rfl

/-- A document of items is read back as what each of them tells, in their order. -/
theorem readItems_document (wellFormed : ∀ b, (write b).IsWellFormed)
    (each : ∀ b, item (write b) = some (told b)) (bs : List β) :
    readItems item (Xml.document (bs.map write)) = some (bs.map told) := by
  have all : ∀ x ∈ bs.map write, x.IsWellFormed := by
    intro x member
    obtain ⟨b, -, rfl⟩ := List.mem_map.mp member
    exact wellFormed b
  rw [readItems, Xml.readDocument_document all, Option.bind_some, mapM_map each]

/-- A document with one item is read back as what the item tells. -/
theorem readItem_document {x : Xml} (wellFormed : x.IsWellFormed) :
    readItem item (Xml.document [x]) = item x := by
  have all : ∀ y ∈ [x], y.IsWellFormed := List.forall_mem_singleton.mpr wellFormed
  rw [readItem, Xml.readDocument_document all]
  rfl

end

theorem isWellFormed_thread (t : ThreadRef) : (thread t).IsWellFormed :=
  .empty (show ∀ name ∈ ["thread", "name", "id"], _ by decide)

theorem readItems_threadList (ts : List ThreadRef) :
    readItems thread? (threadList ts) = some ts := by
  have each (t : ThreadRef) : thread? (thread t) = some t := rfl
  rw [threadList, readItems_document isWellFormed_thread each, List.map_id']

/-- What is told of a frame, with its file as the controller sees it. -/
def FrameNotice.ofFrame (sources : Source.SourceMap) (f : Frame) : FrameNotice where
  id := f.id
  function := f.function
  file := sources.toClient f.file
  line := f.line

theorem isWellFormed_frame (sources : Source.SourceMap) (f : Frame) :
    (frame sources f).IsWellFormed :=
  .node (show ∀ name ∈ ["frame", "id", "name", "file", "line"], _ by decide) nofun

/-- A frame is read back with its identifier, function, file and line. The file is the one that the
controller knows. -/
theorem frameNotice?_frame (sources : Source.SourceMap) (f : Frame) :
    frameNotice? (frame sources f) = some (.ofFrame sources f) := by
  have id : (frame sources f).number? "id" = some f.id := Xml.number?_of_text? rfl
  have line : (frame sources f).number? "line" = some f.line := Xml.number?_of_text? rfl
  rw [frameNotice?, id, line]
  rfl

/-- The announcement of a stop is a document, whatever the names and files of its frames are. -/
theorem isWellFormed_suspended (sources : Source.SourceMap) (p : Program) (t : ThreadRef)
    (reason : StopReason) (top : FrameRef) :
    (Xml.node "thread" [("id", t.id), ("stop_reason", toString reason.command.code)]
      ((p.stack top).map fun r => frame sources (p.frame r))).IsWellFormed := by
  refine .node (show ∀ name ∈ ["thread", "id", "stop_reason"], _ by decide) fun x member => ?_
  obtain ⟨r, -, rfl⟩ := List.mem_map.mp member
  exact isWellFormed_frame sources (p.frame r)

/-- The announcement of a stop is read back with the thread, the reason and the whole stack,
innermost frame first. -/
theorem readItem_suspendedThread (sources : Source.SourceMap) (p : Program) (t : ThreadRef)
    (reason : StopReason) (top : FrameRef) :
    readItem stopNotice? (suspendedThread sources p t reason top) = some {
      thread := t.id
      reason := reason.command.code
      stack := (p.stack top).map fun r => .ofFrame sources (p.frame r) } := by
  have frames := mapM_map (fun r => frameNotice?_frame sources (p.frame r)) (p.stack top)
  rw [suspendedThread, readItem_document (isWellFormed_suspended sources p t reason top)]
  have code : Xml.number? (.node "thread" [("id", t.id),
      ("stop_reason", toString reason.command.code)]
      ((p.stack top).map fun r => frame sources (p.frame r))) "stop_reason" =
        some reason.command.code := Xml.number?_of_text? rfl
  rw [stopNotice?, code, Xml.children, frames]
  rfl

theorem isWellFormed_completion (c : Completion) :
    (Xml.empty "comp" true [("p0", c.name), ("p1", c.doc), ("p2", c.args),
      ("p3", toString c.kind)]).IsWellFormed :=
  .empty (show ∀ name ∈ ["comp", "p0", "p1", "p2", "p3"], _ by decide)

/-- A list of completions is read back as it was, whatever their texts are. -/
theorem readItems_completions (cs : List Completion) :
    readItems completion? (completions cs) = some cs := by
  have each (c : Completion) : completion? (.empty "comp" true [("p0", c.name), ("p1", c.doc),
      ("p2", c.args), ("p3", toString c.kind)]) = some c := by
    rw [completion?, Xml.number?_of_text? (n := c.kind) rfl]
    rfl
  rw [completions, readItems_document isWellFormed_completion each, List.map_id']

theorem isWellFormed_console (shown : String) (stream : Nat) :
    (Xml.empty "io" false [("s", shown), ("ctx", toString stream)]).IsWellFormed :=
  .empty (show ∀ name ∈ ["io", "s", "ctx"], _ by decide)

/-- Text for the console is read back with its stream. What is beyond the limit has been cut off
before. -/
theorem readItem_consoleOutput (text : String) (stream maxLength : Nat) :
    readItem console? (consoleOutput text stream maxLength) =
      some (Text.atMost maxLength text, stream) := by
  have cut : cutText text maxLength = Text.atMost maxLength text := by
    rw [cutText, Writer.putStr, Writer.finish_bounded, String.ofList_toList]
  rw [consoleOutput, readItem_document (isWellFormed_console _ stream), cut, console?,
    Xml.number?_of_text? (n := stream) rfl]
  rfl

/-- A call signature is a document, whatever the names of the function and its arguments are. -/
theorem isWellFormed_callSignature (c : CallSignature) :
    (Xml.node "call_signature" [("file", c.file), ("name", c.name)]
      (c.args.map fun a => .node "arg" [("name", a.1), ("type", a.2)] [])).IsWellFormed := by
  refine .node (show ∀ name ∈ ["call_signature", "file", "name"], _ by decide) fun x member => ?_
  obtain ⟨a, -, rfl⟩ := List.mem_map.mp member
  exact .node (show ∀ name ∈ ["arg", "name", "type"], _ by decide) nofun

/-- A call signature is read back as it was, with the arguments in their order. -/
theorem readItem_callSignature (c : CallSignature) :
    readItem callSignature? (callSignature c) = some c := by
  have argument (a : String × String) :
      argument? (.node "arg" [("name", a.1), ("type", a.2)] []) = some a := rfl
  rw [callSignature, readItem_document (isWellFormed_callSignature c), callSignature?, Xml.children,
    mapM_map argument, List.map_id']
  rfl

/-- What is told of a variable. The registry remembers which resolver it decided on for a type. -/
def describe (h : Heap) (maxText : Nat) (v : String × Value) : StateM Registry VariableNotice := do
  let resolver ← Registry.lookup v.2
  let shown ← Registry.display h v.2 maxText
  pure {
    name := v.1
    type := v.2.type.name
    qualifier := v.2.type.qualifier
    shown := shown
    isContainer := resolver.isContainer }

def VariableNotice.element (t : VariableNotice) : Xml :=
  .empty "var" true
    ([("name", t.name), ("type", t.type)] ++ (t.qualifier.map fun q => ("qualifier", q)).toList ++
      [("value", t.shown)] ++ if t.isContainer then [("isContainer", "True")] else [])

theorem variableNotice?_element (t : VariableNotice) : variableNotice? t.element = some t := by
  obtain ⟨name, type, qualifier, shown, isContainer⟩ := t
  cases qualifier <;> cases isContainer <;> rfl

/-- A variable is an element of a document, whatever its name and its text are. -/
theorem isWellFormed_element (t : VariableNotice) : t.element.IsWellFormed := by
  obtain ⟨name, type, qualifier, shown, isContainer⟩ := t
  cases qualifier with
  | none =>
      cases isContainer with
      | false => exact .empty (show ∀ name ∈ ["var", "name", "type", "value"], _ by decide)
      | true =>
          exact .empty (show ∀ name ∈ ["var", "name", "type", "value", "isContainer"], _ by decide)
  | some q =>
      cases isContainer with
      | false =>
          exact .empty (show ∀ name ∈ ["var", "name", "type", "qualifier", "value"], _ by decide)
      | true =>
          exact .empty
            (show ∀ name ∈ ["var", "name", "type", "qualifier", "value", "isContainer"],
              _ by decide)

/-- The variables are described one after the other, and each description is written as an
element. -/
theorem mapM_variableEntry (h : Heap) (maxText : Nat) (vars : Bindings) :
    vars.mapM (variableEntry h maxText) =
      List.map VariableNotice.element <$> vars.mapM (describe h maxText) := by
  have entry (v : String × Value) :
      variableEntry h maxText v = VariableNotice.element <$> describe h maxText v := rfl
  induction vars with
  | nil => simp
  | cons v vars ih => simp [List.mapM_cons, entry, ih]

/-- A list of variables is written as one element for each. The decisions of the resolvers come to
be made in the same order. -/
theorem variableList_eq (h : Heap) (maxText : Nat) (vars : Bindings) (registry : Registry) :
    (variableList h maxText vars registry).1 =
      Xml.document ((vars.mapM (describe h maxText) registry).1.map VariableNotice.element) := by
  rw [variableList, mapM_variableEntry]
  rfl

/-- A list of variables is read back with what each of them shows. Whether this is all of a value is
up to its resolver. -/
theorem readItems_variableList (h : Heap) (maxText : Nat) (vars : Bindings) (registry : Registry) :
    readItems variableNotice? (variableList h maxText vars registry).1 =
      some ((vars.mapM (describe h maxText)) registry).1 := by
  rw [variableList_eq, readItems_document isWellFormed_element variableNotice?_element,
    List.map_id']

/-- No text can break out of a payload, and none is lost. Escaping is to replace the marks of XML
and then the white space, an escaped text is inert and gives back the text, and each kind of payload
has a reader that returns what was written, whatever its texts are. -/
theorem payloads_are_injection_free_and_lossless {marks : String → String}
    (replaces : Xml.ReplacesMarks marks) :
    (∀ s, (escape s).toList = Xml.escapeBlanks (marks s).toList ∧ Xml.IsInert (escape s).toList ∧
        unescape (escape s) = s) ∧
      (∀ ts, readItems thread? (threadList ts) = some ts) ∧
      (∀ sources p t reason top, readItem stopNotice? (suspendedThread sources p t reason top) =
        some {
        thread := t.id
        reason := reason.command.code
        stack := (p.stack top).map fun r => .ofFrame sources (p.frame r) }) ∧
      (∀ h maxText vars registry, readItems variableNotice?
        (variableList h maxText vars registry).1 =
        some ((vars.mapM (describe h maxText)) registry).1) ∧
      (∀ cs, readItems completion? (completions cs) = some cs) ∧
      (∀ text stream maxLength, readItem console? (consoleOutput text stream maxLength) =
        some (Text.atMost maxLength text, stream)) ∧
      ∀ c, readItem callSignature? (callSignature c) = some c :=
  ⟨fun s => ⟨Xml.escape_eq_passes replaces s, Xml.isInert_escape s, Xml.unescape_escape s⟩,
    readItems_threadList, readItem_suspendedThread, readItems_variableList, readItems_completions,
    readItem_consoleOutput, readItem_callSignature⟩

/-- The name of a thread imitates the end of its element, a reference and a line feed. -/
theorem imitated_markup_is_read_back :
    Xml.ReplacesMarks (fun s => String.ofList (s.toList.flatMap Xml.escapeMark)) ∧
      readItems thread? (threadList [⟨"t1", "\" /><thread id='&quot;\n"⟩]) =
        some [⟨"t1", "\" /><thread id='&quot;\n"⟩] :=
  have replaces : Xml.ReplacesMarks (fun s => String.ofList (s.toList.flatMap Xml.escapeMark)) :=
    fun _ => String.toList_ofList
  ⟨replaces, (payloads_are_injection_free_and_lossless replaces).2.1 _⟩

end Payload

end RemoteDebugger
