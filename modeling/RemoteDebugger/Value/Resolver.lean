import RemoteDebugger.Error
import RemoteDebugger.Value.Render

/-!
# Resolvers

A resolver expands the values it handles into named children and writes their texts. The registry
asks its resolvers in order, the host's own before the built-in ones, and remembers the decision for
each type. What has been looked up before is thus part of the registry, and looking up returns the
registry with the new decision in it.
-/

namespace RemoteDebugger

/-- How the values of some types are expanded and written. On a value of another type it may
fail. -/
structure Resolver where
  name : String
  isContainer : Bool := true
  children : Heap → Value → Except Error Bindings
  /-- The child of a name; by default the first one among all children. -/
  resolve : Heap → Value → String → Except Error Value := fun h v child => do
    match Bindings.find? (← children h v) child with
    | some x => pure x
    | none => throw (.attributeNotFound v.typeText child)
  render : Heap → Value → Limits → Except Error String := fun h v limits =>
    pure (v.render h limits)

namespace Resolver

/-- Name of the child that holds the length of a container. -/
def lengthChild : String := "__len__"

/-- The failure of looking for a child that is not there. -/
def noChild (v : Value) (child : String) : Error := .attributeNotFound v.typeText child

/-- Children of a sequence: the elements under their positions, then the length. -/
def indexedChildren (items : List Value) : Bindings :=
  items.zipIdx.map (fun p => (toString p.2, p.1)) ++ [(lengthChild, Value.ofLength items.length)]

/-- A child of a sequence, by position or the length. -/
def indexedChild (v : Value) (items : List Value) (child : String) : Except Error Value :=
  if child = lengthChild then .ok (Value.ofLength items.length)
  else
    match (Text.unsigned? Text.maxUInt64 child.toList).bind fun i => items[i]? with
    | some x => .ok x
    | none => .error (noChild v child)

/-- Elements of a value that the given resolver takes for a sequence. -/
def itemsOf (resolver what : String) (items : Heap → Value → Option (List Value)) (h : Heap)
    (v : Value) : Except Error (List Value) :=
  match items h v with
  | some xs => .ok xs
  | none => .error (.resolver resolver what)

def sequenceItems? (h : Heap) : Value → Option (List Value)
  | .list r => some (h.lists.get r)
  | .tuple r => some (h.tuples.get r)
  | _ => none

/-- Elements of sets, in iteration order. -/
def setItems? (h : Heap) : Value → Option (List Value)
  | .set r => some (h.sets.get r)
  | _ => none

/-- A resolver of values with numbered elements. -/
def indexed (name what : String) (items : Heap → Value → Option (List Value)) : Resolver where
  name := name
  children := fun h v => (itemsOf name what items h v).map indexedChildren
  resolve := fun h v child => do indexedChild v (← itemsOf name what items h v) child

def sequence : Resolver := indexed "sequence" "not a sequence" sequenceItems?

def set : Resolver := indexed "set" "not a set" setItems?

/-- Most characters of a dictionary key that are part of the name of a child. -/
def keyNameLength : Nat := 256

/-- The name of the child under a dictionary key: the text of the key. -/
def keyName (h : Heap) (key : Value) : String := key.render h { length := keyNameLength }

/-- Dictionaries: the values under the texts of their keys, then the length. -/
def map : Resolver where
  name := "map"
  children := fun h v =>
    match v with
    | .dict r =>
      let entries := h.dicts.get r
      .ok (entries.map (fun e => (keyName h e.1, e.2)) ++
        [(lengthChild, Value.ofLength entries.length)])
    | _ => .error (.resolver "map" "not a dict")

/-- Objects: the attributes in order of definition. -/
def object : Resolver where
  name := "object"
  children := fun h v =>
    match v with
    | .object _ r => .ok (h.objects.get r)
    | _ => .error (.resolver "object" "not an object")
  resolve := fun h v child =>
    match v with
    | .object _ r =>
      match Bindings.find? (h.objects.get r) child with
      | some x => .ok x
      | none => .error (noChild v child)
    | _ => .error (.resolver "object" "not an object")

def scalar : Resolver where
  name := "scalar"
  isContainer := false
  children := fun _ _ => .ok []
  resolve := fun _ v _ => .error (.notAContainer v.typeText)

end Resolver

/-- A resolver together with the values it handles. -/
structure Resolver.Entry where
  handles : Value → Bool
  resolver : Resolver

/-- The resolvers of a session, and the positions decided on so far for each type. -/
structure Registry where
  entries : List Resolver.Entry
  decided : List (TypeIdentity × Option Nat) := []

namespace Registry

/-- The built-in resolvers. Values none of them handles are scalars. -/
def builtin : Registry where
  entries :=
    [⟨fun v => v matches .list _ | .tuple _, Resolver.sequence⟩,
      ⟨fun v => v matches .dict _, Resolver.map⟩,
      ⟨fun v => v matches .set _, Resolver.set⟩,
      ⟨fun v => v matches .object _ _, Resolver.object⟩]

/-- Add a resolver that comes before all others. Earlier decisions are forgotten. -/
def register (r : Registry) (entry : Resolver.Entry) : Registry := ⟨entry :: r.entries, []⟩

/-- The resolver at a position; values without one are scalars. -/
def at_ (r : Registry) (position : Option Nat) : Resolver :=
  match position.bind fun i => r.entries[i]? with
  | some e => e.resolver
  | none => Resolver.scalar

/-- The position of the first resolver that handles a value. -/
def position? (r : Registry) (v : Value) : Option Nat := r.entries.findIdx? fun e => e.handles v

/-- The resolver of the first entry that handles a value, without regard to earlier decisions. -/
def find (r : Registry) (v : Value) : Resolver := r.at_ (r.position? v)

/-- The resolver for a value: the one decided on for its type, or else the first that handles it,
which is then the decision. -/
def lookup (v : Value) : StateM Registry Resolver := fun r =>
  match r.decided.lookup v.type with
  | some position => (r.at_ position, r)
  | none =>
    let position := r.position? v
    (r.at_ position, { r with decided := (v.type, position) :: r.decided })

/-- What is shown when the text of a value cannot be had. -/
def noText (v : Value) : String := "Unable to get repr for " ++ v.typeText

def render (h : Heap) (v : Value) (limits : Limits) : StateM Registry (Except Error String) := do
  let resolver ← lookup v
  pure (resolver.render h v limits)

/-- The name of a value's type and the text of the value, as one text of at most `length` characters
and an ellipsis. -/
def display (h : Heap) (v : Value) (length : Nat) : StateM Registry String := do
  match ← render h v { length := length } with
  | .ok text =>
    pure ((((Writer.bounded length).putStr v.type.name).putStr ": ").putStr text).finish
  | .error _ => pure (noText v)

end Registry

end RemoteDebugger
