/-!
# Values of the debugged program

A value is a scalar or a reference to a container that other values may share: two variables may
hold the same list, and a container may hold itself. The contents of containers are in a heap, one
store for each kind of container, so the identity of a container is its reference. Tuples never
change but have an identity as well, since a cycle through a list may pass through them.
-/

namespace RemoteDebugger

/-- The type of a value: an optional qualifier, such as a module, and a name. -/
structure TypeIdentity where
  qualifier : Option String
  name : String
  deriving DecidableEq, Repr

def TypeIdentity.text (t : TypeIdentity) : String :=
  match t.qualifier with
  | none => t.name
  | some q => q ++ "." ++ t.name

/-- Where a container is in the store of its kind. -/
abbrev Ref := Nat

/-- A value of the debugged program. A foreign value is one the host cannot take apart: it comes
with its own text, and `id` tells it from others. -/
inductive Value where
  | null
  | bool (b : Bool)
  | int (n : Int64)
  | float (x : Float)
  | str (s : String)
  | bytes (b : List UInt8)
  | list (at_ : Ref)
  | tuple (at_ : Ref)
  | set (at_ : Ref)
  | dict (at_ : Ref)
  | object (type : TypeIdentity) (at_ : Ref)
  | foreign (type : TypeIdentity) (id : Ref) (text : String)
  deriving DecidableEq

instance : Inhabited Value := ⟨.null⟩

/-- A list of named values: variables of a scope, attributes of an object, children of a value. -/
abbrev Bindings := List (String × Value)

/-- The first value of a name. -/
def Bindings.find? (vars : Bindings) (name : String) : Option Value := vars.lookup name

/-- Give the first entry of a name a new value, or append an entry. -/
def Bindings.insert (name : String) (value : Value) : Bindings → Bindings
  | [] => [(name, value)]
  | (n, v) :: rest =>
    if n = name then (n, value) :: rest else (n, v) :: insert name value rest

/-- Contents of containers of one kind. -/
structure Store (α : Type) where
  cells : Array α := #[]

namespace Store

variable {α : Type}

/-- The content at a reference; a reference outside the store has none. -/
def get [Inhabited α] (s : Store α) (r : Ref) : α := s.cells.getD r default

def alloc (s : Store α) (content : α) : Ref × Store α := (s.cells.size, ⟨s.cells.push content⟩)

def set (s : Store α) (r : Ref) (content : α) : Store α := ⟨s.cells.setIfInBounds r content⟩

@[simp] theorem get_set_ne [Inhabited α] (s : Store α) {r r' : Ref} (content : α) (h : r ≠ r') :
    (s.set r content).get r' = s.get r' := by
  simp [get, set, Array.getD_eq_getD_getElem?, h]

@[simp]
theorem get_set_eq [Inhabited α] (s : Store α) {r : Ref} (content : α) (h : r < s.cells.size) :
    (s.set r content).get r = content := by
  simp [get, set, Array.getD_eq_getD_getElem?, h]

end Store

/-- The contents of all containers of the debugged program. -/
structure Heap where
  lists : Store (List Value) := {}
  tuples : Store (List Value) := {}
  sets : Store (List Value) := {}
  dicts : Store (List (Value × Value)) := {}
  objects : Store Bindings := {}

instance : Inhabited Heap := ⟨{}⟩

namespace Value

def type : Value → TypeIdentity
  | null => ⟨none, "NoneType"⟩
  | bool _ => ⟨none, "bool"⟩
  | int _ => ⟨none, "int"⟩
  | float _ => ⟨none, "float"⟩
  | str _ => ⟨none, "str"⟩
  | bytes _ => ⟨none, "bytes"⟩
  | list _ => ⟨none, "list"⟩
  | tuple _ => ⟨none, "tuple"⟩
  | dict _ => ⟨none, "dict"⟩
  | set _ => ⟨none, "set"⟩
  | object t _ => t
  | foreign t _ _ => t

def typeText (v : Value) : String := v.type.text

def ofLength (n : Nat) : Value := .int (Int64.ofNat n)

/-- Number of elements of a container, characters of a text or bytes of a byte sequence. -/
def length? (h : Heap) : Value → Option Nat
  | str s => some s.length
  | bytes b => some b.length
  | list r => some (h.lists.get r).length
  | set r => some (h.sets.get r).length
  | tuple r => some (h.tuples.get r).length
  | dict r => some (h.dicts.get r).length
  | _ => none

/-- What a condition makes of a value: empty, zero, false and absent values are not truthy. -/
def isTruthy (h : Heap) : Value → Bool
  | null => false
  | bool b => b
  | int n => n != 0
  | float x => x != 0.0
  | object _ _ => true
  | foreign _ _ _ => true
  | v => (v.length? h).getD 0 != 0

end Value

end RemoteDebugger
