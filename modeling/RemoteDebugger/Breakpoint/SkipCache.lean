/-!
# Skip cache

A memo of places where an event needs no attention. It belongs to one generation of the breakpoints:
what was found out under another generation is not accepted, and a new generation starts empty.
-/

namespace RemoteDebugger

inductive SkipScope where
  | call
  | line
  | ret
  deriving DecidableEq, Repr

structure SkipKey where
  file : String
  line : Nat
  scope : SkipScope
  deriving DecidableEq, Repr

/-- The memoized places of a generation. A place that is memoized is not looked at again until the
generation has passed. -/
structure SkipCache where
  generation : Nat := 0
  keys : List SkipKey := []
  deriving Repr

namespace SkipCache

def contains (c : SkipCache) (k : SkipKey) : Bool := c.keys.contains k

/-- What was found out under a generation may be memoized: the generation is that of the memo.
Anything found earlier is dropped. -/
def accepts (c : SkipCache) (generation : Nat) : Bool := c.generation == generation

/-- Memoize a place found under a generation. -/
def insert (c : SkipCache) (k : SkipKey) (generation : Nat) : SkipCache :=
  if c.accepts generation then { c with keys := c.keys.insert k } else c

def reset (generation : Nat) : SkipCache := { generation := generation }

def size (c : SkipCache) : Nat := c.keys.length

@[simp] theorem contains_reset (g : Nat) (k : SkipKey) : (reset g).contains k = false := rfl

@[simp] theorem contains_insert (c : SkipCache) (k k' : SkipKey) (g : Nat) :
    (c.insert k g).contains k' = true ↔
      c.contains k' = true ∨ (c.generation = g ∧ k' = k) := by
  unfold insert contains accepts
  split <;> simp_all [or_comm]

end SkipCache

end RemoteDebugger
