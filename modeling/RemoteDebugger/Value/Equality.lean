import RemoteDebugger.Value.Basic

/-!
# Equality of values

Scalars and containers are compared by content, objects and foreign values by identity. Containers
may be cyclic, so the comparison goes a bounded number of levels deep and takes anything deeper as
unequal; lists, sets and dictionaries that are the same container are equal without looking inside.
-/

namespace RemoteDebugger.Value

/-- Nesting level below which two values are taken as unequal. -/
def maxEqualityDepth : Nat := 64

/-- Two sequences of one length agree position by position. -/
def sameItems (same : Value → Value → Bool) (as bs : List Value) : Bool :=
  as.length == bs.length && (as.zip bs).all fun p => same p.1 p.2

/-- Two collections of one size, and every element of the first has a partner in the second. -/
def coveredBy (same : α → α → Bool) (as bs : List α) : Bool :=
  as.length == bs.length && as.all fun a => bs.any fun b => same a b

/-- Equality of values looking at no more than the given number of levels. -/
def equalWithin (h : Heap) : Nat → Value → Value → Bool
  | 0, _, _ => false
  | levels + 1, a, b =>
    let same := equalWithin h levels
    match a, b with
    | .null, .null => true
    | .bool x, .bool y => x == y
    | .int x, .int y => x == y
    | .float x, .float y => x == y
    | .int x, .float y => Float.ofInt x.toInt == y
    | .float x, .int y => Float.ofInt y.toInt == x
    | .bool x, .int y => (if x then 1 else 0) == y
    | .int x, .bool y => (if y then 1 else 0) == x
    | .str x, .str y => x == y
    | .bytes x, .bytes y => x == y
    | .list r, .list s => r == s || sameItems same (h.lists.get r) (h.lists.get s)
    | .tuple r, .tuple s => sameItems same (h.tuples.get r) (h.tuples.get s)
    | .set r, .set s => r == s || coveredBy same (h.sets.get r) (h.sets.get s)
    | .dict r, .dict s =>
      r == s || coveredBy (fun x y => same x.1 y.1 && same x.2 y.2) (h.dicts.get r) (h.dicts.get s)
    | .object _ r, .object _ s => r == s
    | .foreign _ r _, .foreign _ s _ => r == s
    | _, _ => false

def equals (h : Heap) (a b : Value) : Bool := equalWithin h (maxEqualityDepth + 1) a b

end RemoteDebugger.Value
