import TokenBridge.Address
/-!
Tables keyed by address: at most one entry per key.

`set` replaces the entry of a key or adds one at the end; `get?` finds it. Nothing depends on
the order of entries.
-/

namespace TokenBridge

/-- A finite map from addresses. -/
structure Table (α : Type) where
  entries : List (Address × α) := []

namespace Table

variable {α : Type}

/-- The entry of a key. -/
def get? (t : Table α) (k : Address) : Option α := t.entries.lookup k

/-- Whether a key has an entry. -/
def contains (t : Table α) (k : Address) : Bool := (t.get? k).isSome

/-- The table with `k` mapped to `v`. -/
def set (t : Table α) (k : Address) (v : α) : Table α :=
  if t.contains k then ⟨t.entries.map fun e => if e.1 == k then (k, v) else e⟩
  else ⟨t.entries ++ [(k, v)]⟩

/-- The table with the entry of `k`, if any, changed by `f`. -/
def modify (t : Table α) (k : Address) (f : α → α) : Table α :=
  match t.get? k with
  | some v => t.set k (f v)
  | none => t

end Table

end TokenBridge
