import InteropGen.Bridge.Error

set_option autoImplicit false

/-!
# Instance handles

An instance is pinned under a number that is never zero and never used again, and it can be found by
that number until it is released.
-/

namespace InteropGen

structure Handle where
  id : UInt64
  ne_zero : id ≠ 0
  deriving DecidableEq, Repr

namespace Handle

def ofPointer? (pointer : UInt64) : Option Handle :=
  if h : pointer ≠ 0 then some ⟨pointer, h⟩ else none

def toPointer (h : Handle) : UInt64 := h.id

/-- The handle of a number; zero has the handle of one. -/
def ofId (id : UInt64) : Handle := (ofPointer? id).getD ⟨1, by decide⟩

end Handle

structure Handles (α : Type) where
  /-- The number of the next instance. -/
  next : UInt64 := 1
  pinned : List (UInt64 × α) := []

namespace Handles

variable {α : Type}

def size (hs : Handles α) : Nat := hs.pinned.length

def isEmpty (hs : Handles α) : Bool := hs.pinned.isEmpty

def without (hs : Handles α) (id : UInt64) : List (UInt64 × α) :=
  hs.pinned.filter fun (k, _) => k ≠ id

def pin (value : α) (hs : Handles α) : Handle × Handles α :=
  (.ofId hs.next, ⟨hs.next + 1, (hs.next, value) :: hs.without hs.next⟩)

def resolve (h : Handle) (hs : Handles α) : Except BridgeError α :=
  match hs.pinned.lookup h.id with
  | some value => .ok value
  | none => .error (.staleHandle h.id)

def release (h : Handle) (hs : Handles α) : Option α × Handles α :=
  (hs.pinned.lookup h.id, { hs with pinned := hs.without h.id })

end Handles

end InteropGen
