set_option autoImplicit false

/-!
# Slot enumerations

Both halves of a bridge number the slots of a type by position, from zero.
-/

namespace InteropGen

structure SlotEnum where
  typeName : String
  slots : List String
  deriving DecidableEq, Repr

namespace SlotEnum

def size (e : SlotEnum) : Nat := e.slots.length

def ofRaw? (e : SlotEnum) (raw : Int) : Option (Fin e.size) :=
  if h : 0 ≤ raw ∧ raw.toNat < e.size then some ⟨raw.toNat, h.2⟩ else none

def toRaw {e : SlotEnum} (slot : Fin e.size) : Int := slot.val

def name (e : SlotEnum) (slot : Fin e.size) : String := e.slots.get ⟨slot.val, slot.isLt⟩

def all (e : SlotEnum) : List (Fin e.size) := List.finRange e.size

def find? (e : SlotEnum) (name : String) : Option (Fin e.size) :=
  e.all.find? fun slot => e.name slot = name

@[simp] theorem ofRaw?_toRaw {e : SlotEnum} (slot : Fin e.size) :
    e.ofRaw? (toRaw slot) = some slot := by
  simp [ofRaw?, toRaw, slot.isLt]

end SlotEnum

end InteropGen
