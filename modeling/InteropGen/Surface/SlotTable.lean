import InteropGen.Failure
import InteropGen.Surface.Member

set_option autoImplicit false

/-!
# Slot tables

The members of a managed server are implemented on the managed side, and native code reaches each of
them through a numbered trampoline slot.  The number of a slot is its position in the table, and
both halves of the generated code enumerate the slots in this order.
-/

namespace InteropGen

structure Slot where
  name : String
  member : Member
  isStatic : Bool
  deriving DecidableEq, Repr

structure SlotTable where
  typeName : String
  slots : List Slot
  deriving DecidableEq, Repr

namespace SlotTable

/-- Appends the slot of a member, unless an array occurs in its signature or its name is taken. -/
def enter (t : ApiType) (seen : List Slot) (m : Member) : Except Failure (List Slot) :=
  let signature := t.signature m
  match signature.types.find? TypeRef.isArray with
  | some array =>
    .error (.unsupportedType .native "arrays in trampoline slots" array.display)
  | none =>
    if seen.any (·.name = signature.name) then .error (.duplicateSlot t.name signature.name)
    else .ok (seen ++ [⟨signature.name, m, signature.isStatic⟩])

/-- The slots of all members. -/
def derive (t : ApiType) : Except Failure SlotTable :=
  (t.members.foldlM (enter t) []).map (SlotTable.mk t.name)

def size (table : SlotTable) : Nat := table.slots.length

def names (table : SlotTable) : List String := table.slots.map Slot.name

/-- Compares the order of the names in an artifact with the table. -/
def verify (table : SlotTable) (artifact : String) (emitted : List String) : Except Failure Unit :=
  if table.names = emitted then .ok ()
  else .error (.slotMismatch table.typeName artifact table.names emitted)

end SlotTable

namespace ApiType

/-- The slots of a managed server; other types have none. -/
def slotTable (t : ApiType) : Except Failure (Option SlotTable) :=
  if t.managedServer then (SlotTable.derive t).map some else .ok none

end ApiType

end InteropGen
