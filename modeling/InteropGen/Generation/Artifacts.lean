import InteropGen.Managed.Types
import InteropGen.Managed.Wrapper
import InteropGen.Native.Scaffold
import InteropGen.Native.Shim
import InteropGen.Native.Types

set_option autoImplicit false

/-!
# Artifacts of a schema

Whether code can be generated is decided on the schema alone: the artifacts either all exist, or
there is a first failure.  Both halves report what they declare, and a class is accepted only when
the reports agree.
-/

namespace InteropGen

/-- The tables of a class, from which both halves are generated. -/
structure ClassTables where
  slots : Option SlotTable
  exports : ExportTable
  deriving DecidableEq, Repr

def ClassTables.build (s : Schema) (t : ApiType) : Except Failure ClassTables := do
  let slots ← t.slotTable
  let exports ← ExportTable.build s t
  return ⟨slots, exports⟩

structure ClassArtifacts where
  type : ApiType
  shim : Shim
  fragment : Fragment
  wrapper : Wrapper
  definitions : List Definition
  deriving DecidableEq, Repr

namespace ClassArtifacts

def checkSymbols (t : ApiType) (shim : Shim) (wrapper : Wrapper) : Except Failure Unit :=
  if shim.symbols = wrapper.symbols then .ok ()
  else .error (.symbolMismatch t.name shim.symbols wrapper.symbols)

def checkSlots (table : SlotTable) (fragment : Fragment) (wrapper : Wrapper) :
    Except Failure Unit := do
  table.verify "native enum" (fragment.slotOrder?.getD [])
  table.verify "managed enum" (wrapper.slotOrder?.getD [])
  table.verify "managed dispatch switch" (wrapper.armOrder?.getD [])

def checkTable (table : Option SlotTable) (fragment : Fragment) (wrapper : Wrapper) :
    Except Failure Unit :=
  match table with
  | none => .ok ()
  | some table => checkSlots table fragment wrapper

def ofTables (s : Schema) (t : ApiType) (tables : ClassTables) : Except Failure ClassArtifacts := do
  let shim ← Shim.ofClass s t tables.exports
  let wrapper ← Wrapper.ofClass s t tables.exports tables.slots
  let fragment ← Fragment.ofClass s t tables.slots
  checkSymbols t shim wrapper
  checkTable tables.slots fragment wrapper
  let definitions ← Scaffold.definitions s t
  return ⟨t, shim, fragment, wrapper, definitions⟩

def build (s : Schema) (t : ApiType) : Except Failure ClassArtifacts :=
  ClassTables.build s t >>= ofTables s t

def buildAll (s : Schema) : List ApiType → Except Failure (List ClassArtifacts)
  | [] => .ok []
  | t :: ts => do
    let a ← build s t
    let as ← buildAll s ts
    return a :: as

end ClassArtifacts

structure TypeArtifacts where
  native : NativeTypes
  managed : ManagedTypes
  deriving DecidableEq, Repr

def TypeArtifacts.build (s : Schema) : Except Failure TypeArtifacts := do
  let native ← NativeTypes.ofSchema s
  let managed ← ManagedTypes.ofSchema s
  return ⟨native, managed⟩

structure Artifacts where
  schema : Schema
  types : TypeArtifacts
  classes : List ClassArtifacts
  deriving DecidableEq, Repr

namespace Artifacts

def build (s : Schema) : Except Failure Artifacts := do
  let types ← TypeArtifacts.build s
  let classes ← ClassArtifacts.buildAll s s.classes
  return ⟨s, types, classes⟩

end Artifacts

end InteropGen
