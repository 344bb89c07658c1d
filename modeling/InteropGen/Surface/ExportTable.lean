import InteropGen.Failure
import InteropGen.Surface.ArrayAccess
import InteropGen.Surface.Lifecycle
import InteropGen.Surface.Member

set_option autoImplicit false

/-!
# Export tables

The export table of a type lists its flat functions in order: creation and destruction, the members,
then the hooks for events and trampolines.  Flat functions cannot be overloaded, so no name may
repeat, and an array can only leave the native side through a property that is read only.
-/

namespace InteropGen

inductive ExportKind where
  | create
  | destroy
  | member (m : Member)
  /-- One step of reading the array property at a position. -/
  | arrayAccess (property : Nat) (step : ArrayStep)
  | setEventCallback
  | setTrampolineLocator
  | setManagedHandle
  deriving DecidableEq, Repr

structure Export where
  name : String
  kind : ExportKind
  /-- The number of parameters, the receiver included. -/
  arity : Nat
  deriving DecidableEq, Repr

/-- A name with the number of its parameters, the form in which symbols are compared. -/
def symbolText (name : String) (arity : Nat) : String := name ++ "/" ++ toString arity

structure ExportTable where
  typeName : String
  entries : List Export
  deriving DecidableEq, Repr

namespace ApiType

def qualify (t : ApiType) (name : String) : String := t.name ++ "_" ++ name

def lifecycleExports (t : ApiType) : List Export :=
  (if t.isCreatable then [⟨t.qualify "Create", .create, 0⟩] else []) ++
    (if t.isDestroyable then [⟨t.qualify "Destroy", .destroy, 1⟩] else [])

def arrayExports (t : ApiType) (index : Nat) : List Export :=
  let p := t.property index
  ArrayStep.all.map fun step =>
    ⟨t.qualify (step.memberName p.name), .arrayAccess index step,
      receiverArity p.isStatic + step.arity⟩

def memberExport (t : ApiType) (m : Member) : Export :=
  ⟨t.qualify (t.signature m).name, .member m, (t.signature m).arity⟩

def memberExports (t : ApiType) (m : Member) : Except Failure (List Export) :=
  match m with
  | .getter i => .ok (if (t.property i).type.isArray then t.arrayExports i else [t.memberExport m])
  | .setter i =>
    let type := (t.property i).type
    if type.isArray then .error (.unsupportedType .flat "writable array properties" type.display)
    else .ok [t.memberExport m]
  | .method i =>
    let type := (t.method i).returns
    if type.isArray then .error (.unsupportedType .flat "array return values" type.display)
    else .ok [t.memberExport m]

end ApiType

namespace Schema

def hookExports (s : Schema) (t : ApiType) : List Export :=
  (if t.hasEvents then [⟨t.qualify "SetEventCallback", .setEventCallback, 1⟩] else []) ++
    (if t.managedServer then
      [⟨t.qualify "SetTrampolineLocatorCallback", .setTrampolineLocator, 1⟩] else []) ++
    (if s.ownsHandle t then [⟨t.qualify "SetManagedHandle", .setManagedHandle, 2⟩] else [])

end Schema

namespace Export

def symbol (e : Export) : String := symbolText e.name e.arity

end Export

namespace ExportTable

def enter (typeName : String) (seen : List Export) (e : Export) : Except Failure (List Export) :=
  if seen.any (·.name = e.name) then .error (.duplicateSymbol typeName e.name)
  else .ok (seen ++ [e])

def enterAll (typeName : String) (seen entries : List Export) : Except Failure (List Export) :=
  entries.foldlM (enter typeName) seen

def enterMember (t : ApiType) (seen : List Export) (m : Member) : Except Failure (List Export) :=
  t.memberExports m >>= enterAll t.name seen

def build (s : Schema) (t : ApiType) : Except Failure ExportTable := do
  let entries ← enterAll t.name [] t.lifecycleExports
  let entries ← t.members.foldlM (enterMember t) entries
  let entries ← enterAll t.name entries (s.hookExports t)
  return ⟨t.name, entries⟩

def size (table : ExportTable) : Nat := table.entries.length

def names (table : ExportTable) : List String := table.entries.map Export.name

/-- The first entry that does this. -/
def find? (table : ExportTable) (kind : ExportKind) : Option Export :=
  table.entries.find? fun e => e.kind = kind

end ExportTable

end InteropGen
