import InteropGen.Proofs.ManagedConversions
import InteropGen.Proofs.WrapperBody
import InteropGen.Proofs.WrapperCalls

set_option autoImplicit false

/-!
# Wrappers and their imports

Every member of a wrapper that calls an import converts its arguments and its result as the import
declares them, and every function behind a slot converts them as the delegate type declares them.
-/

namespace InteropGen

variable {c : Config} {s : Schema} {t : ApiType} {slots : Option SlotTable} {exports : ExportTable}

namespace WrappedProperty

end WrappedProperty

namespace Wrapper

end Wrapper

/-- The body wraps the items of the array exactly if its import gives handles back. -/
structure ArrayBody.Reads (s : Schema) (t : ApiType) (index : Nat) (i : Import) (b : ArrayBody) :
    Prop where
  name : i.name = t.nameOf (.arrayAccess index .itemAt)
  symbol : b.itemCall.symbol = i.name
  items : ∃ element, (t.property index).type = .array element ∧ element.isNullable = false ∧
    (∀ C, b.wraps = some C ↔ s.IsClass C ∧ i.result = ⟨"IntPtr", some C.name⟩) ∧
    ∀ C, b.wraps = some C → Managed.Wraps element C false

namespace Wrapper

end Wrapper

section Bodies

variable (exports_ok : ExportTable.build s t = .ok exports)
include exports_ok

end Bodies

namespace Wrapper

variable {w : Wrapper} (exports_ok : ExportTable.build s t = .ok exports)
  (parts : w.Parts s t exports slots)
include exports_ok parts

theorem exists_import {kind : ExportKind} (mem : kind ∈ s.exportKinds t) :
    ∃ i ∈ w.imports.imports, Import.ofExport s t (t.exportOf kind) = .ok i := by
  refine exists_right_of_forall₂ (Imports.steps_ofClass parts.imports_ok) ?_
  rw [ExportTable.entries_of_build exports_ok]
  exact List.mem_map_of_mem mem

end Wrapper

section Texts

namespace WrappedProperty

variable {p : WrappedProperty} {objectClass : String} {isServer : Bool}

end WrappedProperty

namespace Wrapper

variable {w : Wrapper}

end Wrapper

end Texts

end InteropGen
