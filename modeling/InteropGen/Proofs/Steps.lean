import InteropGen.Generation.Artifacts
import InteropGen.Proofs.Success

set_option autoImplicit false

/-!
# Which computations go step by step

The parts of an artifact are computed by taking one step for each declaration, in order.
-/

namespace InteropGen

variable (s : Schema) (t : ApiType)

theorem Schema.declareAll_stepwise (dialect : Dialect) :
    IsStepwise (s.declare dialect) (s.declareAll dialect) := ⟨rfl, fun _ _ => rfl⟩

theorem Shim.argumentsOf_stepwise : IsStepwise (argumentOf s) (argumentsOf s) :=
  ⟨rfl, fun _ _ => rfl⟩

theorem Shim.functionsOf_stepwise : IsStepwise (functionOf s t) (functionsOf s t) :=
  ⟨rfl, fun _ _ => rfl⟩

theorem Import.ofExports_stepwise : IsStepwise (ofExport s t) (ofExports s t) :=
  ⟨rfl, fun _ _ => rfl⟩

theorem SlotDelegate.ofSlots_stepwise : IsStepwise (ofSlot s t) (ofSlots s t) :=
  ⟨rfl, fun _ _ => rfl⟩

theorem SlotHandler.parametersOf_stepwise : IsStepwise (parameterOf s) (parametersOf s) :=
  ⟨rfl, fun _ _ => rfl⟩

theorem SlotHandler.ofSlots_stepwise : IsStepwise (ofSlot s t) (ofSlots s t) :=
  ⟨rfl, fun _ _ => rfl⟩

theorem SlotWrapper.ofSlots_stepwise : IsStepwise (ofSlot s t) (ofSlots s t) :=
  ⟨rfl, fun _ _ => rfl⟩

theorem NativeMember.ofMembers_stepwise : IsStepwise (ofMember s t) (ofMembers s t) :=
  ⟨rfl, fun _ _ => rfl⟩

theorem WrappedEvent.ofEvents_stepwise : IsStepwise (ofEvent s) (ofEvents s) :=
  ⟨rfl, fun _ _ => rfl⟩

theorem ValueEnum.ofTypes_stepwise : IsStepwise ofType ofTypes := ⟨rfl, fun _ _ => rfl⟩

theorem ValueStruct.fieldsOf_stepwise (dialect : Dialect) :
    IsStepwise (fieldOf s dialect) (fieldsOf s dialect) := ⟨rfl, fun _ _ => rfl⟩

theorem ValueStruct.ofTypes_stepwise (dialect : Dialect) :
    IsStepwise (ofType s dialect) (ofTypes s dialect) := ⟨rfl, fun _ _ => rfl⟩

theorem ClassArtifacts.buildAll_stepwise : IsStepwise (build s) (buildAll s) :=
  ⟨rfl, fun _ _ => rfl⟩

end InteropGen
