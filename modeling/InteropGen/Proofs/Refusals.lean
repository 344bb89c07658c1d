import InteropGen.Generation.Plan
import InteropGen.Proofs.Steps

set_option autoImplicit false

/-!
# Failures that are no mismatch

Code generation refuses a schema for what it declares.  A mismatch is no such refusal: it would
blame the generator, and only the comparisons at the end of a class report one.  Every step before
them fails, if it fails, with a refusal.
-/

namespace InteropGen

/-- The two halves of the generated code disagree. -/
def Failure.IsMismatch : Failure → Prop
  | .symbolMismatch .. => True
  | .slotMismatch .. => True
  | _ => False

def NeverMismatched {α : Type} (x : Except Failure α) : Prop :=
  ∀ e, x = .error e → ¬ e.IsMismatch

namespace NeverMismatched

variable {α β : Type} {x : Except Failure α}

theorem ok (a : α) : NeverMismatched (.ok a : Except Failure α) := by
  intro e h
  cases h

theorem error {e : Failure} (h : ¬ e.IsMismatch) :
    NeverMismatched (.error e : Except Failure α) := by
  intro e' he
  cases he
  exact h

theorem bind {f : α → Except Failure β} (hx : NeverMismatched x)
    (hf : ∀ a, NeverMismatched (f a)) : NeverMismatched (x >>= f) := by
  intro e h
  rcases bind_eq_error.1 h with h | ⟨a, _, h⟩
  · exact hx e h
  · exact hf a e h

theorem map {f : α → β} (hx : NeverMismatched x) : NeverMismatched (x.map f) := by
  intro e h
  cases x with
  | ok a => cases h
  | error e' =>
    cases h
    exact hx e rfl

theorem ofFault (dialect : Dialect) (x : Except TypeFault α) :
    NeverMismatched (x.mapError (·.failure dialect)) := by
  intro e h
  cases x with
  | ok a => cases h
  | error fault =>
    cases h
    cases fault <;> exact id

theorem stepwise {f : α → Except Failure β} {g : List α → Except Failure (List β)}
    (steps : IsStepwise f g) (hf : ∀ a, NeverMismatched (f a)) (xs : List α) :
    NeverMismatched (g xs) := by
  intro e h
  obtain ⟨a, _, h⟩ := steps.error h
  exact hf a e h

theorem foldlM {f : β → α → Except Failure β} (hf : ∀ b a, NeverMismatched (f b a)) (b : β)
    (xs : List α) : NeverMismatched (xs.foldlM f b) := by
  induction xs generalizing b with
  | nil => exact ok b
  | cons a xs ih =>
    rw [List.foldlM_cons]
    exact (hf b a).bind fun b' => ih b'

theorem mapM {f : α → Except Failure β} (hf : ∀ a, NeverMismatched (f a)) (x : Option α) :
    NeverMismatched (x.mapM f) := by
  cases x with
  | none => exact ok none
  | some a => exact (hf a).bind fun b => ok (some b)

end NeverMismatched

open NeverMismatched

variable (s : Schema) (t : ApiType)

section Types

variable (dialect : Dialect) (position : Position) (type : TypeRef)

theorem neverMismatched_shape : NeverMismatched (s.shape dialect type) := ofFault dialect _

theorem neverMismatched_resolve : NeverMismatched (s.resolve dialect position type) :=
  ofFault dialect _

theorem neverMismatched_returnAttribute : NeverMismatched (s.returnAttribute type) :=
  (neverMismatched_shape s .binding type).map

theorem neverMismatched_declare (p : Parameter) : NeverMismatched (s.declare dialect p) :=
  (neverMismatched_resolve s dialect .argument p.type).map

theorem neverMismatched_declareAll (ps : List Parameter) :
    NeverMismatched (s.declareAll dialect ps) :=
  stepwise (s.declareAll_stepwise dialect) (neverMismatched_declare s dialect) ps

theorem neverMismatched_declareFlat (ps : List Parameter) :
    NeverMismatched (s.declareFlat dialect ps) := by
  induction ps with
  | nil => exact ok []
  | cons p ps ih => exact (neverMismatched_declare s dialect p).bind fun _ => ih.bind fun _ => ok _

end Types

section Tables

theorem neverMismatched_memberExports (m : Member) : NeverMismatched (t.memberExports m) := by
  cases m <;> simp only [ApiType.memberExports]
  case getter => exact ok _
  all_goals
    split
    · exact error id
    · exact ok _

theorem neverMismatched_enterAll (name : String) (seen entries : List Export) :
    NeverMismatched (ExportTable.enterAll name seen entries) := by
  refine foldlM (fun seen e => ?_) seen entries
  unfold ExportTable.enter
  split
  · exact error id
  · exact ok _

theorem neverMismatched_exports : NeverMismatched (ExportTable.build s t) := by
  refine (neverMismatched_enterAll _ _ _).bind fun _ => ?_
  refine (foldlM (fun seen m => ?_) _ _).bind fun _ => (neverMismatched_enterAll _ _ _).bind
    fun _ => ok _
  exact (neverMismatched_memberExports t m).bind fun _ => neverMismatched_enterAll _ _ _

theorem neverMismatched_slotTable : NeverMismatched t.slotTable := by
  unfold ApiType.slotTable
  split
  · refine (foldlM (fun seen m => ?_) _ _).map.map
    simp only [SlotTable.enter]
    split
    · exact error id
    · split
      · exact error id
      · exact ok _
  · exact ok _

end Tables

section Shims

theorem neverMismatched_argumentOf (p : Parameter) : NeverMismatched (Shim.argumentOf s p) := by
  refine (neverMismatched_shape s .flat p.type).bind fun shape => ?_
  split
  · exact ok _
  · exact ok _
  · exact (neverMismatched_resolve s .native .result p.type).map.bind fun _ => ok _
  · exact ok _

theorem neverMismatched_memberFunction (name : String) (m : Member) :
    NeverMismatched (Shim.memberFunction s t name m) :=
  (neverMismatched_declareFlat s .flat _).bind fun _ =>
    (neverMismatched_resolve s .flat .result _).bind fun _ =>
      (stepwise (Shim.argumentsOf_stepwise s) (neverMismatched_argumentOf s) _).bind fun _ =>
        (neverMismatched_shape s .flat _).map.bind fun _ => ok _

theorem neverMismatched_arrayFunction (name : String) (i : Nat) (step : ArrayStep) :
    NeverMismatched (Shim.arrayFunction s t name i step) := by
  simp only [Shim.arrayFunction]
  split
  · refine (neverMismatched_resolve s .native .result _).map.bind fun _ => ?_
    cases step
    case itemAt =>
      exact (neverMismatched_resolve s .flat .result _).bind fun _ =>
        (neverMismatched_shape s .flat _).map.bind fun _ => ok _
    all_goals exact ok _
  · exact error id

theorem neverMismatched_functionOf (e : Export) : NeverMismatched (Shim.functionOf s t e) := by
  unfold Shim.functionOf
  split
  case h_3 => exact neverMismatched_memberFunction s t _ _
  case h_4 => exact neverMismatched_arrayFunction s t _ _ _
  all_goals exact ok _

theorem neverMismatched_shim (table : ExportTable) : NeverMismatched (Shim.ofClass s t table) :=
  (stepwise (Shim.functionsOf_stepwise s t) (neverMismatched_functionOf s t) _).map

end Shims

section Wrappers

theorem neverMismatched_operands (ps : List Parameter) :
    NeverMismatched (Operand.ofParameters s ps) := by
  induction ps with
  | nil => exact ok []
  | cons p ps ih =>
    exact (neverMismatched_shape s .managed p.type).map.bind fun _ => ih.bind fun _ => ok _

theorem neverMismatched_callBody (m : Member) (symbol : String) :
    NeverMismatched (CallBody.ofMember s t m symbol) :=
  (neverMismatched_operands s _).bind fun _ =>
    (neverMismatched_shape s .managed _).map.bind fun _ => ok _

theorem neverMismatched_stepCall (exports : ExportTable) (i : Nat) (p : Property)
    (step : ArrayStep) : NeverMismatched (ArrayBody.stepCall exports i p step) := by
  unfold ArrayBody.stepCall
  split
  · exact ok _
  · exact error id

theorem neverMismatched_arrayBody (exports : ExportTable) (i : Nat) (p : Property)
    (element : TypeRef) : NeverMismatched (ArrayBody.ofProperty s exports i p element) := by
  refine (neverMismatched_resolve s .managed .result element).bind fun _ => ?_
  refine (neverMismatched_stepCall exports i p .openArray).bind fun _ => ?_
  refine (neverMismatched_stepCall exports i p .countItems).bind fun _ => ?_
  refine (neverMismatched_stepCall exports i p .itemAt).bind fun _ => ?_
  refine (neverMismatched_stepCall exports i p .closeArray).bind fun _ => ?_
  exact (neverMismatched_shape s .managed element).map.bind fun _ => ok _

theorem neverMismatched_optionalBody (exports : ExportTable) (m : Member) :
    NeverMismatched (WrappedProperty.callBody s t exports m) :=
  mapM (fun e : Export => neverMismatched_callBody s t m e.name) _

theorem neverMismatched_getterOf (exports : ExportTable) (i : Nat) (p : Property) :
    NeverMismatched (WrappedProperty.getterOf s t exports i p) := by
  refine (neverMismatched_optionalBody s t exports _).bind fun body => ?_
  split
  · exact ok _
  · split
    · exact (neverMismatched_arrayBody s exports i p _).bind fun _ => ok _
    · exact ok _

theorem neverMismatched_wrappedProperties (exports : ExportTable) (ps : List Property) (i : Nat) :
    NeverMismatched (WrappedProperty.ofProperties s t exports i ps) := by
  induction ps generalizing i with
  | nil => exact ok []
  | cons p ps ih =>
    refine NeverMismatched.bind ?_ fun _ => (ih (i + 1)).bind fun _ => ok _
    refine (neverMismatched_resolve s .managed .result p.type).bind fun _ => ?_
    exact (neverMismatched_getterOf s t exports i p).bind fun _ =>
      (neverMismatched_optionalBody s t exports _).bind fun _ => ok _

theorem neverMismatched_wrappedMethod (exports : ExportTable) (i : Nat) (m : Method) :
    NeverMismatched (WrappedMethod.ofMethod s t exports i m) := by
  refine mapM (fun e => ?_) _
  exact (neverMismatched_resolve s .managed .result m.returns).bind fun _ =>
    (neverMismatched_declareAll s .managed m.parameters).bind fun _ =>
      (neverMismatched_callBody s t _ e.name).bind fun _ => ok _

theorem neverMismatched_wrappedMethods (exports : ExportTable) (ms : List Method) (i : Nat) :
    NeverMismatched (WrappedMethod.ofMethods s t exports i ms) := by
  induction ms generalizing i with
  | nil => exact ok []
  | cons m ms ih =>
    exact (neverMismatched_wrappedMethod s t exports i m).bind fun _ =>
      (ih (i + 1)).bind fun _ => ok _

theorem neverMismatched_event (e : Event) : NeverMismatched (WrappedEvent.ofEvent s e) := by
  unfold WrappedEvent.ofEvent
  split
  · exact ok _
  · refine (neverMismatched_shape s .managed _).bind fun shape => ?_
    split
    · exact ok _
    · exact error id

theorem neverMismatched_events : NeverMismatched (WrappedEvents.ofClass? s t) := by
  unfold WrappedEvents.ofClass?
  split
  · exact (stepwise (WrappedEvent.ofEvents_stepwise s) (neverMismatched_event s) _).map.map
  · exact ok none

theorem neverMismatched_slotHandler (slot : Slot) :
    NeverMismatched (SlotHandler.ofSlot s t slot) := by
  have parameter (p : Parameter) : NeverMismatched (SlotHandler.parameterOf s p) :=
    (neverMismatched_resolve s .binding .result p.type).bind fun _ =>
      (neverMismatched_shape s .managed p.type).bind fun _ => ok _
  exact (stepwise (SlotHandler.parametersOf_stepwise s) parameter _).bind fun _ =>
    (neverMismatched_resolve s .binding .result _).bind fun _ =>
      (neverMismatched_shape s .managed _).map.bind fun _ => ok _

theorem neverMismatched_dispatch (table : SlotTable) :
    NeverMismatched (Dispatch.ofTable s t table) :=
  (stepwise (SlotHandler.ofSlots_stepwise s t) (neverMismatched_slotHandler s t) _).map

theorem neverMismatched_slotDelegate (slot : Slot) :
    NeverMismatched (SlotDelegate.ofSlot s t slot) :=
  (neverMismatched_declareAll s .binding _).bind fun _ =>
    (neverMismatched_resolve s .binding .result _).bind fun _ =>
      (neverMismatched_returnAttribute s _).bind fun _ => ok _

theorem neverMismatched_delegates (table : SlotTable) :
    NeverMismatched (SlotDelegates.ofTable s t table) :=
  (stepwise (SlotDelegate.ofSlots_stepwise s t) (neverMismatched_slotDelegate s t) _).map

theorem neverMismatched_importOf (e : Export) : NeverMismatched (Import.ofExport s t e) := by
  unfold Import.ofExport
  split
  case h_3 =>
    exact (neverMismatched_declareFlat s .binding _).bind fun _ =>
      (neverMismatched_resolve s .binding .result _).bind fun _ =>
        (neverMismatched_returnAttribute s _).bind fun _ => ok _
  case h_4 index step _ =>
    cases step
    case itemAt =>
      simp only [Import.ofArrayStep]
      split
      · exact (neverMismatched_resolve s .binding .result _).bind fun _ =>
          (neverMismatched_returnAttribute s _).bind fun _ => ok _
      · exact error id
    all_goals exact ok _
  all_goals exact ok _

theorem neverMismatched_imports (exports : ExportTable) (slots : Option SlotTable) :
    NeverMismatched (Imports.ofClass s t exports slots) :=
  (mapM (neverMismatched_delegates s t) slots).bind fun _ =>
    (stepwise (Import.ofExports_stepwise s t) (neverMismatched_importOf s t) _).bind fun _ => ok _

theorem neverMismatched_wrapper (exports : ExportTable) (slots : Option SlotTable) :
    NeverMismatched (Wrapper.ofClass s t exports slots) := by
  refine (neverMismatched_wrappedProperties s t exports _ 0).bind fun _ => ?_
  refine (neverMismatched_wrappedMethods s t exports _ 0).bind fun _ => ?_
  refine (neverMismatched_events s t).bind fun _ => ?_
  exact (mapM (neverMismatched_dispatch s t) slots).bind fun _ =>
    (neverMismatched_imports s t exports slots).bind fun _ => ok _

end Wrappers

section Fragments

theorem neverMismatched_nativeMembers : NeverMismatched (NativeMember.ofClass s t) := by
  refine stepwise (NativeMember.ofMembers_stepwise s t) (fun m => ?_) t.members
  exact (neverMismatched_resolve s .native .result _).bind fun _ =>
    (neverMismatched_declareAll s .native _).bind fun _ => ok _

theorem neverMismatched_slotWrapper (slot : Slot) :
    NeverMismatched (SlotWrapper.ofSlot s t slot) :=
  (neverMismatched_resolve s .flat .result _).bind fun _ =>
    (neverMismatched_declareAll s .flat _).bind fun _ => ok _

theorem neverMismatched_fragment (slots : Option SlotTable) :
    NeverMismatched (Fragment.ofClass s t slots) := by
  refine (neverMismatched_nativeMembers s t).bind fun _ => ?_
  refine (mapM (fun table => ?_) slots).bind fun _ => ok _
  exact (stepwise (SlotWrapper.ofSlots_stepwise s t) (neverMismatched_slotWrapper s t) _).map

theorem neverMismatched_definitions : NeverMismatched (Scaffold.definitions s t) :=
  (neverMismatched_slotTable t).bind fun _ => (neverMismatched_nativeMembers s t).bind fun _ => ok _

end Fragments

section ValueTypes

theorem neverMismatched_place (bound : Nat) (path : List String) (ordered : List ApiType)
    (t : ApiType) : NeverMismatched (s.place bound path ordered t) := by
  induction bound generalizing path ordered t with
  | zero => exact error id
  | succ bound ih =>
    simp only [Schema.place]
    split
    · exact ok _
    · split
      · exact error id
      · refine (foldlM (fun ordered f => ?_) _ _).map
        refine (neverMismatched_shape s .flat f.type).bind fun shape => ?_
        split
        · exact ih _ _ _
        · exact ok _
        · exact ok _
        · exact error id

theorem neverMismatched_structOrder : NeverMismatched s.structOrder :=
  foldlM (neverMismatched_place s _ _) _ _

theorem neverMismatched_enums (ts : List ApiType) : NeverMismatched (ValueEnum.ofTypes ts) := by
  refine stepwise ValueEnum.ofTypes_stepwise (fun t => ?_) ts
  unfold ValueEnum.ofType
  split
  · exact ok _
  · exact error id

theorem neverMismatched_structs (dialect : Dialect) (ts : List ApiType) :
    NeverMismatched (ValueStruct.ofTypes s dialect ts) := by
  have field (f : Field) : NeverMismatched (ValueStruct.fieldOf s dialect f) :=
    (neverMismatched_shape s dialect f.type).bind fun _ =>
      (neverMismatched_resolve s dialect .declaration f.type).bind fun _ => ok _
  refine stepwise (ValueStruct.ofTypes_stepwise s dialect) (fun t => ?_) ts
  exact (stepwise (ValueStruct.fieldsOf_stepwise s dialect) field t.fields).map

theorem neverMismatched_types : NeverMismatched (TypeArtifacts.build s) := by
  refine NeverMismatched.bind ?_ fun _ => NeverMismatched.bind ?_ fun _ => ok _
  · exact (neverMismatched_enums s.enums).bind fun _ => (neverMismatched_structOrder s).bind
      fun order => (neverMismatched_structs s .flat order).bind fun _ => ok _
  · exact (neverMismatched_structOrder s).bind fun order =>
      (neverMismatched_enums s.enums).bind fun _ =>
        (neverMismatched_structs s .managed order).bind fun _ => ok _

end ValueTypes

end InteropGen
