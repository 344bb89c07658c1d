import InteropGen.Proofs.Outlines

set_option autoImplicit false

/-!
# The code of a class under changes elsewhere

Each part of the code of a class is computed in the same way in any two schemas of the same
outlines.  The native parts and the imports come out equal; a wrapper also holds the types that it
makes objects of, and there it is the code that comes out equal.
-/

namespace InteropGen

open Schema

variable {s₁ s₂ : Schema} (alike : SameOutlines s₁ s₂) (t : ApiType)
include alike

section Shims

namespace Shim

theorem vectorOf_eq : vectorOf s₁ = vectorOf s₂ := by
  funext type
  rw [vectorOf, vectorOf, alike.literal_eq]

theorem argumentsOf_eq : argumentsOf s₁ = argumentsOf s₂ := by
  refine (argumentsOf_stepwise s₁).congr (argumentsOf_stepwise s₂) fun p => ?_
  rw [argumentOf, argumentOf, vectorOf_eq alike]
  refine alike.bind_shape_eq (fun shape => ?_) .flat p.type
  cases shape with
  | void | primitive _ | text _ | struct _ | enum _ | nullableValue _ | array _ => rfl
  | «class» _ isNullable => cases isNullable <;> rfl

theorem answer_eq (type : TypeRef) :
    (s₁.shape .flat type).map answerOf = (s₂.shape .flat type).map answerOf := by
  refine alike.map_shape_eq (fun shape => ?_) .flat type
  cases shape with
  | void | primitive _ | text _ | struct _ | enum _ | nullableValue _ | array _ => rfl
  | «class» _ isNullable => cases isNullable <;> rfl

theorem itemAnswer_eq (type : TypeRef) :
    (s₁.shape .flat type).map itemAnswerOf = (s₂.shape .flat type).map itemAnswerOf := by
  refine alike.map_shape_eq (fun shape => ?_) .flat type
  cases shape <;> rfl

theorem functionOf_eq (e : Export) : functionOf s₁ t e = functionOf s₂ t e := by
  rw [functionOf, functionOf]
  cases e.kind with
  | create | destroy | setEventCallback | setTrampolineLocator | setManagedHandle => rfl
  | member m =>
    change memberFunction s₁ t e.name m = memberFunction s₂ t e.name m
    rw [memberFunction, memberFunction, alike.declareFlat_eq, alike.resolve_eq,
      argumentsOf_eq alike, answer_eq alike]
  | arrayAccess index step =>
    change arrayFunction s₁ t e.name index step = arrayFunction s₂ t e.name index step
    rw [arrayFunction, arrayFunction, vectorOf_eq alike, alike.resolve_eq]
    simp only [itemAnswer_eq alike]

theorem ofClass_eq (exports : ExportTable) : ofClass s₁ t exports = ofClass s₂ t exports := by
  rw [ofClass, ofClass, (functionsOf_stepwise s₁ t).congr (functionsOf_stepwise s₂ t)
    (functionOf_eq alike t)]

end Shim

end Shims

section Fragments

theorem NativeMember.ofClass_eq : ofClass s₁ t = ofClass s₂ t := by
  have each (m : Member) : ofMember s₁ t m = ofMember s₂ t m := by
    rw [ofMember, ofMember, alike.resolve_eq, alike.declareAll_eq]
  rw [ofClass, ofClass, (ofMembers_stepwise s₁ t).congr (ofMembers_stepwise s₂ t) each]

theorem NativeTrampolines.ofTable_eq : ofTable s₁ t = ofTable s₂ t := by
  funext table
  have each (slot : Slot) : SlotWrapper.ofSlot s₁ t slot = SlotWrapper.ofSlot s₂ t slot := by
    rw [SlotWrapper.ofSlot, SlotWrapper.ofSlot, alike.resolve_eq, alike.declareAll_eq]
  rw [ofTable, ofTable, (SlotWrapper.ofSlots_stepwise s₁ t).congr
    (SlotWrapper.ofSlots_stepwise s₂ t) each]

theorem NativeEvents.ofClass_eq : ofClass s₁ t = ofClass s₂ t := by
  refine alike.baseOf_congr t (g := fun base =>
    NativeEvents.mk t.name (t.events.map Event.name)
      ((base.filter ApiType.hasEvents).map ApiType.name)) fun base => ?_
  cases base with
  | none => rfl
  | some b =>
    simp only [Option.map_some, Option.filter_some, ApiType.hasEvents_outline]
    cases b.hasEvents <;> rfl

theorem Fragment.ofClass_eq (slots : Option SlotTable) :
    ofClass s₁ t slots = ofClass s₂ t slots := by
  rw [ofClass, ofClass, NativeMember.ofClass_eq alike, NativeTrampolines.ofTable_eq alike,
    NativeEvents.ofClass_eq alike, alike.ownsHandle_eq]

end Fragments

section Scaffolds

namespace Scaffold

theorem definitions_eq : definitions s₁ t = definitions s₂ t := by
  rw [definitions, definitions, NativeMember.ofClass_eq alike]

theorem header_eq : header s₁ t = header s₂ t := by
  refine alike.baseOf_congr t (g := fun base =>
    Code.lines ["#pragma once", "", Code.includeLine "Api/ApiTypes.h"] ++
      Code.lines (base.map fun b => Code.includeLine b.header).toList ++
      Code.lines ["", classLine t base, "\x7b", Code.includeLine ("Api/" ++ t.name ++ ".inc"),
        "\x7d;"]) fun base => ?_
  cases base <;> rfl

end Scaffold

end Scaffolds

section Imports

theorem SlotDelegates.ofTable_eq : ofTable s₁ t = ofTable s₂ t := by
  funext table
  have each (slot : Slot) : SlotDelegate.ofSlot s₁ t slot = SlotDelegate.ofSlot s₂ t slot := by
    rw [SlotDelegate.ofSlot, SlotDelegate.ofSlot, alike.resolve_eq, alike.declareAll_eq,
      alike.returnAttribute_eq]
  rw [ofTable, ofTable, (SlotDelegate.ofSlots_stepwise s₁ t).congr
    (SlotDelegate.ofSlots_stepwise s₂ t) each]

theorem Import.ofExport_eq (e : Export) : ofExport s₁ t e = ofExport s₂ t e := by
  rw [ofExport, ofExport]
  cases e.kind with
  | create | destroy | setEventCallback | setTrampolineLocator | setManagedHandle => rfl
  | member m =>
    change ofMember s₁ t e.name m = ofMember s₂ t e.name m
    rw [ofMember, ofMember, alike.declareFlat_eq, alike.resolve_eq, alike.returnAttribute_eq]
  | arrayAccess index step =>
    change ofArrayStep s₁ t e.name index step = ofArrayStep s₂ t e.name index step
    unfold ofArrayStep
    rw [alike.resolve_eq, alike.returnAttribute_eq]

theorem Imports.ofClass_eq (exports : ExportTable) (slots : Option SlotTable) :
    ofClass s₁ t exports slots = ofClass s₂ t exports slots := by
  have hides : (s₁.baseOf t).isSome = (s₂.baseOf t).isSome :=
    alike.baseOf_congr t (g := Option.isSome) fun _ => Option.isSome_map
  rw [ofClass, ofClass, SlotDelegates.ofTable_eq alike, hides,
    (Import.ofExports_stepwise s₁ t).congr (Import.ofExports_stepwise s₂ t)
      (Import.ofExport_eq alike t)]

end Imports

section Wrappers

variable (objectClass : String)

theorem Operand.ofParameters_eq : ofParameters s₁ = ofParameters s₂ := by
  have each : ofParameter s₁ = ofParameter s₂ := by
    funext p
    refine alike.map_shape_eq (fun shape => ?_) .managed p.type
    cases shape with
    | void | primitive _ | text _ | struct _ | enum _ | nullableValue _ | «class» _ _ => rfl
    | array element => cases element <;> rfl
  funext ps
  induction ps with
  | nil => rfl
  | cons p ps ih => rw [ofParameters, ofParameters, each, ih]

theorem Outcome.agree_ofShape (type : TypeRef) :
    Agree (fun a b => ∀ call, lines objectClass call a = lines objectClass call b)
      ((s₁.shape .managed type).map ofShape) ((s₂.shape .managed type).map ofShape) := by
  refine (alike.agree_shape .managed type).map fun a b related call => ?_
  refine eq_of_blind (g := fun shape => lines objectClass call (ofShape shape)) (fun shape => ?_)
    related
  cases shape <;> rfl

theorem CallBody.agree_ofMember (m : Member) (symbol : String) :
    Agree (InvImage Eq (code objectClass)) (ofMember s₁ t m symbol) (ofMember s₂ t m symbol) := by
  rw [ofMember, ofMember, Operand.ofParameters_eq alike]
  refine .bind_self fun operands => ?_
  refine (Outcome.agree_ofShape alike objectClass _).bind fun a b lines => .ok ?_
  rw [InvImage, code, code, lines]

omit t in
theorem ArrayBody.agree_ofProperty (exports : ExportTable) (index : Nat) (p : Property)
    (element : TypeRef) :
    Agree (InvImage Eq (code objectClass)) (ofProperty s₁ exports index p element)
      (ofProperty s₂ exports index p element) := by
  rw [ofProperty, ofProperty, alike.resolve_eq]
  -- The spelling and the calls are the same; only the class of the items is another type.
  refine .bind_self fun spelling => .bind_self fun openCall => .bind_self fun countCall =>
    .bind_self fun itemCall => .bind_self fun closeCall => ?_
  have classes : Agree (InvImage Eq (Option.map ApiType.outline))
      ((s₁.shape .managed element).map itemClass) ((s₂.shape .managed element).map itemClass) := by
    refine (alike.agree_shape .managed element).map ?_
    intro a b related
    have kept (shape : Shape) :
        (itemClass shape).map ApiType.outline = itemClass (shape.map ApiType.outline) := by
      cases shape <;> rfl
    rw [InvImage, kept, kept, related]
  refine classes.bind fun a b related => .ok ?_
  refine eq_of_blind (g := fun wraps => code objectClass
    ⟨p.isStatic, spelling, wraps, openCall, countCall, itemCall, closeCall⟩) ?_ related
  intro wraps
  cases wraps <;> rfl

namespace WrappedProperty

variable (exports : ExportTable) (index : Nat) (p : Property)

theorem agree_callBody (m : Member) :
    Agree (InvImage Eq (Option.map (CallBody.code objectClass))) (callBody s₁ t exports m)
      (callBody s₂ t exports m) :=
  .mapM _ fun e => CallBody.agree_ofMember alike t objectClass m e.name

theorem agree_getterOf :
    Agree (InvImage Eq (Option.map (GetterBody.code objectClass))) (getterOf s₁ t exports index p)
      (getterOf s₂ t exports index p) := by
  refine (agree_callBody alike t objectClass exports (.getter index)).bind fun a b related => ?_
  cases a with
  | some body₁ =>
    obtain ⟨body₂, rfl, eq⟩ := Option.map_eq_some_iff.1 related.symm
    exact .ok (congrArg some eq.symm)
  | none =>
    obtain rfl := Option.map_eq_none_iff.1 related.symm
    cases get : p.get with
    | false => exact .ok rfl
    | true =>
      cases type : p.type with
      | array element =>
        refine (ArrayBody.agree_ofProperty alike objectClass exports index p element).bind ?_
        exact fun _ _ same => .ok (congrArg some same)
      | void | primitive _ | text | named _ | nullable _ | generic _ => exact .ok rfl

theorem agree_ofProperty (isServer : Bool) :
    Agree (InvImage Eq (code objectClass isServer)) (ofProperty s₁ t exports index p)
      (ofProperty s₂ t exports index p) := by
  rw [ofProperty, ofProperty, alike.resolve_eq]
  refine .bind_self fun type => ?_
  refine (agree_getterOf alike t objectClass exports index p).bind fun get₁ get₂ getters => ?_
  refine (agree_callBody alike t objectClass exports (.setter index)).bind
    fun set₁ set₂ setters => .ok ?_
  have reading := congrArg (Option.map (Code.block "get")) getters
  have writing := congrArg (Option.map (Code.block "set")) setters
  rw [Option.map_map, Option.map_map] at reading writing
  change Code.blank ++ Code.block (headline isServer ⟨p.name, p.isStatic, type, get₂, set₂⟩)
    ((get₁.map (Code.block "get" ∘ GetterBody.code objectClass)).getD [] ++
      (set₁.map (Code.block "set" ∘ CallBody.code objectClass)).getD []) = _
  rw [reading, writing]
  rfl

theorem agree_ofProperties (isServer : Bool) (ps : List Property) :
    Agree (InvImage Eq (List.flatMap (code objectClass isServer)))
      (ofProperties s₁ t exports index ps) (ofProperties s₂ t exports index ps) := by
  induction ps generalizing index with
  | nil => exact .ok rfl
  | cons p ps ih =>
    refine (agree_ofProperty alike t objectClass exports index p isServer).bind fun a b first => ?_
    refine (ih (index + 1)).bind fun as bs others => .ok ?_
    rw [InvImage, List.flatMap_cons, List.flatMap_cons, first, others]

end WrappedProperty

namespace WrappedMethod

variable (exports : ExportTable) (index : Nat) (isServer : Bool)

theorem agree_ofMethod (m : Method) :
    Agree (InvImage Eq (Option.map (code objectClass isServer))) (ofMethod s₁ t exports index m)
      (ofMethod s₂ t exports index m) := by
  refine .mapM _ fun e => ?_
  rw [alike.resolve_eq, alike.declareAll_eq]
  refine .bind_self fun result => .bind_self fun parameters => ?_
  refine (CallBody.agree_ofMember alike t objectClass _ e.name).bind fun a b same => .ok ?_
  rw [InvImage, code, code, same]
  rfl

theorem agree_ofMethods (ms : List Method) :
    Agree (InvImage Eq (List.flatMap (code objectClass isServer)))
      (ofMethods s₁ t exports index ms) (ofMethods s₂ t exports index ms) := by
  induction ms generalizing index with
  | nil => exact .ok rfl
  | cons m ms ih =>
    refine (agree_ofMethod alike t objectClass exports index isServer m).bind fun a b first => ?_
    refine (ih (index + 1)).bind fun as bs others => .ok ?_
    have own (w : Option WrappedMethod) : w.toList.flatMap (code objectClass isServer) =
        ((w.map (code objectClass isServer)).getD []) := by
      cases w with
      | none => rfl
      | some w => exact List.append_nil _
    rw [InvImage, List.flatMap_append, List.flatMap_append, own, own, first, others]

end WrappedMethod

theorem WrappedEvents.ofClass?_eq : ofClass? s₁ t = ofClass? s₂ t := by
  have each (e : Event) : WrappedEvent.ofEvent s₁ e = WrappedEvent.ofEvent s₂ e := by
    unfold WrappedEvent.ofEvent
    cases e.data with
    | none => rfl
    | some type =>
      refine alike.bind_shape_eq (fun shape => ?_) .managed type
      cases shape <;> rfl
  rw [ofClass?, ofClass?, ofClass, ofClass, (WrappedEvent.ofEvents_stepwise s₁).congr
    (WrappedEvent.ofEvents_stepwise s₂) each]

section Dispatches

namespace SlotHandler

def shown (objectClass : String) (p : Declared × Handed) : Declared × String :=
  (p.1, p.2.text objectClass)

/-- The handler stands for the same slot, and has the same code. -/
def SameHandler (objectClass typeName : String) (h k : SlotHandler) : Prop :=
  h.slot = k.slot ∧ h.code objectClass typeName = k.code objectClass typeName

omit t in
theorem agree_parameterOf (p : Parameter) :
    Agree (InvImage Eq (shown objectClass)) (parameterOf s₁ p) (parameterOf s₂ p) := by
  rw [parameterOf, parameterOf, alike.resolve_eq]
  refine .bind_self fun spelling => alike.agree_bind_shape (fun shape => ?_) .managed p.type
  cases shape <;> rfl

omit t in
theorem agree_parametersOf (ps : List Parameter) :
    Agree (List.Forall₂ (InvImage Eq (shown objectClass)))
      (parametersOf s₁ ps) (parametersOf s₂ ps) :=
  .stepwise (parametersOf_stepwise s₁) (parametersOf_stepwise s₂)
    (fun p => agree_parameterOf alike objectClass p) ps

theorem agree_ofSlot (slot : Slot) :
    Agree (SameHandler objectClass t.name) (ofSlot s₁ t slot) (ofSlot s₂ t slot) := by
  rw [ofSlot, ofSlot, alike.resolve_eq]
  refine (agree_parametersOf alike objectClass _).bind fun ps₁ ps₂ each => ?_
  refine .bind_self fun result => ?_
  have returned : (s₁.shape .managed (t.signature slot.member).returns).map returnedOf =
      (s₂.shape .managed (t.signature slot.member).returns).map returnedOf := by
    refine alike.map_shape_eq (fun shape => ?_) .managed _
    cases shape <;> rfl
  rw [returned]
  refine .bind_self fun back => .ok ⟨rfl, ?_⟩
  have declared : ps₁.map Prod.fst = ps₂.map Prod.fst :=
    forall₂_map_eq each fun _ _ same => (Prod.mk.inj same).1
  have handed : (ps₁.map Prod.snd).map (Handed.text objectClass) =
      (ps₂.map Prod.snd).map (Handed.text objectClass) := by
    rw [List.map_map, List.map_map]
    exact forall₂_map_eq each fun _ _ same => (Prod.mk.inj same).2
  unfold code signatureLine invocation
  rw [declared, handed]

end SlotHandler

theorem Dispatch.agree_ofTable (table : SlotTable) :
    Agree (InvImage Eq (code objectClass)) (ofTable s₁ t table) (ofTable s₂ t table) := by
  refine (Agree.stepwise (SlotHandler.ofSlots_stepwise s₁ t) (SlotHandler.ofSlots_stepwise s₂ t)
    (SlotHandler.agree_ofSlot alike t objectClass) table.slots).map fun hs₁ hs₂ each => ?_
  have arms : hs₁.map SlotHandler.slot = hs₂.map SlotHandler.slot :=
    forall₂_map_eq each fun _ _ same => same.1
  have bodies : hs₁.flatMap (SlotHandler.code objectClass t.name) =
      hs₂.flatMap (SlotHandler.code objectClass t.name) := by
    rw [List.flatMap_def, List.flatMap_def, forall₂_map_eq each fun _ _ same => same.2]
  have pins : pin ⟨t.name, hs₁⟩ = pin ⟨t.name, hs₂⟩ := by
    rw [pin, pin, Dispatch.arms, Dispatch.arms, arms]
    rfl
  rw [InvImage, code, code, pins, bodies]
  rfl

end Dispatches

omit alike t in
/-- The code of a wrapper reads no more of its base than the name, and no more of its members and
its dispatch than their code. -/
theorem Wrapper.code_congr (c : Config) {w v : Wrapper} (type : w.type = v.type)
    (base : w.base.map ApiType.name = v.base.map ApiType.name)
    (hasHandle : w.hasHandle = v.hasHandle) (ownsHandle : w.ownsHandle = v.ownsHandle)
    (create : w.create = v.create) (destroy : w.destroy = v.destroy)
    (handleSymbol : w.handleSymbol = v.handleSymbol)
    (properties : ∀ isServer,
      w.properties.flatMap (WrappedProperty.code c.managed.objectClass isServer) =
        v.properties.flatMap (WrappedProperty.code c.managed.objectClass isServer))
    (methods : ∀ isServer,
      w.methods.flatMap (WrappedMethod.code c.managed.objectClass isServer) =
        v.methods.flatMap (WrappedMethod.code c.managed.objectClass isServer))
    (events : w.events = v.events)
    (dispatch : w.dispatch.map (Dispatch.code c.managed.objectClass) =
      v.dispatch.map (Dispatch.code c.managed.objectClass))
    (imports : w.imports = v.imports) : w.code c = v.code c := by
  have derived : w.base.isSome = v.base.isSome := by
    rw [← Option.isSome_map (f := ApiType.name), base, Option.isSome_map]
  have serves : w.dispatch.isSome = v.dispatch.isSome := by
    rw [← Option.isSome_map (f := Dispatch.code c.managed.objectClass), dispatch,
      Option.isSome_map]
  have headline : w.classLine c = v.classLine c := by
    unfold classLine
    rw [type, base]
  have constructors : w.constructors = v.constructors := by
    simp only [Wrapper.constructors, staticConstructor, plainConstructor, attachment, type, derived,
      hasHandle, create]
  have destruction : w.destruction = v.destruction := by
    rw [Wrapper.destruction, Wrapper.destruction, destroy, hasHandle, ownsHandle]
  have answering : (w.dispatch.map fun d => Code.blank ++ d.code c.managed.objectClass) =
      v.dispatch.map fun d => Code.blank ++ d.code c.managed.objectClass := by
    have eq := congrArg (Option.map (Code.blank ++ ·)) dispatch
    rwa [Option.map_map, Option.map_map] at eq
  have body : w.body c = v.body c := by
    rw [Wrapper.body, Wrapper.body, constructors, type, properties, methods, handleSymbol,
      destruction, events, answering, imports]
  rw [code, code, usings, usings, serves, headline, body]

theorem Wrapper.code_eq (c : Config) {exports : ExportTable} {slots : Option SlotTable}
    {w₁ w₂ : Wrapper} (h₁ : ofClass s₁ t exports slots = .ok w₁)
    (h₂ : ofClass s₂ t exports slots = .ok w₂) : w₁.code c = w₂.code c := by
  have parts₁ := parts_of_ofClass h₁
  have parts₂ := parts_of_ofClass h₂
  have base : (s₁.baseOf t).map ApiType.name = (s₂.baseOf t).map ApiType.name :=
    alike.baseOf_congr t fun b => Option.map_map _ _ b
  have events := eq_of_ok (WrappedEvents.ofClass?_eq alike t) parts₁.events_ok parts₂.events_ok
  have imports := eq_of_ok (Imports.ofClass_eq alike t exports slots) parts₁.imports_ok
    parts₂.imports_ok
  have dispatch := Agree.mapM slots (Dispatch.agree_ofTable alike t c.managed.objectClass)
  rw [parts₁.dispatch_ok, parts₂.dispatch_ok] at dispatch
  refine code_congr c (parts₁.type_eq.trans parts₂.type_eq.symm) ?_ ?_ ?_
    (parts₁.create_eq.trans parts₂.create_eq.symm) (parts₁.destroy_eq.trans parts₂.destroy_eq.symm)
    (parts₁.handleSymbol_eq.trans parts₂.handleSymbol_eq.symm) (fun isServer => ?_)
    (fun isServer => ?_) events dispatch.related imports
  · rw [parts₁.base_eq, parts₂.base_eq, base]
  · rw [parts₁.hasHandle_eq, parts₂.hasHandle_eq, alike.hasHandle_eq]
  · rw [parts₁.ownsHandle_eq, parts₂.ownsHandle_eq, alike.ownsHandle_eq]
  · have same := WrappedProperty.agree_ofProperties alike t c.managed.objectClass exports 0 isServer
      t.properties
    rw [parts₁.properties_ok, parts₂.properties_ok] at same
    exact same.related
  · have same := WrappedMethod.agree_ofMethods alike t c.managed.objectClass exports 0 isServer
      t.methods
    rw [parts₁.methods_ok, parts₂.methods_ok] at same
    exact same.related

end Wrappers

namespace ClassArtifacts

theorem files_eq (c : Config) {a₁ a₂ : ClassArtifacts} (h₁ : build s₁ t = .ok a₁)
    (h₂ : build s₂ t = .ok a₂) : a₁.files c s₁ = a₂.files c s₂ := by
  obtain ⟨slots₁, exports₁, parts₁⟩ := parts_of_build h₁
  obtain ⟨slots₂, exports₂, parts₂⟩ := parts_of_build h₂
  obtain rfl : slots₁ = slots₂ := eq_of_ok rfl parts₁.slots_ok parts₂.slots_ok
  obtain rfl : exports₁ = exports₂ :=
    eq_of_ok (alike.exports_eq t) parts₁.exports_ok parts₂.exports_ok
  have shim := eq_of_ok (Shim.ofClass_eq alike t exports₁) parts₁.shim_ok parts₂.shim_ok
  have fragment := eq_of_ok (Fragment.ofClass_eq alike t slots₁) parts₁.fragment_ok
    parts₂.fragment_ok
  have wrapper := Wrapper.code_eq alike t c parts₁.wrapper_ok parts₂.wrapper_ok
  have definitions := eq_of_ok (Scaffold.definitions_eq alike t) parts₁.definitions_ok
    parts₂.definitions_ok
  rw [files, files, parts₁.type_eq, parts₂.type_eq, shim, fragment, wrapper, definitions,
    Scaffold.header_eq alike t]

end ClassArtifacts

end InteropGen
