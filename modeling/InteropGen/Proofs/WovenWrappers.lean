import InteropGen.Proofs.WovenImports
import InteropGen.Proofs.WovenMembers
import InteropGen.Proofs.WovenTypes

set_option autoImplicit false

/-!
# Wrappers are woven

The events and trampolines of a wrapper are composed of the declared names and fixed text like its
members.  Some of their lines leave a parenthesis open that a later line closes.  So the whole
wrapper is woven, but for the attributes that carry the calling convention.
-/

namespace InteropGen

-- The fixed texts are checked character by character, and some are long.
set_option maxRecDepth 1024

open Text

variable {N M : String → Prop} {c : Config} {s : Schema} {t : ApiType}

section Events

structure WrappedEvent.IsComposed (N : String → Prop) (e : WrappedEvent) : Prop where
  name : Composed N e.name
  payload : ∀ struct, e.kind = .payload struct → Composed N struct

theorem WrappedEvent.isComposed_ofEvent (names : s.Named N) {event : Event} (h : N event.name)
    {e : WrappedEvent} (ok : ofEvent s event = .ok e) : e.IsComposed N := by
  rw [ofEvent] at ok
  split at ok
  · cases ok
    refine ⟨.name h, fun struct kind => ?_⟩
    split at kind <;> cases kind
  · obtain ⟨shape, hshape, ok⟩ := bind_eq_ok.1 ok
    have mentioned := names.all_named (Schema.shape_eq_ok.1 hshape)
    cases shape with
    | struct t =>
      cases ok
      refine ⟨.name h, fun struct kind => ?_⟩
      cases kind
      exact .name mentioned
    | _ => cases ok

variable {e : WrappedEvent}

theorem WrappedEvent.IsComposed.raising (h : e.IsComposed N) :
    Code.IsWoven N M (Code.lines e.raising) := by
  rw [WrappedEvent.raising]
  cases kind : e.kind with
  | payload struct =>
    have type := h.payload struct kind
    have arguments : Composed N ("var ea = new NativeEventArgs<" ++ struct ++
        ">(Marshal.PtrToStructure<" ++ struct ++ ">(parameter));") :=
      (((Begun.start _).name type _).name type _).closed (by decide)
    exact .cons arguments (.cons (h.name.suffixed _ (by decide)) .nil)
  | cancellable =>
    exact .cons (.fixed _ (by decide)) <| .cons (h.name.suffixed _ (by decide)) <|
      .cons (.fixed _ (by decide)) .nil
  | plain => exact .cons (h.name.suffixed _ (by decide)) .nil

theorem WrappedEvent.IsComposed.declaration (h : e.IsComposed N) : Composed N e.declaration := by
  rw [WrappedEvent.declaration]
  cases kind : e.kind with
  | payload struct =>
    exact (((Begun.start _).name (h.payload struct kind) _).name h.name _).closed (by decide)
  | cancellable => exact ((Begun.start _).name h.name _).closed (by decide)
  | plain => exact ((Begun.start _).name h.name _).closed (by decide)

namespace WrappedEvents

variable {objectClass : String} {w : WrappedEvents} (object : Composed N objectClass)
  (type : Composed N w.type.name)
include object type

theorem isWoven_registration : (w.registration objectClass).IsWoven N M := by
  have call : w.registrationCall.IsComposed N :=
    ⟨type.suffixed _ (by decide),
      List.forall_mem_singleton.2 (.fixed _ (by decide) : Composed N "sink")⟩
  have found : Composed N ("var w = " ++ Managed.lookup objectClass w.type "obj" ++ ";") :=
    ((Begun.start _).name (composed_lookup object type (.fixed _ (by decide))) _).closed (by decide)
  have sink : (w.sink objectClass).IsWoven N M :=
    .cons found <| .cons (.fixed _ (by decide)) <| .cons (.fixed _ (by decide)) .nil
  have opening : Begun N ("var sink = new NativeApi." ++ w.type.name ++
      "EventCallbackType((obj, e, parameter) =>") _ := (Begun.start _).name type _
  -- The parenthesis in front of the callback is closed below its body.
  have handed : Code.IsWoven N M (Code.line ("var sink = new NativeApi." ++ w.type.name ++
      "EventCallbackType((obj, e, parameter) =>") ++ Code.braces (w.sink objectClass) ++
      Code.line ");") := .enclosed opening sink.braces (by decide)
  have body : Code.IsWoven N M (Code.line ("var sink = new NativeApi." ++ w.type.name ++
      "EventCallbackType((obj, e, parameter) =>") ++ Code.braces (w.sink objectClass) ++
      Code.lines [");", "eventCallbackGCHandle = GCHandle.Alloc(sink);",
        w.registrationCall.statement]) := by
    have split : Code.lines [");", "eventCallbackGCHandle = GCHandle.Alloc(sink);",
        w.registrationCall.statement] = Code.line ");" ++
          Code.lines ["eventCallbackGCHandle = GCHandle.Alloc(sink);",
            w.registrationCall.statement] := rfl
    rw [split, ← List.append_assoc]
    exact .append handed (.cons (.fixed _ (by decide)) (.cons call.statement .nil))
  exact .block (.fixed _ (by decide)) (.block (.fixed _ (by decide)) body)

theorem isWoven_code (composed : ∀ e ∈ w.events, e.IsComposed N) :
    (w.code objectClass).IsWoven N M := by
  have headline : Composed N
      ("IntPtr OnEvent(NativeApi." ++ w.type.name ++ "Event e, IntPtr parameter)") :=
    ((Begun.start _).name type _).closed (by decide)
  have unexpected : Composed N ("default: throw new Exception(\"Unexpected " ++ w.type.name ++
      "Event value: \" + e);") := ((Begun.start _).name type _).closed (by decide)
  have cases : ∀ e ∈ w.events, Code.IsWoven N M (e.code w.type.name) := by
    intro e he
    have label : Composed N (e.caseLine w.type.name) :=
      (((Begun.start _).name type _).name (composed e he).name _).closed (by decide)
    exact .block label (composed e he).raising
  have dispatch : w.dispatch.IsWoven N M :=
    .block headline (.block (.fixed _ (by decide)) (.append (.flatMap cases) (.line unexpected)))
  have declarations : ∀ x ∈ w.events.map WrappedEvent.declaration, Composed N x :=
    List.forall_mem_map.2 fun e he => (composed e he).declaration
  exact .append (.append (.append (.append (.append (.append (.append .blank
    (.fixed _ (by decide))) .blank) (isWoven_registration object type)) .blank) dispatch) .blank)
    (.lines declarations)

end WrappedEvents

end Events

section Handlers

/-- The parts of the handler are composed.  The name of the slot stands behind that of the type, and
the member may stand behind it with a dot in between. -/
structure SlotHandler.IsComposed (N : String → Prop) (objectClass typeName : String)
    (h : SlotHandler) : Prop where
  slot : Composed N h.slot
  joined : Composed N (typeName ++ h.slot)
  result : Composed N h.result.literal
  parameters : ∀ d ∈ h.parameters, Composed N d.text
  invocation : Composed N (h.invocation objectClass typeName)

namespace SlotHandler

variable {objectClass : String} {h : SlotHandler} (object : Composed N objectClass)
  (names : s.Named N) (own : t.Named N)

theorem composed_target {x : String} (hx : Composed N x) {isStatic : Bool}
    (joined : isStatic = true → N (t.name ++ "." ++ x)) :
    Composed N ((if isStatic then t.name else "target") ++ "." ++ x) := by
  cases isStatic with
  | true => exact .name (joined rfl)
  | false =>
    have instance_ : Composed N ("target" ++ "." ++ x) :=
      ((Begun.start _).more _).last hx (by decide)
    exact instance_

include own in
theorem composed_access (server : t.managedServer = true) {m : Member} (hm : m ∈ t.members)
    {arguments : String} (h : Composed N arguments) :
    Composed N ((accessOf t m).text (if (t.signature m).isStatic then t.name else "target")
      arguments) := by
  cases m with
  | getter i =>
    have hp := exists_property_of_getter hm
    exact composed_target (.name (own.properties _ hp)) (own.staticProperties server _ hp)
  | setter i =>
    have hp := exists_property_of_setter hm
    exact (Begun.first (composed_target (.name (own.properties _ hp))
      (own.staticProperties server _ hp)) _).last h (by decide)
  | method i =>
    have hp := exists_method_of_member hm
    exact ((Begun.first (composed_target (.name (own.methods _ hp))
      (own.staticMethods server _ hp)) _).name h _).closed (by decide)

include object names in
theorem composed_parameterOf {p : Parameter} (hp : Composed N p.name) {d : Declared × Handed}
    (h : parameterOf s p = .ok d) :
    Composed N d.1.text ∧ Composed N (d.2.text objectClass) := by
  obtain ⟨spelling, hspelling, h⟩ := bind_eq_ok.1 h
  obtain ⟨shape, hshape, h⟩ := bind_eq_ok.1 h
  cases h
  refine ⟨composed_declared (names.composed_resolve hspelling) hp, ?_⟩
  have mentioned := names.all_named (Schema.shape_eq_ok.1 hshape)
  cases shape with
  | «class» type isNullable => exact composed_wrap object (.name mentioned) hp isNullable
  | _ => exact hp

include object names own in
theorem isComposed_ofSlot (server : t.managedServer = true) {table : SlotTable}
    (derived : SlotTable.derive t = .ok table) {slot : Slot} (hslot : slot ∈ table.slots)
    (ok : ofSlot s t slot = .ok h) : h.IsComposed N objectClass t.name := by
  have hm := (SlotTable.of_derive derived).1 slot hslot
  have named := SlotTable.named_of_derive derived slot hslot
  obtain ⟨parameters, hparameters, ok⟩ := bind_eq_ok.1 ok
  obtain ⟨result, hresult, ok⟩ := bind_eq_ok.1 ok
  obtain ⟨returned, _, ok⟩ := bind_eq_ok.1 ok
  cases ok
  have each : ∀ d ∈ parameters, Composed N d.1.text ∧ Composed N (d.2.text objectClass) := by
    intro d hd
    obtain ⟨p, hp, ok⟩ := exists_left_of_forall₂ ((parametersOf_stepwise s).forall₂ hparameters) hd
    exact composed_parameterOf object names (own.composed_parameters hm p hp) ok
  have arguments : Composed N (", ".intercalate
      ((parameters.map Prod.snd).map (Handed.text objectClass))) := by
    refine .intercalate fun text ht => ?_
    obtain ⟨handed, hhanded, rfl⟩ := List.mem_map.1 ht
    obtain ⟨d, hd, rfl⟩ := List.mem_map.1 hhanded
    exact (each d hd).2
  exact ⟨named ▸ own.composed_signature hm, named ▸ own.composed_slot server hm,
    names.composed_resolve hresult, List.forall_mem_append.2
      ⟨composed_handleOf _, List.forall_mem_map.2 fun d hd => (each d hd).1⟩,
    composed_access own server hm arguments⟩

omit object in
theorem IsComposed.isWoven {typeName : String} (composed : h.IsComposed N objectClass typeName)
    (type : Composed N typeName) : (h.code objectClass typeName).IsWoven N M := by
  have signature : Composed N h.signatureLine :=
    ((((Begun.start _).name composed.result _).name composed.slot _).name
      (composed_join composed.parameters) _).closed (by decide)
  have target : Composed N
      ("var target = (" ++ typeName ++ ")GCHandle.FromIntPtr(obj).Target!;") :=
    ((Begun.start _).name type _).closed (by decide)
  have statement : Composed N (h.returned.statement (h.invocation objectClass typeName)) := by
    cases h.returned with
    | nothing => exact composed.invocation.suffixed [';'] (by decide)
    | asIs => exact ((Begun.start _).name composed.invocation _).closed (by decide)
    | unwrapped isNullable =>
      exact ((Begun.start _).name (composed_unwrap composed.invocation isNullable) _).closed
        (by decide)
  exact .append .blank (.block signature (.append (.given _ (.line target)) (.line statement)))

end SlotHandler

namespace Dispatch

variable {d : Dispatch} {objectClass : String}

theorem composed_slotEnum (type : Composed N d.typeName) : Composed N d.slotEnum :=
  ((Begun.start _).name type _).closed (by decide)

theorem composed_arm (type : Composed N d.typeName) {slot : String} (h : Composed N slot)
    (joined : Composed N (d.typeName ++ slot)) : Composed N (d.arm slot) := by
  have arm : d.arm slot = "NativeApi." ++ d.typeName ++ "Trampoline" ++ "." ++ slot ++
      " => new NativeApi." ++ (d.typeName ++ slot) ++ "Trampoline(Trampoline" ++ slot ++ ")," := by
    change "NativeApi." ++ d.typeName ++ "Trampoline" ++ "." ++ slot ++ " => new NativeApi." ++
      d.typeName ++ slot ++ "Trampoline(Trampoline" ++ slot ++ ")," = _
    simp only [String.append_assoc]
  rw [arm]
  exact ((((((Begun.start _).name type _).more _).name h _).name joined _).name h _).closed
    (by decide)

theorem isWoven_storage (type : Composed N d.typeName) : d.storage.IsWoven N M := by
  have pinned : Composed N ("static readonly ConcurrentDictionary<" ++ d.slotEnum ++
      ", Lazy<(GCHandle Pin, IntPtr Pointer)>> trampolines = new();") :=
    ((Begun.start _).name (composed_slotEnum type) _).closed (by decide)
  have locator : Composed N ("static readonly NativeApi." ++ d.typeName ++
      "TrampolineLocatorCallback trampolineLocator = LocateTrampoline;") :=
    ((Begun.start _).name type _).closed (by decide)
  exact .cons pinned <| .cons locator <| .cons (.fixed _ (by decide)) .nil

theorem isWoven_registration (type : Composed N d.typeName) : d.registration.IsWoven N M := by
  have call : d.registrationCall.IsComposed N :=
    ⟨type.suffixed _ (by decide),
      List.forall_mem_singleton.2 (.fixed _ (by decide) : Composed N "trampolineLocator")⟩
  exact .block (.fixed _ (by decide)) (.append (.append (.fixed _ (by decide))
    (.nest (.fixed _ (by decide)))) (.line call.statement))

theorem isWoven_locate (type : Composed N d.typeName) : d.locate.IsWoven N M := by
  have slotEnum := composed_slotEnum type
  have headline : Composed N ("static IntPtr LocateTrampoline(" ++ d.slotEnum ++ " trampoline)") :=
    ((Begun.start _).name slotEnum _).closed (by decide)
  have guard : Composed N ("if (!Enum.IsDefined(typeof(" ++ d.slotEnum ++ "), trampoline))") :=
    ((Begun.start _).name slotEnum _).closed (by decide)
  have closing : "slot => new Lazy<(GCHandle Pin, IntPtr Pointer)>(() => " ++
      "PinTrampoline(slot))).Value.Pointer;" =
      "slot => new Lazy<(GCHandle Pin, IntPtr Pointer)>(() => PinTrampoline(slot))).Value.Pointer;" :=
    by decide
  -- The parenthesis behind the name of the function is closed two lines below.
  have found : Code.IsWoven N M (Code.line "return trampolines.GetOrAdd(" ++
      Code.line "trampoline," ++ Code.line ("slot => new Lazy<(GCHandle Pin, IntPtr Pointer)>(() => " ++
        "PinTrampoline(slot))).Value.Pointer;")) := by
    rw [closing]
    exact .enclosed (.start _) (.fixed _ (by decide)) (by decide)
  have guarded : Code.IsWoven N M
      (Code.line ("if (!Enum.IsDefined(typeof(" ++ d.slotEnum ++ "), trampoline))") ++
        Code.nest (Code.line "return IntPtr.Zero;")) :=
    .append (.line guard) (.nest (.fixed _ (by decide)))
  exact .block headline (guarded.append found)

theorem isWoven_pin (type : Composed N d.typeName)
    (arms : ∀ slot ∈ d.arms, Composed N slot ∧ Composed N (d.typeName ++ slot)) :
    d.pin.IsWoven N M := by
  have headline : Composed N
      ("static (GCHandle Pin, IntPtr Pointer) PinTrampoline(" ++ d.slotEnum ++ " trampoline)") :=
    ((Begun.start _).name (composed_slotEnum type) _).closed (by decide)
  have lines : ∀ x ∈ d.arms.map d.arm, Composed N x :=
    List.forall_mem_map.2 fun slot hslot =>
      composed_arm type (arms slot hslot).1 (arms slot hslot).2
  have unexpected : Composed N
      "_ => throw new ArgumentOutOfRangeException(nameof(trampoline))," :=
    .fixed _ (by decide)
  exact .block headline (.append
    (.blockEnding (.fixed _ (by decide)) (.append (.lines lines) (.line unexpected)))
    (.cons (.fixed _ (by decide)) (.cons (.fixed _ (by decide)) .nil)))

theorem isWoven_ofTable (object : Composed N objectClass) (names : s.Named N) (own : t.Named N)
    (server : t.managedServer = true) {table : SlotTable} (derived : SlotTable.derive t = .ok table)
    (h : ofTable s t table = .ok d) : (d.code objectClass).IsWoven N M := by
  obtain ⟨handlers, hhandlers, rfl⟩ := map_eq_ok.1 h
  have type := Composed.name own.name
  have composed : ∀ handler ∈ handlers, handler.IsComposed N objectClass t.name := by
    intro handler hhandler
    obtain ⟨slot, hslot, ok⟩ :=
      exists_left_of_forall₂ ((SlotHandler.ofSlots_stepwise s t).forall₂ hhandlers) hhandler
    exact SlotHandler.isComposed_ofSlot object names own server derived hslot ok
  have arms : ∀ slot ∈ arms ⟨t.name, handlers⟩, Composed N slot ∧ Composed N (t.name ++ slot) :=
    List.forall_mem_map.2 fun handler hhandler =>
      ⟨(composed handler hhandler).slot, (composed handler hhandler).joined⟩
  exact .append (.append (.append (.append (.append (.append (.append (isWoven_storage type) .blank)
    (isWoven_registration type)) .blank) (isWoven_locate type)) .blank) (isWoven_pin type arms))
    (.flatMap fun handler hhandler => (composed handler hhandler).isWoven type)

end Dispatch

end Handlers

namespace Wrapper

variable {exports : ExportTable} {slots : Option SlotTable} {w : Wrapper}

theorem isWoven_body (names : s.Named N) (config : c.Named N) (ht : t ∈ s.types)
    (exports_ok : ExportTable.build s t = .ok exports) (slots_ok : t.slotTable = .ok slots)
    (parts : w.Parts s t exports slots) : (w.body c).IsWoven N (ConventionLine c) := by
  have own := names t ht
  have object := Composed.name config.objectClass
  have type : Composed N w.type.name := parts.type_eq ▸ .name own.name
  have plainCall {e : Option Export} {kind : ExportKind} (found : exports.find? kind = e)
      {operands : List Operand} (ho : ∀ o ∈ operands, Composed N o.text) :
      ∀ call ∈ e.map fun e => NativeCall.mk e.name operands, call.IsComposed N := by
    intro call hcall
    obtain ⟨entry, rfl, rfl⟩ := Option.map_eq_some_iff.1 hcall
    obtain ⟨mem, rfl⟩ := (ExportTable.find?_eq_some exports_ok).1 found
    exact ⟨own.composed_nameOf mem, ho⟩
  have created : ∀ call ∈ w.create, call.IsComposed N := by
    rw [parts.create_eq]
    exact plainCall rfl (by simp)
  have destroyed : ∀ call ∈ w.destroy, call.IsComposed N := by
    rw [parts.destroy_eq]
    exact plainCall rfl
      (List.forall_mem_singleton.2 (.fixed _ (by decide) : Composed N "NativePointer"))
  have properties : ∀ p ∈ w.properties, Code.IsWoven N (ConventionLine c)
      (p.code c.managed.objectClass w.type.managedServer) := by
    intro p hp
    obtain ⟨i, declared, hdeclared, ok⟩ := WrappedProperty.exists_of_mem parts.properties_ok hp
    exact woven_property object names own exports_ok _ (List.mem_of_getElem? hdeclared) ok
  have methods : ∀ m ∈ w.methods, Code.IsWoven N (ConventionLine c)
      (m.code c.managed.objectClass w.type.managedServer) := by
    intro m hm
    obtain ⟨i, declared, hdeclared, ok⟩ := WrappedMethod.exists_of_mem parts.methods_ok hm
    exact woven_method object names own exports_ok _ (List.mem_of_getElem? hdeclared) ok
  have handle : Code.IsWoven N (ConventionLine c)
      ((w.handleSymbol.map fun symbol => Code.blank ++ handleCode symbol).getD []) := by
    refine .getD fun code hcode => ?_
    obtain ⟨symbol, hsymbol, rfl⟩ := Option.map_eq_some_iff.1 hcode
    rw [parts.handleSymbol_eq] at hsymbol
    obtain ⟨e, he, rfl⟩ := Option.map_eq_some_iff.1 hsymbol
    obtain ⟨mem, rfl⟩ := (ExportTable.find?_eq_some exports_ok).1 he
    exact .append .blank (isWoven_handleCode (own.composed_nameOf mem))
  have events : Code.IsWoven N (ConventionLine c)
      ((w.events.map (WrappedEvents.code c.managed.objectClass)).getD []) := by
    refine .getD fun code hcode => ?_
    obtain ⟨wrapped, hwrapped, rfl⟩ := Option.map_eq_some_iff.1 hcode
    have events_ok := parts.events_ok
    rw [WrappedEvents.ofClass?] at events_ok
    split at events_ok
    · obtain ⟨_, ok, eq⟩ := map_eq_ok.1 events_ok
      rw [← eq] at hwrapped
      cases hwrapped
      obtain ⟨events, hevents, rfl⟩ := map_eq_ok.1 ok
      refine WrappedEvents.isWoven_code object (.name own.name) fun e he => ?_
      obtain ⟨event, hevent, ok⟩ :=
        exists_left_of_forall₂ ((WrappedEvent.ofEvents_stepwise s).forall₂ hevents) he
      exact WrappedEvent.isComposed_ofEvent names (own.events event hevent) ok
    · rw [← Except.ok.inj events_ok] at hwrapped
      cases hwrapped
  have dispatch : Code.IsWoven N (ConventionLine c)
      ((w.dispatch.map fun d => Code.blank ++ d.code c.managed.objectClass).getD []) := by
    refine .getD fun code hcode => ?_
    obtain ⟨d, hd, rfl⟩ := Option.map_eq_some_iff.1 hcode
    refine .append .blank ?_
    rcases mapM_eq_ok.1 parts.dispatch_ok with ⟨_, none⟩ | ⟨table, _, rfl, some, ok⟩
    · rw [none] at hd
      cases hd
    · rw [some] at hd
      cases hd
      rcases ApiType.slotTable_eq_ok.1 slots_ok with ⟨_, none⟩ | ⟨_, server, eq, derived⟩
      · cases none
      · cases eq
        exact Dispatch.isWoven_ofTable object names own server derived ok
  have imports : (w.imports.code c).IsWoven N (ConventionLine c) :=
    Imports.isWoven_ofClass names config.nativeModule ht exports_ok slots_ok parts.imports_ok
  exact .append (.append (.append (.append (.append (.append (.append (.append
    (isWoven_constructors type created) (.flatMap properties)) (.flatMap methods)) handle)
    (isWoven_destruction destroyed)) events) dispatch) .blank) imports

theorem isWoven_ofClass (names : s.Named N) (config : c.Named N) (ht : t ∈ s.types)
    (exports_ok : ExportTable.build s t = .ok exports) (slots_ok : t.slotTable = .ok slots)
    (h : ofClass s t exports slots = .ok w) : (w.code c).IsWoven N (ConventionLine c) := by
  have parts := parts_of_ofClass h
  have type : Composed N w.type.name := parts.type_eq ▸ .name (names t ht).name
  have base : Composed N ((w.base.map ApiType.name).getD c.managed.objectClass) := by
    cases isBase : w.base with
    | none => exact .name config.objectClass
    | some b =>
      have found : s.baseOf t = some b := parts.base_eq ▸ isBase
      exact .name (names b (Schema.baseOf_mem found)).name
  have abstract_ : Composed N (if w.type.isAbstract then "abstract " else "") := by
    split <;> exact .fixed _ (by decide)
  have classLine : Composed N (w.classLine c) :=
    (((Begun.start _).name abstract_ _).name type _).last base (by decide)
  have usings : ∀ x ∈ w.usings, Composed N x := by
    refine List.forall_mem_append.2 ⟨List.forall_mem_append.2 ⟨List.forall_mem_append.2
      ⟨List.forall_mem_singleton.2 (.fixed _ (by decide)), ?_⟩, ?_⟩, ?_⟩
    · split
      · exact List.forall_mem_singleton.2 (.fixed _ (by decide))
      · simp
    · simp only [List.forall_mem_cons]
      exact ⟨.fixed _ (by decide), .fixed _ (by decide), .fixed _ (by decide), by simp⟩
    · split
      · exact List.forall_mem_singleton.2 (.fixed _ (by decide))
      · simp
  exact .append (.append (.append (.cons (.fixed _ (by decide)) <| .cons (.fixed _ (by decide)) <|
    .cons (.fixed _ (by decide)) .nil) (.lines usings)) .blank)
    (.block ((Begun.start _).last (.name config.namespaceName) (by decide))
      (.block classLine (isWoven_body names config ht exports_ok slots_ok parts)))

end Wrapper

end InteropGen
