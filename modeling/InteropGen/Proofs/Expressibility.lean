import InteropGen.Proofs.MemberSuccess
import InteropGen.Proofs.TableSuccess
import InteropGen.Proofs.ValueTypes

set_option autoImplicit false

/-!
# Which schemas can be generated

Whether a valid schema has a plan can be read off its declarations: the structs have an order, and
each class keeps to the types that cross the boundary.  The configuration has no say in it, and
every plan has the same number of files.
-/

namespace InteropGen

namespace Schema

/-- What a class may declare.  Arrays are only read, from properties, and not by servers; `names`
are the flat functions of the class, with four for each array that is read. -/
structure ExpressesClass (s : Schema) (t : ApiType) : Prop where
  properties : ∀ p ∈ t.properties, s.HasShape p.type
  methods : ∀ m ∈ t.methods, s.Accepts .flat .result m.returns ∧
    ∀ p ∈ m.parameters, s.Accepts .flat .argument p.type
  getters : ∀ p ∈ t.properties, p.get = true → p.type.isArray = false →
    s.Accepts .flat .result p.type
  setters : ∀ p ∈ t.properties, p.set = true →
    p.type.isArray = false ∧ s.Accepts .flat .argument p.type
  payloads : ∀ e ∈ t.events, ∀ type ∈ e.data, ∃ u, s.shapeOf type = .ok (.struct u)
  names : ((s.exportKinds t).map t.nameOf).Nodup
  server : t.managedServer = true → ∀ m ∈ t.members, t.IsArrayFree m

/-- What a schema may declare. -/
structure IsExpressible (s : Schema) : Prop where
  structs : s.EmbedsValues
  classes : ∀ t ∈ s.classes, s.ExpressesClass t

end Schema

open Schema

variable {s : Schema} {t : ApiType} {slots : Option SlotTable} {exports : ExportTable}

section FromArtifacts

variable {a : ClassArtifacts} (parts : a.Parts s t slots exports)
include parts

theorem ClassArtifacts.Parts.acceptsSignature {m : Member} (hm : m ∈ t.members)
    (plain : t.isSteppedGetter m = false) : s.AcceptsSignature (t.signature m) := by
  obtain ⟨f, _, ok⟩ := Shim.exists_function parts.exports_ok parts.shim_ok
    (mem_exportKinds_member.2 ⟨hm, plain⟩)
  exact Shim.succeeds_memberFunction_iff.1 ⟨f, ok⟩

theorem ClassArtifacts.Parts.payloads :
    ∀ e ∈ t.events, ∀ type ∈ e.data, ∃ u, s.shapeOf type = .ok (.struct u) := by
  intro e he
  have has : t.hasEvents = true := by
    rw [ApiType.hasEvents, Bool.not_eq_true', List.isEmpty_eq_false_iff]
    exact List.ne_nil_of_mem he
  have events := (Wrapper.parts_of_ofClass parts.wrapper_ok).events_ok
  rw [WrappedEvents.ofClass?, if_pos has] at events
  obtain ⟨wrapped, ok, _⟩ := map_eq_ok.1 events
  obtain ⟨es, hes, _⟩ := map_eq_ok.1 ok
  obtain ⟨w, _, ok⟩ := exists_right_of_forall₂ ((WrappedEvent.ofEvents_stepwise s).forall₂ hes) he
  exact WrappedEvent.succeeds_ofEvent_iff.1 ⟨w, ok⟩

theorem ClassArtifacts.Parts.expressesClass : s.ExpressesClass t := by
  obtain ⟨exportable, names⟩ := ExportTable.succeeds_build_iff.1 ⟨exports, parts.exports_ok⟩
  refine ⟨fun p hp => ?_, fun m hm => ?_, fun p hp get single => ?_, fun p hp set => ?_,
    parts.payloads, names, fun server => ?_⟩
  · obtain ⟨i, hi⟩ := List.mem_iff_getElem?.1 hp
    have wrapped := (Wrapper.parts_of_ofClass parts.wrapper_ok).properties_ok
    obtain ⟨w, _, ok⟩ := WrappedProperty.exists_of_property wrapped hi
    obtain ⟨type, htype, _⟩ := bind_eq_ok.1 ok
    exact accepts_managed_iff.1 ⟨type, htype⟩
  · obtain ⟨i, hi⟩ := List.mem_iff_getElem?.1 hm
    have mem := ApiType.mem_members_method.2 (List.getElem?_eq_some_iff.1 hi).1
    have accepted := parts.acceptsSignature mem rfl
    rw [ApiType.signature, ApiType.method_eq hi] at accepted
    exact accepted
  · obtain ⟨i, hi⟩ := List.mem_iff_getElem?.1 hp
    have mem := ApiType.mem_members_getter.2 ⟨p, hi, get⟩
    rw [← ApiType.property_eq hi] at single ⊢
    exact (parts.acceptsSignature mem single).1
  · obtain ⟨i, hi⟩ := List.mem_iff_getElem?.1 hp
    have mem := ApiType.mem_members_setter.2 ⟨p, hi, set⟩
    have single : (t.property i).type.isArray = false := exportable _ mem
    have accepted := (parts.acceptsSignature mem rfl).2 _ List.mem_cons_self
    rw [ApiType.property_eq hi] at single accepted
    exact ⟨single, accepted⟩
  · rcases ApiType.slotTable_eq_ok.1 parts.slots_ok with ⟨no, _⟩ | ⟨table, _, _, derived⟩
    · rw [server] at no
      cases no
    · exact (SlotTable.of_derive derived).2

end FromArtifacts

section ToArtifacts

section Entries

variable (exports_ok : ExportTable.build s t = .ok exports)
include exports_ok

theorem ExportTable.succeeds_entries {β : Type} {f : Export → Except Failure β}
    {g : List Export → Except Failure (List β)} (steps : IsStepwise f g)
    (each : ∀ kind ∈ s.exportKinds t, Succeeds (f (t.exportOf kind))) :
    Succeeds (g exports.entries) := by
  rw [ExportTable.entries_of_build exports_ok]
  refine steps.succeeds fun e he => ?_
  obtain ⟨kind, mem, rfl⟩ := List.mem_map.1 he
  exact each kind mem

theorem ArrayBody.succeeds_stepCall {i : Nat} {p : Property} (hp : t.properties[i]? = some p)
    (get : p.get = true) (array : p.type.isArray = true) (step : ArrayStep) :
    Succeeds (stepCall exports i p step) := by
  have mem : .arrayAccess i step ∈ s.exportKinds t := by
    refine mem_exportKinds_arrayAccess.2 ⟨ApiType.mem_members_getter.2 ⟨p, hp, get⟩, ?_⟩
    rw [ApiType.property_eq hp]
    exact array
  rw [stepCall, (ExportTable.find?_eq_some exports_ok).2 ⟨mem, rfl⟩]
  exact .ok _

end Entries

namespace Schema.ExpressesClass

variable (h : s.ExpressesClass t)
include h

theorem acceptsSignature {m : Member} (hm : m ∈ t.members)
    (plain : t.isSteppedGetter m = false) : s.AcceptsSignature (t.signature m) := by
  cases m with
  | getter i =>
    obtain ⟨p, hp, get⟩ := ApiType.mem_members_getter.1 hm
    have single : (t.property i).type.isArray = false := plain
    rw [ApiType.property_eq hp] at single
    rw [ApiType.signature, ApiType.property_eq hp]
    exact ⟨h.getters p (List.mem_of_getElem? hp) get single, fun q hq => absurd hq List.not_mem_nil⟩
  | setter i =>
    obtain ⟨p, hp, set⟩ := ApiType.mem_members_setter.1 hm
    rw [ApiType.signature, ApiType.property_eq hp]
    exact ⟨accepts_void, List.forall_mem_singleton.2 (h.setters p (List.mem_of_getElem? hp) set).2⟩
  | method i =>
    have hi := List.getElem?_eq_getElem (ApiType.mem_members_method.1 hm)
    rw [ApiType.signature, ApiType.method_eq hi]
    exact h.methods _ (List.mem_of_getElem? hi)

theorem hasShape_getter {i : Nat} (hm : .getter i ∈ t.members) :
    s.HasShape (t.property i).type := by
  obtain ⟨p, hp, _⟩ := ApiType.mem_members_getter.1 hm
  rw [ApiType.property_eq hp]
  exact h.properties p (List.mem_of_getElem? hp)

theorem isExportable {m : Member} (hm : m ∈ t.members) : t.IsExportable m := by
  cases m with
  | getter i => trivial
  | setter i =>
    obtain ⟨p, hp, set⟩ := ApiType.mem_members_setter.1 hm
    rw [ApiType.IsExportable, ApiType.property_eq hp]
    exact (h.setters p (List.mem_of_getElem? hp) set).1
  | method i => exact isArray_of_accepts_result (h.acceptsSignature hm rfl).1

theorem succeeds_tables : Succeeds (ClassTables.build s t) := by
  refine (ApiType.succeeds_slotTable h.server h.names).bind fun slots _ => ?_
  exact (ExportTable.succeeds_build_iff.2 ⟨fun _ => h.isExportable, h.names⟩).bind
    fun exports _ => .ok _

theorem succeeds_functionOf {kind : ExportKind} (mem : kind ∈ s.exportKinds t) :
    Succeeds (Shim.functionOf s t (t.exportOf kind)) := by
  cases kind with
  | member m =>
    obtain ⟨hm, plain⟩ := mem_exportKinds_member.1 mem
    exact Shim.succeeds_memberFunction_iff.2 (h.acceptsSignature hm plain)
  | arrayAccess i step =>
    obtain ⟨hm, array⟩ := mem_exportKinds_arrayAccess.1 mem
    exact Shim.succeeds_arrayFunction (h.hasShape_getter hm) array
  | create | destroy | setEventCallback | setTrampolineLocator | setManagedHandle => exact .ok _

theorem succeeds_ofExport {kind : ExportKind} (mem : kind ∈ s.exportKinds t) :
    Succeeds (Import.ofExport s t (t.exportOf kind)) := by
  cases kind with
  | member m =>
    obtain ⟨hm, plain⟩ := mem_exportKinds_member.1 mem
    exact Import.succeeds_ofMember (h.acceptsSignature hm plain)
  | arrayAccess i step =>
    obtain ⟨hm, array⟩ := mem_exportKinds_arrayAccess.1 mem
    exact Import.succeeds_ofArrayStep (h.hasShape_getter hm) array
  | create | destroy | setEventCallback | setTrampolineLocator | setManagedHandle => exact .ok _

theorem succeeds_nativeMembers : Succeeds (NativeMember.ofClass s t) := by
  refine (NativeMember.ofMembers_stepwise s t).succeeds fun m hm => ?_
  cases stepped : t.isSteppedGetter m with
  | false =>
    have accepted := h.acceptsSignature hm stepped
    exact NativeMember.succeeds_ofMember (accepts_native_of_flat accepted.1) accepted.2
  | true =>
    cases m with
    | getter i =>
      refine NativeMember.succeeds_ofMember ?_ fun p hp => absurd hp List.not_mem_nil
      exact accepts_native_array (h.hasShape_getter hm) stepped
    | setter i | method i => cases stepped

section Exports

variable (exports_ok : ExportTable.build s t = .ok exports)
include exports_ok

theorem succeeds_callBody (m : Member) :
    Succeeds (WrappedProperty.callBody s t exports m) := by
  refine Succeeds.mapM fun e he => ?_
  obtain ⟨mem, rfl⟩ := (ExportTable.find?_eq_some exports_ok).1 he
  obtain ⟨hm, plain⟩ := mem_exportKinds_member.1 mem
  exact CallBody.succeeds_ofMember (h.acceptsSignature hm plain)

theorem succeeds_getterOf {i : Nat} {p : Property} (hp : t.properties[i]? = some p) :
    Succeeds (WrappedProperty.getterOf s t exports i p) := by
  refine (h.succeeds_callBody exports_ok (.getter i)).bind fun body _ => ?_
  cases body with
  | some body => exact .ok _
  | none =>
    dsimp only
    split
    · rename_i element get type_eq
      have array : p.type.isArray = true := by rw [type_eq]; rfl
      have item := accepts_item (type_eq ▸ h.properties p (List.mem_of_getElem? hp))
      have step := ArrayBody.succeeds_stepCall exports_ok hp get array
      refine Succeeds.bind ?_ fun _ _ => .ok _
      refine (item.hasShape.succeeds_managed .result).bind fun _ _ => ?_
      refine (step .openArray).bind fun _ _ => (step .countItems).bind fun _ _ => ?_
      refine (step .itemAt).bind fun _ _ => (step .closeArray).bind fun _ _ => ?_
      exact ((item.hasShape.succeeds_shape .managed).map _).bind fun _ _ => .ok _
    · exact .ok none

theorem succeeds_properties :
    Succeeds (WrappedProperty.ofProperties s t exports 0 t.properties) := by
  refine WrappedProperty.succeeds_ofProperties fun p i hi => ?_
  have hp : t.properties[i]? = some p := List.mem_zipIdx_iff_getElem?.1 hi
  refine ((h.properties p (List.mem_of_getElem? hp)).succeeds_managed .result).bind fun _ _ => ?_
  refine (h.succeeds_getterOf exports_ok hp).bind fun _ _ => ?_
  exact (h.succeeds_callBody exports_ok (.setter i)).bind fun _ _ => .ok _

theorem succeeds_methods : Succeeds (WrappedMethod.ofMethods s t exports 0 t.methods) := by
  refine WrappedMethod.succeeds_ofMethods fun m i hi => Succeeds.mapM fun e he => ?_
  have hm : t.methods[i]? = some m := List.mem_zipIdx_iff_getElem?.1 hi
  obtain ⟨mem, rfl⟩ := (ExportTable.find?_eq_some exports_ok).1 he
  have accepted := h.acceptsSignature (mem_exportKinds_member.1 mem).1 rfl
  obtain ⟨returns, parameters⟩ := h.methods m (List.mem_of_getElem? hm)
  refine (returns.hasShape.succeeds_managed .result).bind fun _ _ => ?_
  refine Succeeds.bind (succeeds_declareAll fun p hp => ?_) fun _ _ => ?_
  · exact (parameters p hp).hasShape.succeeds_managed .argument
  · exact (CallBody.succeeds_ofMember accepted).bind fun _ _ => .ok _

end Exports

theorem succeeds_events : Succeeds (WrappedEvents.ofClass? s t) := by
  unfold WrappedEvents.ofClass?
  split
  · refine Succeeds.map (Succeeds.map ?_ _) _
    exact (WrappedEvent.ofEvents_stepwise s).succeeds fun e he =>
      WrappedEvent.succeeds_ofEvent_iff.2 (h.payloads e he)
  · exact .ok none

section Slots

variable (slots_ok : t.slotTable = .ok slots)
include slots_ok

/-- The signatures of slots are accepted, and free of arrays. -/
theorem slot_signatures {table : SlotTable} (eq : slots = some table) :
    ∀ slot ∈ table.slots, s.AcceptsSignature (t.signature slot.member) ∧
      t.IsArrayFree slot.member := by
  rcases ApiType.slotTable_eq_ok.1 slots_ok with ⟨_, none⟩ | ⟨table', _, some, derived⟩
  · rw [eq] at none
    cases none
  · rw [eq] at some
    cases some
    intro slot hslot
    obtain ⟨known, free⟩ := SlotTable.of_derive derived
    have arrayFree := free _ (known slot hslot)
    refine ⟨h.acceptsSignature (known slot hslot) ?_, arrayFree⟩
    cases member : slot.member with
    | getter i =>
      rw [member] at arrayFree
      exact arrayFree _ List.mem_cons_self
    | setter i | method i => rfl

theorem succeeds_trampolines : Succeeds (slots.mapM (NativeTrampolines.ofTable s t)) := by
  refine Succeeds.mapM fun table eq => Succeeds.map ?_ _
  exact (SlotWrapper.ofSlots_stepwise s t).succeeds fun slot hslot =>
    SlotWrapper.succeeds_ofSlot (h.slot_signatures slots_ok eq slot hslot).1

theorem succeeds_delegates : Succeeds (slots.mapM (SlotDelegates.ofTable s t)) := by
  refine Succeeds.mapM fun table eq => Succeeds.map ?_ _
  exact (SlotDelegate.ofSlots_stepwise s t).succeeds fun slot hslot =>
    SlotDelegate.succeeds_ofSlot (h.slot_signatures slots_ok eq slot hslot).1

theorem succeeds_dispatch : Succeeds (slots.mapM (Dispatch.ofTable s t)) := by
  refine Succeeds.mapM fun table eq => Succeeds.map ?_ _
  refine (SlotHandler.ofSlots_stepwise s t).succeeds fun slot hslot => ?_
  obtain ⟨accepted, free⟩ := h.slot_signatures slots_ok eq slot hslot
  exact SlotHandler.succeeds_ofSlot accepted fun p hp =>
    free _ (List.mem_cons_of_mem _ (List.mem_map_of_mem hp))

theorem succeeds_fragment : Succeeds (Fragment.ofClass s t slots) :=
  h.succeeds_nativeMembers.bind fun _ _ => (h.succeeds_trampolines slots_ok).bind fun _ _ => .ok _

theorem succeeds_wrapper (exports_ok : ExportTable.build s t = .ok exports) :
    Succeeds (Wrapper.ofClass s t exports slots) := by
  refine (h.succeeds_properties exports_ok).bind fun _ _ => ?_
  refine (h.succeeds_methods exports_ok).bind fun _ _ => h.succeeds_events.bind fun _ _ => ?_
  refine (h.succeeds_dispatch slots_ok).bind fun _ _ => Succeeds.bind ?_ fun _ _ => .ok _
  refine (h.succeeds_delegates slots_ok).bind fun _ _ => ?_
  exact (ExportTable.succeeds_entries exports_ok (Import.ofExports_stepwise s t) fun _ =>
    h.succeeds_ofExport).bind fun _ _ => .ok _

end Slots

/-- Once the tables are there, the comparisons at the end of the class succeed with the rest. -/
theorem succeeds_artifacts : Succeeds (ClassArtifacts.build s t) := by
  refine h.succeeds_tables.bind fun tables htables => ?_
  obtain ⟨slots, slots_ok, htables⟩ := bind_eq_ok.1 htables
  obtain ⟨exports, exports_ok, htables⟩ := bind_eq_ok.1 htables
  cases htables
  have functions := ExportTable.succeeds_entries exports_ok (Shim.functionsOf_stepwise s t)
    fun _ => h.succeeds_functionOf
  refine (functions.map _).bind fun shim hshim => ?_
  refine (h.succeeds_wrapper slots_ok exports_ok).bind fun wrapper hwrapper => ?_
  refine (h.succeeds_fragment slots_ok).bind fun fragment hfragment => ?_
  have parity : shim.symbols = wrapper.symbols := by
    rw [Shim.symbols_ofClass exports_ok hshim, Wrapper.symbols_ofClass exports_ok hwrapper]
  refine Succeeds.bind ⟨(), if_pos parity⟩ fun _ _ => ?_
  refine Succeeds.bind ⟨(), checkTable_ofClass hfragment hwrapper⟩ fun _ _ => ?_
  refine Succeeds.bind ?_ fun _ _ => .ok _
  exact Succeeds.bind ⟨slots, slots_ok⟩ fun _ _ => h.succeeds_nativeMembers.bind fun _ _ => .ok _

end Schema.ExpressesClass

end ToArtifacts

theorem ClassArtifacts.succeeds_build_iff : Succeeds (build s t) ↔ s.ExpressesClass t := by
  constructor
  · rintro ⟨a, h⟩
    obtain ⟨slots, exports, parts⟩ := parts_of_build h
    exact parts.expressesClass
  · exact ExpressesClass.succeeds_artifacts

theorem Artifacts.succeeds_build_iff (valid : s.validate = .ok ()) :
    Succeeds (build s) ↔ s.IsExpressible := by
  constructor
  · rintro ⟨a, h⟩
    obtain ⟨types, htypes, h⟩ := bind_eq_ok.1 h
    obtain ⟨classes, hclasses, _⟩ := bind_eq_ok.1 h
    refine ⟨(TypeArtifacts.succeeds_build_iff valid).1 ⟨types, htypes⟩, fun t ht => ?_⟩
    obtain ⟨a, _, ok⟩ :=
      exists_right_of_forall₂ ((ClassArtifacts.buildAll_stepwise s).forall₂ hclasses) ht
    exact ClassArtifacts.succeeds_build_iff.1 ⟨a, ok⟩
  · intro h
    refine ((TypeArtifacts.succeeds_build_iff valid).2 h.structs).bind fun _ _ => ?_
    refine Succeeds.bind ?_ fun _ _ => .ok _
    exact (ClassArtifacts.buildAll_stepwise s).succeeds fun t ht =>
      ClassArtifacts.succeeds_build_iff.2 (h.classes t ht)

theorem Artifacts.length_files {a : Artifacts} (h : build s = .ok a) (c : Config) :
    (a.files c).length = 5 + 5 * s.classes.length := by
  obtain ⟨types, _, h⟩ := bind_eq_ok.1 h
  obtain ⟨classes, hclasses, h⟩ := bind_eq_ok.1 h
  cases h
  have same := ((ClassArtifacts.buildAll_stepwise s).forall₂ hclasses).length_eq
  have five (as : List ClassArtifacts) :
      (as.flatMap (ClassArtifacts.files c s)).length = 5 * as.length := by
    induction as with
    | nil => rfl
    | cons a as ih =>
      rw [List.flatMap_cons, List.length_append, ih, List.length_cons]
      change 5 + 5 * as.length = _
      omega
  rw [files, List.length_append, List.length_append, five, same]
  change 4 + 5 * classes.length + 1 = _
  omega

namespace Plan

theorem succeeds_build_iff (valid : s.validate = .ok ()) (c : Config) :
    Succeeds (build c s) ↔ s.IsExpressible := by
  rw [← Artifacts.succeeds_build_iff valid]
  constructor
  · rintro ⟨files, h⟩
    obtain ⟨a, ha, _⟩ := map_eq_ok.1 h
    exact ⟨a, ha⟩
  · exact fun h => h.map _

/-- A valid schema has a plan exactly when it is expressible, whatever the configuration, and the
number of files is that of the classes times five and five more. -/
theorem build_iff_isExpressible (valid : s.validate = .ok ()) :
    (∀ c, (∃ files, build c s = .ok files) ↔ s.IsExpressible) ∧
    (∀ c c', (∃ files, build c s = .ok files) ↔ ∃ files, build c' s = .ok files) ∧
    ∀ c files, build c s = .ok files → files.length = 5 + 5 * s.classes.length := by
  refine ⟨succeeds_build_iff valid, fun c c' => ?_, fun c files h => ?_⟩
  · exact (succeeds_build_iff valid c).trans (succeeds_build_iff valid c').symm
  · obtain ⟨a, ha, rfl⟩ := map_eq_ok.1 h
    exact Artifacts.length_files ha c

theorem build_iff_isExpressible_drawing :
    Schema.drawing.validate = .ok () ∧ Schema.drawing.IsExpressible ∧
      ∀ c files, build c Schema.drawing = .ok files → files.length = 15 := by
  have valid : Schema.drawing.validate = .ok () := by decide
  obtain ⟨decides, _, size⟩ := build_iff_isExpressible valid
  exact ⟨valid, (decides {}).1 (build_drawing {}), size⟩

end Plan

end InteropGen
