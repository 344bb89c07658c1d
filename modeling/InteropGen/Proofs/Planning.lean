import InteropGen.Proofs.Refusals
import InteropGen.Proofs.SymbolParity

set_option autoImplicit false

/-!
# Plans

A plan takes one success for each part of each class.  Since symbols and slots are enumerated in the
order of their tables everywhere, the comparisons at the end of a class never fail.
-/

namespace InteropGen

variable {c : Config} {s : Schema} {t : ApiType} {slots : Option SlotTable} {exports : ExportTable}

theorem mapM_eq_ok {α β : Type} {f : α → Except Failure β} {x : Option α} {y : Option β} :
    x.mapM f = .ok y ↔ (x = none ∧ y = none) ∨ ∃ a b, x = some a ∧ y = some b ∧ f a = .ok b := by
  cases x with
  | none =>
    change Except.ok none = Except.ok y ↔ _
    simp [eq_comm]
  | some a =>
    change (f a >>= fun b => pure (some b)) = .ok y ↔ _
    rw [bind_eq_ok]
    constructor
    · rintro ⟨b, hb, h⟩
      exact .inr ⟨a, b, rfl, (pure_eq_ok.1 h).symm, hb⟩
    · rintro (⟨h, _⟩ | ⟨a', b, ha, rfl, hb⟩)
      · cases h
      · cases ha
        exact ⟨b, hb, rfl⟩

theorem slots_of_steps {β : Type} {f : Slot → Except Failure β} {name : β → String}
    (keeps : ∀ slot b, f slot = .ok b → name b = slot.name) {table : SlotTable} {bs : List β}
    (h : List.Forall₂ (fun slot b => f slot = .ok b) table.slots bs) :
    bs.map name = table.names :=
  (forall₂_map_eq h fun slot b hb => (keeps slot b hb).symm).symm

theorem SlotWrapper.slot_ofSlot {slot : Slot} {w : SlotWrapper} (h : ofSlot s t slot = .ok w) :
    w.slot = slot.name := by
  obtain ⟨result, _, h⟩ := bind_eq_ok.1 h
  obtain ⟨parameters, _, h⟩ := bind_eq_ok.1 h
  cases h
  rfl

theorem SlotDelegate.slot_ofSlot {slot : Slot} {d : SlotDelegate} (h : ofSlot s t slot = .ok d) :
    d.slot = slot.name := by
  obtain ⟨parameters, _, h⟩ := bind_eq_ok.1 h
  obtain ⟨result, _, h⟩ := bind_eq_ok.1 h
  obtain ⟨marshalling, _, h⟩ := bind_eq_ok.1 h
  cases h
  rfl

theorem SlotHandler.slot_ofSlot {slot : Slot} {w : SlotHandler} (h : ofSlot s t slot = .ok w) :
    w.slot = slot.name := by
  obtain ⟨parameters, _, h⟩ := bind_eq_ok.1 h
  obtain ⟨result, _, h⟩ := bind_eq_ok.1 h
  obtain ⟨returned, _, h⟩ := bind_eq_ok.1 h
  cases h
  rfl

section SlotOrders

variable {table : SlotTable}

theorem NativeTrampolines.enumerators_ofTable {n : NativeTrampolines}
    (h : ofTable s t table = .ok n) : n.typeName = t.name ∧ n.enumerators = table.names := by
  obtain ⟨wrappers, hwrappers, rfl⟩ := map_eq_ok.1 h
  exact ⟨rfl, slots_of_steps (fun _ _ => SlotWrapper.slot_ofSlot)
    ((SlotWrapper.ofSlots_stepwise s t).forall₂ hwrappers)⟩

theorem SlotDelegates.enumerators_ofTable {d : SlotDelegates} (h : ofTable s t table = .ok d) :
    d.typeName = t.name ∧ d.enumerators = table.names := by
  obtain ⟨delegates, hdelegates, rfl⟩ := map_eq_ok.1 h
  exact ⟨rfl, slots_of_steps (fun _ _ => SlotDelegate.slot_ofSlot)
    ((SlotDelegate.ofSlots_stepwise s t).forall₂ hdelegates)⟩

theorem Dispatch.arms_ofTable {d : Dispatch} (h : ofTable s t table = .ok d) :
    d.typeName = t.name ∧ d.arms = table.names := by
  obtain ⟨handlers, hhandlers, rfl⟩ := map_eq_ok.1 h
  exact ⟨rfl, slots_of_steps (fun _ _ => SlotHandler.slot_ofSlot)
    ((SlotHandler.ofSlots_stepwise s t).forall₂ hhandlers)⟩

end SlotOrders

/-- The parts of a wrapper, each with the computation that gave it. -/
structure Wrapper.Parts (s : Schema) (t : ApiType) (exports : ExportTable)
    (slots : Option SlotTable) (w : Wrapper) : Prop where
  type_eq : w.type = t
  base_eq : w.base = s.baseOf t
  hasHandle_eq : w.hasHandle = s.hasHandle t
  ownsHandle_eq : w.ownsHandle = s.ownsHandle t
  create_eq : w.create = (exports.find? .create).map fun e => ⟨e.name, []⟩
  destroy_eq : w.destroy = (exports.find? .destroy).map fun e => ⟨e.name, [.self]⟩
  handleSymbol_eq : w.handleSymbol = (exports.find? .setManagedHandle).map Export.name
  properties_ok : WrappedProperty.ofProperties s t exports 0 t.properties = .ok w.properties
  methods_ok : WrappedMethod.ofMethods s t exports 0 t.methods = .ok w.methods
  events_ok : WrappedEvents.ofClass? s t = .ok w.events
  dispatch_ok : slots.mapM (Dispatch.ofTable s t) = .ok w.dispatch
  imports_ok : Imports.ofClass s t exports slots = .ok w.imports

theorem Wrapper.parts_of_ofClass {w : Wrapper} (h : ofClass s t exports slots = .ok w) :
    w.Parts s t exports slots := by
  obtain ⟨properties, hproperties, h⟩ := bind_eq_ok.1 h
  obtain ⟨methods, hmethods, h⟩ := bind_eq_ok.1 h
  obtain ⟨events, hevents, h⟩ := bind_eq_ok.1 h
  obtain ⟨dispatch, hdispatch, h⟩ := bind_eq_ok.1 h
  obtain ⟨imports, himports, h⟩ := bind_eq_ok.1 h
  cases h
  exact ⟨rfl, rfl, rfl, rfl, rfl, rfl, rfl, hproperties, hmethods, hevents, hdispatch, himports⟩

theorem Wrapper.symbols_ofClass {w : Wrapper} (exports_ok : ExportTable.build s t = .ok exports)
    (h : ofClass s t exports slots = .ok w) : w.symbols = exports.symbols :=
  Imports.symbols_ofClass exports_ok (parts_of_ofClass h).imports_ok

structure Fragment.Parts (s : Schema) (t : ApiType) (slots : Option SlotTable) (f : Fragment) :
    Prop where
  type_eq : f.type = t
  members_ok : NativeMember.ofClass s t = .ok f.members
  events_eq : f.events = if t.hasEvents then some (NativeEvents.ofClass s t) else none
  trampolines_ok : slots.mapM (NativeTrampolines.ofTable s t) = .ok f.trampolines
  ownsHandle_eq : f.ownsHandle = s.ownsHandle t

theorem Fragment.parts_of_ofClass {f : Fragment} (h : ofClass s t slots = .ok f) :
    f.Parts s t slots := by
  obtain ⟨members, hmembers, h⟩ := bind_eq_ok.1 h
  obtain ⟨trampolines, htrampolines, h⟩ := bind_eq_ok.1 h
  cases h
  exact ⟨rfl, hmembers, rfl, htrampolines, rfl⟩

section Comparisons

variable {table : SlotTable} {f : Fragment} {w : Wrapper}

theorem Fragment.slotOrder_ofClass (h : ofClass s t (some table) = .ok f) :
    f.slotOrder? = some table.names := by
  rcases mapM_eq_ok.1 (parts_of_ofClass h).trampolines_ok with ⟨h, _⟩ | ⟨a, n, ha, hn, ok⟩
  · cases h
  · cases ha
    rw [slotOrder?, hn, Option.map_some, (NativeTrampolines.enumerators_ofTable ok).2]

theorem Wrapper.armOrder_ofClass (h : ofClass s t exports (some table) = .ok w) :
    w.armOrder? = some table.names := by
  rcases mapM_eq_ok.1 (parts_of_ofClass h).dispatch_ok with ⟨h, _⟩ | ⟨a, d, ha, hd, ok⟩
  · cases h
  · cases ha
    rw [armOrder?, hd, Option.map_some, (Dispatch.arms_ofTable ok).2]

theorem Wrapper.slotOrder_ofClass (h : ofClass s t exports (some table) = .ok w) :
    w.slotOrder? = some table.names := by
  obtain ⟨delegates, hdelegates, h⟩ := bind_eq_ok.1 (parts_of_ofClass h).imports_ok
  obtain ⟨imports, _, h⟩ := bind_eq_ok.1 h
  rcases mapM_eq_ok.1 hdelegates with ⟨h, _⟩ | ⟨a, d, ha, hd, ok⟩
  · cases h
  · cases ha
    have eq : w.imports.delegates = some d := by rw [← pure_eq_ok.1 h, hd]
    rw [slotOrder?, Imports.slotOrder?, eq, Option.map_some,
      (SlotDelegates.enumerators_ofTable ok).2]

theorem checkTable_ofClass (hf : Fragment.ofClass s t slots = .ok f)
    (hw : Wrapper.ofClass s t exports slots = .ok w) :
    ClassArtifacts.checkTable slots f w = .ok () := by
  cases slots with
  | none => rfl
  | some table =>
    simp only [ClassArtifacts.checkTable, ClassArtifacts.checkSlots, SlotTable.verify,
      Fragment.slotOrder_ofClass hf, Wrapper.slotOrder_ofClass hw, Wrapper.armOrder_ofClass hw,
      Option.getD_some, if_true]
    rfl

end Comparisons

namespace ClassArtifacts

structure Parts (s : Schema) (t : ApiType) (slots : Option SlotTable) (exports : ExportTable)
    (a : ClassArtifacts) : Prop where
  type_eq : a.type = t
  slots_ok : t.slotTable = .ok slots
  exports_ok : ExportTable.build s t = .ok exports
  shim_ok : Shim.ofClass s t exports = .ok a.shim
  wrapper_ok : Wrapper.ofClass s t exports slots = .ok a.wrapper
  fragment_ok : Fragment.ofClass s t slots = .ok a.fragment
  definitions_ok : Scaffold.definitions s t = .ok a.definitions

theorem parts_of_build {a : ClassArtifacts} (h : build s t = .ok a) :
    ∃ slots exports, a.Parts s t slots exports := by
  obtain ⟨tables, htables, h⟩ := bind_eq_ok.1 h
  obtain ⟨slots, hslots, htables⟩ := bind_eq_ok.1 htables
  obtain ⟨exports, hexports, htables⟩ := bind_eq_ok.1 htables
  cases htables
  obtain ⟨shim, hshim, h⟩ := bind_eq_ok.1 h
  obtain ⟨wrapper, hwrapper, h⟩ := bind_eq_ok.1 h
  obtain ⟨fragment, hfragment, h⟩ := bind_eq_ok.1 h
  obtain ⟨_, _, h⟩ := bind_eq_ok.1 h
  obtain ⟨_, _, h⟩ := bind_eq_ok.1 h
  obtain ⟨definitions, hdefinitions, h⟩ := bind_eq_ok.1 h
  cases h
  exact ⟨slots, exports, rfl, hslots, hexports, hshim, hwrapper, hfragment, hdefinitions⟩

theorem Parts.files_eq {a : ClassArtifacts} (parts : a.Parts s t slots exports) (c : Config) :
    a.files c s = [c.generated c.apiDir (t.name ++ ".Api.h") a.shim.code,
      c.generated c.apiDir (t.name ++ ".inc") a.fragment.code,
      c.generated c.managed.dir (t.name ++ ".cs") (a.wrapper.code c),
      c.scaffold c.native.dir (t.name ++ ".h") (Scaffold.header s t),
      c.scaffold c.native.dir (t.name ++ ".cpp") (Scaffold.sourceCode t a.definitions)] := by
  rw [ClassArtifacts.files, parts.type_eq]

/-- Once the parts are there, the comparisons between them hold. -/
theorem neverMismatched_ofTables {tables : ClassTables}
    (exports_ok : ExportTable.build s t = .ok tables.exports) :
    NeverMismatched (ofTables s t tables) := by
  intro e h
  rcases bind_eq_error.1 h with h | ⟨shim, hshim, h⟩
  · exact neverMismatched_shim s t _ e h
  rcases bind_eq_error.1 h with h | ⟨wrapper, hwrapper, h⟩
  · exact neverMismatched_wrapper s t _ _ e h
  rcases bind_eq_error.1 h with h | ⟨fragment, hfragment, h⟩
  · exact neverMismatched_fragment s t _ e h
  rcases bind_eq_error.1 h with h | ⟨_, _, h⟩
  · have parity : shim.symbols = wrapper.symbols := by
      rw [Shim.symbols_ofClass exports_ok hshim, Wrapper.symbols_ofClass exports_ok hwrapper]
    rw [checkSymbols, if_pos parity] at h
    cases h
  rcases bind_eq_error.1 h with h | ⟨_, _, h⟩
  · rw [checkTable_ofClass hfragment hwrapper] at h
    cases h
  rcases bind_eq_error.1 h with h | ⟨definitions, _, h⟩
  · exact neverMismatched_definitions s t e h
  · cases h

theorem neverMismatched_build (s : Schema) (t : ApiType) : NeverMismatched (build s t) := by
  intro e h
  rcases bind_eq_error.1 h with h | ⟨tables, htables, h⟩
  · exact (neverMismatched_slotTable t).bind (fun _ => (neverMismatched_exports s t).bind fun _ =>
      .ok _) e h
  · obtain ⟨slots, _, htables⟩ := bind_eq_ok.1 htables
    obtain ⟨exports, hexports, htables⟩ := bind_eq_ok.1 htables
    cases htables
    exact neverMismatched_ofTables hexports e h

end ClassArtifacts

namespace Plan

theorem neverMismatched_build (c : Config) (s : Schema) : NeverMismatched (build c s) := by
  refine NeverMismatched.map ?_
  exact (neverMismatched_types s).bind fun _ =>
    (NeverMismatched.stepwise (ClassArtifacts.buildAll_stepwise s)
      (ClassArtifacts.neverMismatched_build s) s.classes).bind fun _ => .ok _

theorem class_of_build {files : List PlannedFile} (h : build c s = .ok files) (ht : t ∈ s.classes) :
    ∃ a, ClassArtifacts.build s t = .ok a ∧ ∀ f ∈ a.files c s, f ∈ files := by
  obtain ⟨artifacts, hartifacts, rfl⟩ := map_eq_ok.1 h
  obtain ⟨types, _, hartifacts⟩ := bind_eq_ok.1 hartifacts
  obtain ⟨classes, hclasses, hartifacts⟩ := bind_eq_ok.1 hartifacts
  cases hartifacts
  obtain ⟨a, ha, ok⟩ :=
    exists_right_of_forall₂ ((ClassArtifacts.buildAll_stepwise s).forall₂ hclasses) ht
  refine ⟨a, ok, fun f hf => ?_⟩
  rw [Artifacts.files, List.append_assoc]
  exact List.mem_append_right _ (List.mem_append_left _ (List.mem_flatMap_of_mem ha hf))

end Plan

section Drawing

def ApiType.lone : ApiType where
  name := "W"

def Schema.lone : Schema := ⟨[.lone]⟩

def ApiType.point : ApiType where
  name := "Point"
  kind := .structType
  fields := [⟨"X", .primitive .int⟩]

def ApiType.figure : ApiType where
  name := "Figure"
  properties :=
    [{ name := "Title", type := .text, set := true },
      { name := "Corners", type := .array (.named "Point") }]
  methods :=
    [{ name := "Merge", returns := .named "Figure",
       parameters :=
         [⟨"others", .array (.named "Figure")⟩, ⟨"fallback", .nullable (.named "Figure")⟩] }]

def ApiType.canvas : ApiType where
  name := "Canvas"
  managedServer := true
  base := some "Figure"
  properties := [{ name := "Scale", type := .primitive .double, set := true }]
  methods := [{ name := "Paint", parameters := [⟨"figure", .named "Figure"⟩] }]
  events :=
    [⟨"Resized", some (.named "Point"), false⟩, ⟨"Closing", none, true⟩, ⟨"Closed", none, false⟩]

/-- A surface in which every kind of export occurs. -/
def Schema.drawing : Schema := ⟨[.point, .figure, .canvas]⟩

theorem Plan.build_drawing (c : Config) : ∃ files, Plan.build c Schema.drawing = .ok files :=
  ⟨_, rfl⟩

theorem ApiType.canvas_mem : canvas ∈ Schema.drawing.classes := by decide

theorem ApiType.figure_mem : figure ∈ Schema.drawing.classes := by decide

end Drawing

end InteropGen
