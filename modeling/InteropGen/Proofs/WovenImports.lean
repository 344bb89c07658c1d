import InteropGen.Generation.Plan
import InteropGen.Proofs.ComposedNames
import InteropGen.Proofs.Planning

set_option autoImplicit false

/-!
# Imports are woven

The class of imports is composed of the names that the schema declares, the name of the module, and
fixed text, but for the attributes that carry the calling convention.
-/

namespace InteropGen

-- The fixed texts are checked character by character, and some are long.
set_option maxRecDepth 1024

open Text

/-- The line is an attribute that carries the calling convention. -/
def ConventionLine (c : Config) (x : String) : Prop :=
  x = Import.libraryAttribute c ∨ x = callbackAttribute c

variable {N M : String → Prop} {c : Config} {s : Schema} {t : ApiType}

section Attributes

theorem isNested_managed (convention : CallingConvention) : IsNested convention.managed := by
  cases convention <;> decide

theorem isNested_libraryAttribute : IsNested (Import.libraryAttribute c) :=
  .between rfl (isNested_managed _) rfl

theorem isNested_callbackAttribute : IsNested (callbackAttribute c) :=
  .between rfl (isNested_managed _) rfl

theorem woven_libraryAttribute :
    Code.IsWoven N (ConventionLine c) (Code.line (Import.libraryAttribute c)) :=
  Woven.marked (.inl rfl) fun _ => isNested_libraryAttribute

theorem woven_callbackAttribute :
    Code.IsWoven N (ConventionLine c) (Code.line (callbackAttribute c)) :=
  Woven.marked (.inr rfl) fun _ => isNested_callbackAttribute

theorem composed_returnAttribute {type : TypeRef} {marshalling : Option String}
    (h : s.returnAttribute type = .ok marshalling) : ∀ x ∈ marshalling.toList, Composed N x := by
  obtain ⟨shape, _, rfl⟩ := map_eq_ok.1 h
  intro x hx
  have bool : Composed N "[return: MarshalAs(UnmanagedType.I1)]" := .fixed _ (by decide)
  have text : Composed N "[return: MarshalAs(UnmanagedType.LPWStr)]" := .fixed _ (by decide)
  cases shape with
  | primitive p =>
    cases p with
    | bool =>
      cases List.mem_singleton.1 hx
      exact bool
    | _ => cases hx
  | text isNullable =>
    cases List.mem_singleton.1 hx
    exact text
  | _ => cases hx

theorem composed_handleParameter : Composed N handleParameter.text :=
  composed_declared (.fixed ['I', 'n', 't', 'P', 't', 'r'] (by decide))
    (.fixed ['o', 'b', 'j'] (by decide))

theorem composed_handleOf (isStatic : Bool) : ∀ d ∈ handleOf isStatic, Composed N d.text := by
  cases isStatic with
  | true => exact fun d hd => absurd hd List.not_mem_nil
  | false => exact List.forall_mem_singleton.2 composed_handleParameter

end Attributes

section Functions

namespace Import

structure IsComposed (N : String → Prop) (i : Import) : Prop where
  name : Composed N i.name
  marshalling : ∀ x ∈ i.marshalling.toList, Composed N x
  result : Composed N i.result.literal
  parameters : ∀ d ∈ i.parameters, Composed N d.text

variable {name : String} {i : Import} (names : s.Named N) (own : t.Named N)
  (hname : Composed N name)

theorem composed_line (h : i.IsComposed N) : Composed N i.line :=
  ((((Begun.start _).name h.result _).name h.name _).name (composed_join h.parameters) _).closed
    (by decide)

theorem isWoven_code (h : i.IsComposed N) : (i.code c).IsWoven N (ConventionLine c) :=
  .append (.append (.append .blank woven_libraryAttribute) (.lines h.marshalling))
    (.line (composed_line h))

include names hname

theorem isComposed_ofArrayStep {index : Nat} {step : ArrayStep}
    (h : ofArrayStep s t name index step = .ok i) : i.IsComposed N := by
  have self := composed_handleOf (N := N) (t.property index).isStatic
  have array : Composed N (Declared.plain "IntPtr" "array").text :=
    composed_declared (.fixed ['I', 'n', 't', 'P', 't', 'r'] (by decide))
      (.fixed ['a', 'r', 'r', 'a', 'y'] (by decide))
  have position : Composed N (Declared.plain "int" "index").text :=
    composed_declared (.fixed ['i', 'n', 't'] (by decide))
      (.fixed ['i', 'n', 'd', 'e', 'x'] (by decide))
  have one := List.forall_mem_append.2 ⟨self, List.forall_mem_singleton.2 array⟩
  have unmarked : ∀ x ∈ (none : Option String).toList, Composed N x :=
    fun x hx => absurd hx List.not_mem_nil
  cases step with
  | openArray =>
    cases h
    exact ⟨hname, unmarked, (.fixed _ (by decide) : Composed N "IntPtr"), self⟩
  | countItems =>
    cases h
    exact ⟨hname, unmarked, (.fixed _ (by decide) : Composed N "int"), one⟩
  | itemAt =>
    simp only [ofArrayStep] at h
    split at h
    · obtain ⟨result, hresult, h⟩ := bind_eq_ok.1 h
      obtain ⟨marshalling, hmarshalling, h⟩ := bind_eq_ok.1 h
      cases h
      exact ⟨hname, composed_returnAttribute hmarshalling, names.composed_resolve hresult,
        List.forall_mem_append.2
          ⟨self, List.forall_mem_cons.2 ⟨array, List.forall_mem_singleton.2 position⟩⟩⟩
    · cases h
  | closeArray =>
    cases h
    exact ⟨hname, unmarked, (.fixed _ (by decide) : Composed N "void"), one⟩

include own

theorem isComposed_ofMember {m : Member} (hm : m ∈ t.members)
    (h : ofMember s t name m = .ok i) : i.IsComposed N := by
  obtain ⟨parameters, hparameters, h⟩ := bind_eq_ok.1 h
  obtain ⟨result, hresult, h⟩ := bind_eq_ok.1 h
  obtain ⟨marshalling, hmarshalling, h⟩ := bind_eq_ok.1 h
  cases h
  exact ⟨hname, composed_returnAttribute hmarshalling, names.composed_resolve hresult,
    List.forall_mem_append.2 ⟨composed_handleOf _,
      names.composed_declareFlat (own.composed_parameters hm) hparameters⟩⟩

omit hname in
theorem isComposed_ofExport {kind : ExportKind} (mem : kind ∈ s.exportKinds t)
    (h : ofExport s t (t.exportOf kind) = .ok i) : i.IsComposed N := by
  have hname := own.composed_nameOf mem
  have type := Composed.name own.name
  have void : Composed N "void" := .fixed _ (by decide)
  have unmarked : ∀ x ∈ (none : Option String).toList, Composed N x :=
    fun x hx => absurd hx List.not_mem_nil
  have callback {type : String} (composed : Composed N type) :
      ∀ d ∈ [Declared.plain type "callback"], Composed N d.text :=
    List.forall_mem_singleton.2
      (composed_declared composed (.fixed ['c', 'a', 'l', 'l', 'b', 'a', 'c', 'k'] (by decide)))
  cases kind with
  | create =>
    cases h
    exact ⟨hname, unmarked, (.fixed _ (by decide) : Composed N "IntPtr"), by simp⟩
  | destroy =>
    cases h
    exact ⟨hname, unmarked, void, List.forall_mem_singleton.2 composed_handleParameter⟩
  | member m =>
    exact isComposed_ofMember names own hname (Schema.mem_exportKinds_member.1 mem).1 h
  | arrayAccess index step => exact isComposed_ofArrayStep names hname h
  | setEventCallback =>
    cases h
    exact ⟨hname, unmarked, void, callback (type.suffixed _ (by decide))⟩
  | setTrampolineLocator =>
    cases h
    exact ⟨hname, unmarked, void, callback (type.suffixed _ (by decide))⟩
  | setManagedHandle =>
    cases h
    have handle : Composed N (Declared.plain "IntPtr" "handle").text :=
      composed_declared (.fixed ['I', 'n', 't', 'P', 't', 'r'] (by decide))
        (.fixed ['h', 'a', 'n', 'd', 'l', 'e'] (by decide))
    exact ⟨hname, unmarked, void,
      List.forall_mem_cons.2 ⟨composed_handleParameter, List.forall_mem_singleton.2 handle⟩⟩

end Import

end Functions

section Delegates

structure SlotDelegate.IsComposed (N : String → Prop) (typeName : String) (d : SlotDelegate) :
    Prop where
  slot : Composed N d.slot
  joined : Composed N (typeName ++ d.slot)
  marshalling : ∀ x ∈ d.marshalling.toList, Composed N x
  result : Composed N d.result.literal
  parameters : ∀ p ∈ d.parameters, Composed N p.text

variable {d : SlotDelegate}

theorem SlotDelegate.isComposed_ofSlot (names : s.Named N) (own : t.Named N)
    (server : t.managedServer = true) {table : SlotTable} (derived : SlotTable.derive t = .ok table)
    {slot : Slot} (hslot : slot ∈ table.slots) (h : ofSlot s t slot = .ok d) :
    d.IsComposed N t.name := by
  have hm := (SlotTable.of_derive derived).1 slot hslot
  have named := SlotTable.named_of_derive derived slot hslot
  obtain ⟨parameters, hparameters, h⟩ := bind_eq_ok.1 h
  obtain ⟨result, hresult, h⟩ := bind_eq_ok.1 h
  obtain ⟨marshalling, hmarshalling, h⟩ := bind_eq_ok.1 h
  cases h
  refine ⟨named ▸ own.composed_signature hm, named ▸ own.composed_slot server hm,
    composed_returnAttribute hmarshalling, names.composed_resolve hresult,
    List.forall_mem_append.2 ⟨composed_handleOf _, fun p hp => ?_⟩⟩
  exact (names.composed_declareAll (own.composed_parameters hm) hparameters p hp).1

theorem SlotDelegate.IsComposed.isWoven {typeName : String} (h : d.IsComposed N typeName) :
    Code.IsWoven N (ConventionLine c) (d.code c typeName) := by
  have line : d.line typeName = "public delegate " ++ d.result.literal ++ " " ++
      (typeName ++ d.slot) ++ "Trampoline(" ++ Declared.join d.parameters ++ ");" := by
    unfold SlotDelegate.line
    rw [← String.append_assoc]
  have composed : Composed N (d.line typeName) := by
    rw [line]
    exact ((((Begun.start _).name h.result _).name h.joined _).name (composed_join h.parameters)
      _).closed (by decide)
  exact .append (.append (.append .blank woven_callbackAttribute) (.lines h.marshalling))
    (.line composed)

theorem SlotDelegates.isWoven_ofTable (names : s.Named N) (own : t.Named N)
    (server : t.managedServer = true) {table : SlotTable} (derived : SlotTable.derive t = .ok table)
    {ds : SlotDelegates} (h : ofTable s t table = .ok ds) :
    (ds.code c).IsWoven N (ConventionLine c) := by
  obtain ⟨delegates, hdelegates, rfl⟩ := map_eq_ok.1 h
  have type := Composed.name own.name
  have composed : ∀ d ∈ delegates, d.IsComposed N t.name := by
    intro d hd
    obtain ⟨slot, hslot, ok⟩ :=
      exists_left_of_forall₂ ((SlotDelegate.ofSlots_stepwise s t).forall₂ hdelegates) hd
    exact SlotDelegate.isComposed_ofSlot names own server derived hslot ok
  have enumerators : ∀ x ∈ delegates.map SlotDelegate.slot, Composed N x :=
    List.forall_mem_map.2 fun d hd => (composed d hd).slot
  have headline : Composed N ("public enum " ++ t.name ++ "Trampoline") :=
    ((Begun.start _).name type _).closed (by decide)
  have locator : Composed N ("public delegate IntPtr " ++ t.name ++ "TrampolineLocatorCallback(" ++
      t.name ++ "Trampoline trampoline);") :=
    (((Begun.start _).name type _).name type _).closed (by decide)
  exact .append (.append (.append (.append (.block headline (.entries enumerators)) .blank)
    woven_callbackAttribute) (.line locator)) (.flatMap fun d hd => (composed d hd).isWoven)

end Delegates

namespace Imports

variable {exports : ExportTable} {slots : Option SlotTable} {is : Imports}

theorem isWoven_eventTypes (type : Composed N is.typeName)
    (events : ∀ e ∈ is.events, Composed N e) : (is.eventTypes c).IsWoven N (ConventionLine c) := by
  have callback : Composed N ("public delegate IntPtr " ++ is.typeName ++
      "EventCallbackType(IntPtr obj, " ++ is.typeName ++ "Event e, IntPtr parameter);") :=
    (((Begun.start _).name type _).name type _).closed (by decide)
  have headline : Composed N ("public enum " ++ is.typeName ++ "Event") :=
    ((Begun.start _).name type _).closed (by decide)
  exact .append (.append (.append (.append .blank woven_callbackAttribute) (.line callback)) .blank)
    (.block headline (.entries events))

theorem isWoven_ofClass (names : s.Named N) (config : N c.managed.nativeModule) (ht : t ∈ s.types)
    (exports_ok : ExportTable.build s t = .ok exports) (slots_ok : t.slotTable = .ok slots)
    (h : ofClass s t exports slots = .ok is) : (is.code c).IsWoven N (ConventionLine c) := by
  have own := names t ht
  obtain ⟨delegates, hdelegates, h⟩ := bind_eq_ok.1 h
  obtain ⟨imports, himports, h⟩ := bind_eq_ok.1 h
  cases h
  have events : ∀ x ∈ t.events.map Event.name, Composed N x :=
    List.forall_mem_map.2 fun e he => .name (own.events e he)
  have module : Composed N (moduleName c) :=
    ((Begun.start _).name (.name config) _).closed (by decide)
  have declared : Code.IsWoven N (ConventionLine c)
      ((delegates.map fun d => Code.blank ++ d.code c).getD []) := by
    refine .getD fun code hcode => ?_
    obtain ⟨d, hd, rfl⟩ := Option.map_eq_some_iff.1 hcode
    refine .append .blank ?_
    rcases mapM_eq_ok.1 hdelegates with ⟨_, none⟩ | ⟨table, d', rfl, some, ok⟩
    · rw [none] at hd
      cases hd
    · rw [some] at hd
      cases hd
      rcases ApiType.slotTable_eq_ok.1 slots_ok with ⟨_, none⟩ | ⟨_, server, eq, derived⟩
      · cases none
      · cases eq
        exact SlotDelegates.isWoven_ofTable names own server derived ok
  have functions : ∀ i ∈ imports, (i.code c).IsWoven N (ConventionLine c) := by
    intro i hi
    obtain ⟨e, he, ok⟩ :=
      exists_left_of_forall₂ ((Import.ofExports_stepwise s t).forall₂ himports) hi
    rw [ExportTable.entries_of_build exports_ok] at he
    obtain ⟨kind, mem, rfl⟩ := List.mem_map.1 he
    exact Import.isWoven_code (Import.isComposed_ofExport names own mem ok)
  have headline : Composed N (headline ⟨t.name, (s.baseOf t).isSome, t.events.map Event.name,
      delegates, imports⟩) := by
    rw [headline]
    split <;> exact .fixed _ (by decide)
  exact .append (.fixed _ (by decide)) (.block headline (.append (.append (.append (.line module)
    (.given _ (isWoven_eventTypes (.name own.name) events))) declared) (.flatMap functions)))

end Imports

end InteropGen
