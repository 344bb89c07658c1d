import InteropGen.Proofs.Expressibility
import InteropGen.Proofs.Layout

set_option autoImplicit false

/-!
# Where void can stand

Void never stands inside another type, nor in a field or the data of an event.  As the whole type of
a parameter or property it is taken like any other type, and what is generated declares it.
-/

namespace InteropGen

/-- Void, seen through `?` and `[]`. -/
def TypeRef.HoldsVoid : TypeRef → Prop
  | void => True
  | nullable inner => inner.HoldsVoid
  | array element => element.HoldsVoid
  | primitive _ | text | named _ | generic _ => False

namespace Schema

variable {s : Schema} {type : TypeRef} {shape : Shape} {dialect : Dialect} {position : Position}

/-- No dialect refuses void, wherever it stands. -/
theorem resolve_void (s : Schema) (dialect : Dialect) (position : Position) :
    s.resolve dialect position .void = .ok ⟨"void", none⟩ := by
  cases dialect <;> rfl

/-- Arrays of void have no shape; a nullable void has one, as long as nothing spells it. -/
theorem holdsVoid_shapeOf (h : s.shapeOf type = .ok shape) (holds : type.HoldsVoid) :
    type = .void ∧ shape = .void ∨ ∃ inner, shape = .nullableValue inner := by
  induction type generalizing shape with
  | void =>
    cases h
    exact .inl ⟨rfl, rfl⟩
  | nullable inner ih =>
    obtain ⟨shape', hshape, h⟩ := bind_eq_ok.1 h
    rcases ih hshape holds with ⟨_, rfl⟩ | ⟨_, rfl⟩
    all_goals
      cases h
      exact .inr ⟨_, rfl⟩
  | array element ih =>
    obtain ⟨item, hitem, rfl⟩ := shapeOf_array h
    have isElement := isElement_shapeOf h hitem
    rcases ih hitem holds with ⟨_, rfl⟩ | ⟨_, rfl⟩
    all_goals exact isElement.elim
  | primitive _ | text | named _ | generic _ => exact holds.elim

theorem eq_void_of_accepts (h : s.Accepts .flat position type) (holds : type.HoldsVoid) :
    type = .void := by
  obtain ⟨shape, spelling, hshape, spelled⟩ := accepts_iff.1 h
  rcases holdsVoid_shapeOf hshape holds with ⟨eq, _⟩ | ⟨_, rfl⟩
  · exact eq
  · cases spelled

theorem not_holdsVoid_of_isArray (h : s.HasShape type) (array : type.isArray = true) :
    ¬ type.HoldsVoid := by
  intro holds
  obtain ⟨shape, hshape⟩ := h
  rw [isArray_shapeOf hshape] at array
  rcases holdsVoid_shapeOf hshape holds with ⟨_, rfl⟩ | ⟨_, rfl⟩
  all_goals cases array

theorem HoldsValue.not_holdsVoid {f : Field} (h : s.HoldsValue f) : ¬ f.type.HoldsVoid := by
  intro holds
  obtain ⟨shape, hshape, value⟩ := h
  rcases holdsVoid_shapeOf hshape holds with ⟨_, rfl⟩ | ⟨_, rfl⟩
  all_goals exact value

theorem not_holdsVoid_of_struct {u : ApiType} (h : s.shapeOf type = .ok (.struct u)) :
    ¬ type.HoldsVoid := by
  intro holds
  rcases holdsVoid_shapeOf h holds with ⟨_, other⟩ | ⟨_, other⟩
  all_goals cases other

theorem ExpressesClass.eq_void {t : ApiType} (h : s.ExpressesClass t) {m : Member}
    (hm : m ∈ t.members) : ∀ type ∈ (t.signature m).types, type.HoldsVoid → type = .void := by
  cases stepped : t.isSteppedGetter m with
  | false =>
    obtain ⟨returns, parameters⟩ := h.acceptsSignature hm stepped
    refine List.forall_mem_cons.2 ⟨eq_void_of_accepts returns, fun type mem => ?_⟩
    obtain ⟨p, hp, rfl⟩ := List.mem_map.1 mem
    exact eq_void_of_accepts (parameters p hp)
  | true =>
    cases m with
    | getter i =>
      have nonvoid := not_holdsVoid_of_isArray (h.hasShape_getter hm) stepped
      exact List.forall_mem_singleton.2 fun holds => absurd holds nonvoid
    | setter i | method i => cases stepped

end Schema

/-- What is declared for a signature spells void where the signature has it. -/
structure Signature.SpellsVoid (g : Signature) (result : Spelling) (parameters : List Declared) :
    Prop where
  result : g.returns = .void → result = ⟨"void", none⟩
  parameters : ∀ p ∈ g.parameters, p.type = .void → .plain "void" p.name ∈ parameters

section Declarations

variable {s : Schema} {dialect : Dialect} {ps : List Parameter} {ds : List Declared}
  {result : Spelling}

theorem Schema.eq_plain_of_declare {p : Parameter} {d : Declared} (isVoid : p.type = .void)
    (h : s.declare dialect p = .ok d) : d = .plain "void" p.name := by
  obtain ⟨spelling, resolved, rfl⟩ := map_eq_ok.1 h
  rw [isVoid, resolve_void] at resolved
  cases resolved
  rfl

theorem Schema.mem_declareAll {p : Parameter} (isVoid : p.type = .void) (hp : p ∈ ps)
    (h : s.declareAll dialect ps = .ok ds) : .plain "void" p.name ∈ ds := by
  obtain ⟨d, hd, declared⟩ := exists_right_of_forall₂ ((s.declareAll_stepwise dialect).forall₂ h) hp
  rwa [← eq_plain_of_declare isVoid declared]

theorem Schema.mem_declareFlat {p : Parameter} (isVoid : p.type = .void) (hp : p ∈ ps)
    (h : s.declareFlat dialect ps = .ok ds) : .plain "void" p.name ∈ ds := by
  induction ps generalizing ds with
  | nil => cases hp
  | cons q qs ih =>
    obtain ⟨d, declared, h⟩ := bind_eq_ok.1 h
    obtain ⟨rest, hrest, h⟩ := bind_eq_ok.1 h
    cases h
    rcases List.mem_cons.1 hp with rfl | hp
    · rw [eq_plain_of_declare isVoid declared]
      exact List.mem_cons_self
    · exact List.mem_cons_of_mem _ (List.mem_append_right _ (ih hp hrest))

theorem Schema.eq_of_resolve_void {type : TypeRef} {position : Position} (isVoid : type = .void)
    (h : s.resolve dialect position type = .ok result) : result = ⟨"void", none⟩ := by
  rw [isVoid, resolve_void] at h
  cases h
  rfl

variable {g : Signature} (returns_ok : s.resolve dialect .result g.returns = .ok result)
include returns_ok

theorem Signature.spellsVoid_of_declareAll (h : s.declareAll dialect g.parameters = .ok ds) :
    g.SpellsVoid result ds :=
  ⟨fun isVoid => Schema.eq_of_resolve_void isVoid returns_ok,
    fun _ hp isVoid => Schema.mem_declareAll isVoid hp h⟩

/-- Before the declared parameters may stand what the member is called on. -/
theorem Signature.spellsVoid_of_declareFlat (h : s.declareFlat dialect g.parameters = .ok ds)
    (front : List Declared) : g.SpellsVoid result (front ++ ds) :=
  ⟨fun isVoid => Schema.eq_of_resolve_void isVoid returns_ok,
    fun _ hp isVoid => List.mem_append_right front (Schema.mem_declareFlat isVoid hp h)⟩

end Declarations

section Members

variable {s : Schema} {t : ApiType} {m : Member} {exports : ExportTable}

theorem Shim.spellsVoid_memberFunction {name : String} {f : Function}
    (h : memberFunction s t name m = .ok f) : (t.signature m).SpellsVoid f.result f.parameters := by
  obtain ⟨parameters, hparameters, h⟩ := bind_eq_ok.1 h
  obtain ⟨result, hresult, h⟩ := bind_eq_ok.1 h
  obtain ⟨arguments, _, h⟩ := bind_eq_ok.1 h
  obtain ⟨answer, _, h⟩ := bind_eq_ok.1 h
  cases h
  exact Signature.spellsVoid_of_declareFlat hresult hparameters _

theorem Import.spellsVoid_ofMember {name : String} {i : Import} (h : ofMember s t name m = .ok i) :
    (t.signature m).SpellsVoid i.result i.parameters := by
  obtain ⟨parameters, hparameters, h⟩ := bind_eq_ok.1 h
  obtain ⟨result, hresult, h⟩ := bind_eq_ok.1 h
  obtain ⟨marshalling, _, h⟩ := bind_eq_ok.1 h
  cases h
  exact Signature.spellsVoid_of_declareFlat hresult hparameters _

theorem NativeMember.spellsVoid_ofMember {n : NativeMember} (h : ofMember s t m = .ok n) :
    n.member = m ∧ (t.signature m).SpellsVoid n.result n.parameters := by
  obtain ⟨result, hresult, h⟩ := bind_eq_ok.1 h
  obtain ⟨parameters, hparameters, h⟩ := bind_eq_ok.1 h
  cases h
  exact ⟨rfl, Signature.spellsVoid_of_declareAll hresult hparameters⟩

theorem WrappedMethod.spellsVoid_ofMethod (exports_ok : ExportTable.build s t = .ok exports)
    {i : Nat} (hm : .method i ∈ t.members) {o : Option WrappedMethod}
    (h : ofMethod s t exports i (t.method i) = .ok o) :
    ∃ w ∈ o, w.name = (t.method i).name ∧
      (t.signature (.method i)).SpellsVoid w.result w.parameters := by
  have mem : .member (.method i) ∈ s.exportKinds t := Schema.mem_exportKinds_member.2 ⟨hm, rfl⟩
  have exported := (ExportTable.find?_eq_some exports_ok).2 ⟨mem, rfl⟩
  rcases mapM_eq_ok.1 h with ⟨none, _⟩ | ⟨e, w, _, rfl, ok⟩
  · cases exported.symm.trans none
  · obtain ⟨result, hresult, ok⟩ := bind_eq_ok.1 ok
    obtain ⟨parameters, hparameters, ok⟩ := bind_eq_ok.1 ok
    obtain ⟨body, _, ok⟩ := bind_eq_ok.1 ok
    cases ok
    exact ⟨_, rfl, rfl, Signature.spellsVoid_of_declareAll hresult hparameters⟩

theorem WrappedProperty.eq_void_ofProperty {i : Nat} {p : Property} {w : WrappedProperty}
    (isVoid : p.type = .void) (h : ofProperty s t exports i p = .ok w) :
    w.name = p.name ∧ w.type = ⟨"void", none⟩ := by
  obtain ⟨type, resolved, h⟩ := bind_eq_ok.1 h
  obtain ⟨getter, _, h⟩ := bind_eq_ok.1 h
  obtain ⟨setter, _, h⟩ := bind_eq_ok.1 h
  cases h
  exact ⟨rfl, Schema.eq_of_resolve_void isVoid resolved⟩

end Members

namespace ClassArtifacts

variable {s : Schema} {t : ApiType} {slots : Option SlotTable} {exports : ExportTable}

/-- The void parameters, results and properties of a class are declared as such: by its flat
functions, by their imports, by the native class and by the wrapper. -/
structure DeclaresVoid (t : ApiType) (a : ClassArtifacts) : Prop where
  functions : ∀ m ∈ t.members, t.isSteppedGetter m = false →
    ∃ f ∈ a.shim.functions, f.name = t.nameOf (.member m) ∧
      (t.signature m).SpellsVoid f.result f.parameters
  imports : ∀ m ∈ t.members, t.isSteppedGetter m = false →
    ∃ i ∈ a.wrapper.imports.imports, i.name = t.nameOf (.member m) ∧
      (t.signature m).SpellsVoid i.result i.parameters
  members : ∀ m ∈ t.members, ∃ n ∈ a.fragment.members, n.member = m ∧
    (t.signature m).SpellsVoid n.result n.parameters
  methods : ∀ i, .method i ∈ t.members → ∃ w ∈ a.wrapper.methods, w.name = (t.method i).name ∧
    (t.signature (.method i)).SpellsVoid w.result w.parameters
  properties : ∀ p ∈ t.properties, p.type = .void →
    ∃ w ∈ a.wrapper.properties, w.name = p.name ∧ w.type = ⟨"void", none⟩

theorem Parts.declaresVoid {a : ClassArtifacts} (parts : a.Parts s t slots exports) :
    a.DeclaresVoid t := by
  have wrapper := Wrapper.parts_of_ofClass parts.wrapper_ok
  have kind {m : Member} (hm : m ∈ t.members) (plain : t.isSteppedGetter m = false) :
      .member m ∈ s.exportKinds t := Schema.mem_exportKinds_member.2 ⟨hm, plain⟩
  refine ⟨fun m hm plain => ?_, fun m hm plain => ?_, fun m hm => ?_, fun i hm => ?_,
    fun p hp isVoid => ?_⟩
  · obtain ⟨f, hf, ok⟩ := Shim.exists_function parts.exports_ok parts.shim_ok (kind hm plain)
    exact ⟨f, hf, (Shim.functionOf_exportOf ok).1, Shim.spellsVoid_memberFunction ok⟩
  · obtain ⟨i, hi, ok⟩ := Imports.exists_import parts.exports_ok wrapper.imports_ok (kind hm plain)
    exact ⟨i, hi, (Import.ofExport_exportOf ok).1, Import.spellsVoid_ofMember ok⟩
  · have members := (Fragment.parts_of_ofClass parts.fragment_ok).members_ok
    obtain ⟨n, hn, ok⟩ :=
      exists_right_of_forall₂ ((NativeMember.ofMembers_stepwise s t).forall₂ members) hm
    exact ⟨n, hn, NativeMember.spellsVoid_ofMember ok⟩
  · have declared := List.getElem?_eq_getElem (ApiType.mem_members_method.1 hm)
    obtain ⟨o, ok, sub⟩ := WrappedMethod.exists_of_method wrapper.methods_ok declared
    rw [← ApiType.method_eq declared] at ok
    obtain ⟨w, hw, spells⟩ := WrappedMethod.spellsVoid_ofMethod parts.exports_ok hm ok
    exact ⟨w, sub w hw, spells⟩
  · obtain ⟨i, hi⟩ := List.mem_iff_getElem?.1 hp
    obtain ⟨w, hw, ok⟩ := WrappedProperty.exists_of_property wrapper.properties_ok hi
    exact ⟨w, hw, WrappedProperty.eq_void_ofProperty isVoid ok⟩

end ClassArtifacts

namespace Plan

variable {c : Config} {s : Schema}

/-- In a schema that has a plan, void is neither a field nor the data of an event, and no part of a
larger type in a member.  But no dialect refuses it as the type of a parameter or property, and the
files of the class then declare a void parameter or property. -/
theorem void_positions (valid : s.validate = .ok ()) {files : List PlannedFile}
    (plan : build c s = .ok files) :
    (∀ dialect position, s.resolve dialect position .void = .ok ⟨"void", none⟩) ∧
    (∀ t ∈ s.structs, ∀ f ∈ t.fields, ¬ f.type.HoldsVoid) ∧
    ∀ t ∈ s.classes,
      (∀ e ∈ t.events, ∀ type ∈ e.data, ¬ type.HoldsVoid) ∧
      (∀ m ∈ t.members, ∀ type ∈ (t.signature m).types, type.HoldsVoid → type = .void) ∧
      ∃ a, ClassArtifacts.build s t = .ok a ∧ (∀ f ∈ a.files c s, f ∈ files) ∧
        a.DeclaresVoid t := by
  have expressible := (succeeds_build_iff valid c).1 ⟨files, plan⟩
  refine ⟨s.resolve_void, fun t ht f hf => ?_, fun t ht => ⟨fun e he type data => ?_, ?_, ?_⟩⟩
  · exact (expressible.structs.holdsValue t ht f hf).not_holdsVoid
  · obtain ⟨u, struct⟩ := (expressible.classes t ht).payloads e he type data
    exact Schema.not_holdsVoid_of_struct struct
  · exact fun m hm => (expressible.classes t ht).eq_void hm
  · obtain ⟨a, ok, sub⟩ := class_of_build plan ht
    obtain ⟨slots, exports, parts⟩ := ClassArtifacts.parts_of_build ok
    exact ⟨a, ok, sub, parts.declaresVoid⟩

end Plan

def ApiType.gauge : ApiType where
  name := "Gauge"
  properties := [{ name := "Level", type := .void, set := true }]
  methods := [{ name := "Reset", parameters := [⟨"level", .void⟩] }]

def Schema.gauges : Schema := ⟨[.point, .gauge]⟩

namespace Plan

theorem void_positions_gauges :
    ∃ files a, Schema.gauges.validate = .ok () ∧ build {} Schema.gauges = .ok files ∧
      ClassArtifacts.build Schema.gauges .gauge = .ok a ∧ a.DeclaresVoid .gauge ∧
      ∀ f ∈ ApiType.point.fields, ¬ f.type.HoldsVoid := by
  have valid : Schema.gauges.validate = .ok () := by decide
  have plan : ∃ files, build {} Schema.gauges = .ok files := ⟨_, rfl⟩
  obtain ⟨files, plan⟩ := plan
  obtain ⟨_, fields, classes⟩ := void_positions valid plan
  obtain ⟨_, _, a, ok, _, declares⟩ := classes .gauge (by decide)
  exact ⟨files, a, valid, plan, ok, declares, fields .point (by decide)⟩

/-- The plan of a valid schema can declare void parameters in all four dialects. -/
theorem void_declared :
    ∃ files a, Schema.gauges.validate = .ok () ∧ build {} Schema.gauges = .ok files ∧
      (∃ t ∈ Schema.gauges.classes, (∃ m ∈ t.methods, ∃ p ∈ m.parameters, p.type = .void) ∧
        ∃ p ∈ t.properties, p.type = .void) ∧
      ClassArtifacts.build Schema.gauges .gauge = .ok a ∧
      (∀ f ∈ a.files {} Schema.gauges, f ∈ files) ∧
      "NATIVE_API void NATIVE_API_CALL Gauge_Reset(Gauge* obj, void level)" ∈ a.shim.code.texts ∧
      "void Reset(void level);" ∈ a.fragment.code.texts ∧
      "public void Reset(void level)" ∈ (a.wrapper.code {}).texts ∧
      "public static extern void Gauge_Reset(IntPtr obj, void level);" ∈
        (a.wrapper.code {}).texts := by
  have plan : ∃ files, build {} Schema.gauges = .ok files := ⟨_, rfl⟩
  obtain ⟨files, plan⟩ := plan
  obtain ⟨a, ok, sub⟩ := class_of_build plan (t := .gauge) (by decide)
  refine ⟨files, a, by decide, plan, by decide, ok, sub, ?_⟩
  cases ok
  decide

end Plan

end InteropGen
