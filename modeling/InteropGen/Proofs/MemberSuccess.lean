import InteropGen.Proofs.Acceptance
import InteropGen.Proofs.WrappedMembers

set_option autoImplicit false

/-!
# When a member can be generated

What flat functions accept decides: where they accept the types of a signature, so does everything
else that is generated for the member.  An array that is read step by step only needs a shape.
-/

namespace InteropGen

namespace Shape

variable {shape : Shape} {spelling : Spelling}

theorem IsElement.exists_flat (h : shape.IsElement) :
    ∃ spelling, shape.flat .result = .ok spelling := by
  cases shape with
  | primitive p => cases p <;> exact ⟨_, rfl⟩
  | text _ | struct _ | enum _ | «class» _ _ => exact ⟨_, rfl⟩
  | void | nullableValue _ | array _ => exact h.elim

theorem IsElement.exists_vector (h : shape.IsElement) :
    ∃ spelling, (array shape).native .result = .ok spelling := by
  cases shape with
  | primitive _ | text _ | struct _ | enum _ | «class» _ _ => exact ⟨_, rfl⟩
  | void | nullableValue _ | array _ => exact h.elim

theorem exists_flat_result (single : shape.isArray = false)
    (h : shape.flat .argument = .ok spelling) : ∃ result, shape.flat .result = .ok result := by
  cases shape with
  | primitive p => cases p <;> exact ⟨_, rfl⟩
  | void | text _ | struct _ | enum _ | «class» _ _ => exact ⟨_, rfl⟩
  | nullableValue _ => cases h
  | array _ => cases single

end Shape

namespace Schema

variable {s : Schema} {type : TypeRef} {dialect : Dialect} {position : Position}

def HasShape (s : Schema) (type : TypeRef) : Prop := ∃ shape, s.shapeOf type = .ok shape

def AcceptsSignature (s : Schema) (g : Signature) : Prop :=
  s.Accepts .flat .result g.returns ∧ ∀ p ∈ g.parameters, s.Accepts .flat .argument p.type

theorem Accepts.hasShape (h : s.Accepts dialect position type) : s.HasShape type := by
  obtain ⟨shape, _, hshape, _⟩ := accepts_iff.1 h
  exact ⟨shape, hshape⟩

theorem HasShape.succeeds_shape (h : s.HasShape type) (dialect : Dialect) :
    Succeeds (s.shape dialect type) := by
  obtain ⟨shape, hshape⟩ := h
  exact ⟨shape, shape_eq_ok.2 hshape⟩

theorem HasShape.succeeds_returnAttribute (h : s.HasShape type) :
    Succeeds (s.returnAttribute type) := (h.succeeds_shape .binding).map _

theorem HasShape.succeeds_managed (h : s.HasShape type) (position : Position) :
    Succeeds (s.resolve .managed position type) := accepts_managed_iff.2 h

theorem accepts_void : s.Accepts .flat .result .void := ⟨_, rfl⟩

section Arrays

variable {element : TypeRef}

theorem exists_element (h : s.HasShape (.array element)) :
    ∃ item, s.shapeOf element = .ok item ∧ item.IsElement ∧
      s.shapeOf (.array element) = .ok (.array item) := by
  obtain ⟨shape, hshape⟩ := h
  obtain ⟨item, hitem, rfl⟩ := shapeOf_array hshape
  exact ⟨item, hitem, isElement_shapeOf hshape hitem, hshape⟩

theorem accepts_item (h : s.HasShape (.array element)) : s.Accepts .flat .result element := by
  obtain ⟨item, hitem, isElement, _⟩ := exists_element h
  obtain ⟨spelling, spelled⟩ := isElement.exists_flat
  exact accepts_iff.2 ⟨item, spelling, hitem, spelled⟩

theorem accepts_native_array (h : s.HasShape type) (array : type.isArray = true) :
    s.Accepts .native .result type := by
  cases type with
  | array element =>
    obtain ⟨item, _, isElement, hshape⟩ := exists_element h
    obtain ⟨spelling, spelled⟩ := isElement.exists_vector
    exact accepts_iff.2 ⟨.array item, spelling, hshape, spelled⟩
  | void | primitive _ | text | named _ | nullable _ | generic _ => cases array

theorem succeeds_vectorOf (h : s.HasShape type) (array : type.isArray = true) :
    Succeeds (Shim.vectorOf s type) := Succeeds.map (accepts_native_array h array) _

end Arrays

theorem isArray_of_accepts_result (h : s.Accepts .flat .result type) : type.isArray = false := by
  obtain ⟨shape, spelling, hshape, spelled⟩ := accepts_iff.1 h
  rw [isArray_shapeOf hshape]
  cases shape with
  | array _ => cases spelled
  | void | primitive _ | text _ | struct _ | enum _ | «class» _ _ | nullableValue _ => rfl

theorem accepts_result_of_argument (single : type.isArray = false)
    (h : s.Accepts .flat .argument type) : s.Accepts .flat .result type := by
  obtain ⟨shape, spelling, hshape, spelled⟩ := accepts_iff.1 h
  rw [isArray_shapeOf hshape] at single
  obtain ⟨result, spelled⟩ := Shape.exists_flat_result single spelled
  exact accepts_iff.2 ⟨shape, result, hshape, spelled⟩

theorem succeeds_declareFlat_iff {ps : List Parameter} :
    Succeeds (s.declareFlat dialect ps) ↔ ∀ p ∈ ps, s.Accepts dialect .argument p.type := by
  induction ps with
  | nil => exact iff_of_true (.ok []) fun p hp => absurd hp List.not_mem_nil
  | cons p ps ih =>
    rw [List.forall_mem_cons, ← ih]
    constructor
    · rintro ⟨ds, h⟩
      obtain ⟨d, hd, h⟩ := bind_eq_ok.1 h
      obtain ⟨rest, hrest, _⟩ := bind_eq_ok.1 h
      obtain ⟨spelling, hspelling, _⟩ := map_eq_ok.1 hd
      exact ⟨⟨spelling, hspelling⟩, ⟨rest, hrest⟩⟩
    · rintro ⟨accepted, rest⟩
      exact (Succeeds.map accepted _).bind fun d _ => rest.bind fun ds _ => .ok _

theorem succeeds_declareAll {ps : List Parameter}
    (h : ∀ p ∈ ps, s.Accepts dialect .argument p.type) : Succeeds (s.declareAll dialect ps) :=
  (s.declareAll_stepwise dialect).succeeds fun p hp => Succeeds.map (h p hp) _

end Schema

open Schema

variable {s : Schema} {t : ApiType}

section Shims

theorem Shim.succeeds_argumentOf {p : Parameter} (h : s.HasShape p.type) :
    Succeeds (argumentOf s p) := by
  refine (h.succeeds_shape .flat).bind fun shape hshape => ?_
  split
  · exact .ok _
  · exact .ok _
  · rename_i element
    refine (succeeds_vectorOf h ?_).bind fun _ _ => .ok _
    exact isArray_shapeOf (shape_eq_ok.1 hshape)
  · exact .ok _

theorem Shim.succeeds_memberFunction_iff {name : String} {m : Member} :
    Succeeds (memberFunction s t name m) ↔ s.AcceptsSignature (t.signature m) := by
  constructor
  · rintro ⟨f, h⟩
    obtain ⟨parameters, hparameters, h⟩ := bind_eq_ok.1 h
    obtain ⟨result, hresult, h⟩ := bind_eq_ok.1 h
    exact ⟨⟨result, hresult⟩, succeeds_declareFlat_iff.1 ⟨parameters, hparameters⟩⟩
  · rintro ⟨returns, parameters⟩
    refine (succeeds_declareFlat_iff.2 parameters).bind fun _ _ => ?_
    refine Succeeds.bind returns fun _ _ => ?_
    refine Succeeds.bind ((argumentsOf_stepwise s).succeeds fun p hp => ?_) fun _ _ => ?_
    · exact succeeds_argumentOf (parameters p hp).hasShape
    · exact ((returns.hasShape.succeeds_shape .flat).map _).bind fun _ _ => .ok _

theorem Shim.succeeds_arrayFunction {name : String} {i : Nat} {step : ArrayStep}
    (h : s.HasShape (t.property i).type) (array : (t.property i).type.isArray = true) :
    Succeeds (arrayFunction s t name i step) := by
  have vector := succeeds_vectorOf h array
  cases type_eq : (t.property i).type with
  | array element =>
    rw [type_eq] at h vector
    simp only [arrayFunction, type_eq]
    refine vector.bind fun _ _ => ?_
    cases step with
    | openArray | countItems | closeArray => exact .ok _
    | itemAt =>
      have item := accepts_item h
      refine Succeeds.bind item fun _ _ => ?_
      exact ((item.hasShape.succeeds_shape .flat).map _).bind fun _ _ => .ok _
  | void | primitive _ | text | named _ | nullable _ | generic _ =>
    rw [type_eq] at array
    cases array

end Shims

section Imports

theorem Import.succeeds_ofMember {name : String} {m : Member}
    (h : s.AcceptsSignature (t.signature m)) : Succeeds (ofMember s t name m) := by
  have parameters : Succeeds (s.declareFlat .binding (t.signature m).parameters) :=
    succeeds_declareFlat_iff.2 fun p hp => accepts_binding_iff.2 (h.2 p hp)
  have result : Succeeds (s.resolve .binding .result (t.signature m).returns) :=
    accepts_binding_iff.2 h.1
  refine parameters.bind fun _ _ => result.bind fun _ _ => ?_
  exact h.1.hasShape.succeeds_returnAttribute.bind fun _ _ => .ok _

theorem Import.succeeds_ofArrayStep {name : String} {i : Nat} {step : ArrayStep}
    (h : s.HasShape (t.property i).type) (array : (t.property i).type.isArray = true) :
    Succeeds (ofArrayStep s t name i step) := by
  cases step with
  | openArray | countItems | closeArray => exact .ok _
  | itemAt =>
    cases type_eq : (t.property i).type with
    | array element =>
      rw [type_eq] at h
      simp only [ofArrayStep, type_eq]
      have item := accepts_item h
      have result : Succeeds (s.resolve .binding .result element) := accepts_binding_iff.2 item
      exact result.bind fun _ _ => item.hasShape.succeeds_returnAttribute.bind fun _ _ => .ok _
    | void | primitive _ | text | named _ | nullable _ | generic _ =>
      rw [type_eq] at array
      cases array

end Imports

section Bodies

theorem Operand.succeeds_ofParameters {ps : List Parameter} (h : ∀ p ∈ ps, s.HasShape p.type) :
    Succeeds (ofParameters s ps) := by
  induction ps with
  | nil => exact .ok []
  | cons p ps ih =>
    obtain ⟨shaped, rest⟩ := List.forall_mem_cons.1 h
    exact ((shaped.succeeds_shape .managed).map _).bind fun _ _ => (ih rest).bind fun _ _ => .ok _

theorem CallBody.succeeds_ofMember {m : Member} {symbol : String}
    (h : s.AcceptsSignature (t.signature m)) : Succeeds (ofMember s t m symbol) := by
  refine (Operand.succeeds_ofParameters fun p hp => (h.2 p hp).hasShape).bind fun _ _ => ?_
  exact ((h.1.hasShape.succeeds_shape .managed).map _).bind fun _ _ => .ok _

theorem NativeMember.succeeds_ofMember {m : Member}
    (returns : s.Accepts .native .result (t.signature m).returns)
    (parameters : ∀ p ∈ (t.signature m).parameters, s.Accepts .flat .argument p.type) :
    Succeeds (ofMember s t m) := by
  refine Succeeds.bind returns fun _ _ => ?_
  exact (succeeds_declareAll fun p hp => accepts_native_of_flat (parameters p hp)).bind
    fun _ _ => .ok _

end Bodies

section Slots

variable {slot : Slot} (h : s.AcceptsSignature (t.signature slot.member))

include h

theorem SlotWrapper.succeeds_ofSlot : Succeeds (ofSlot s t slot) :=
  Succeeds.bind h.1 fun _ _ => (succeeds_declareAll h.2).bind fun _ _ => .ok _

theorem SlotDelegate.succeeds_ofSlot : Succeeds (ofSlot s t slot) := by
  have result : Succeeds (s.resolve .binding .result (t.signature slot.member).returns) :=
    accepts_binding_iff.2 h.1
  refine (succeeds_declareAll fun p hp => accepts_binding_iff.2 (h.2 p hp)).bind fun _ _ => ?_
  exact result.bind fun _ _ => h.1.hasShape.succeeds_returnAttribute.bind fun _ _ => .ok _

/-- Slots spell their parameters as results, which arrays are not. -/
theorem SlotHandler.succeeds_ofSlot
    (single : ∀ p ∈ (t.signature slot.member).parameters, p.type.isArray = false) :
    Succeeds (ofSlot s t slot) := by
  have result : Succeeds (s.resolve .binding .result (t.signature slot.member).returns) :=
    accepts_binding_iff.2 h.1
  refine Succeeds.bind ((parametersOf_stepwise s).succeeds fun p hp => ?_) fun _ _ => ?_
  · have accepted := accepts_result_of_argument (single p hp) (h.2 p hp)
    have spelled : Succeeds (s.resolve .binding .result p.type) := accepts_binding_iff.2 accepted
    exact spelled.bind fun _ _ => (accepted.hasShape.succeeds_shape .managed).bind fun _ _ => .ok _
  · exact result.bind fun _ _ =>
      ((h.1.hasShape.succeeds_shape .managed).map _).bind fun _ _ => .ok _

end Slots

theorem WrappedProperty.succeeds_ofProperties {exports : ExportTable} {index : Nat}
    {ps : List Property}
    (h : ∀ p i, (p, i) ∈ ps.zipIdx index → Succeeds (ofProperty s t exports i p)) :
    Succeeds (ofProperties s t exports index ps) := by
  induction ps generalizing index with
  | nil => exact .ok []
  | cons p ps ih =>
    rw [List.zipIdx_cons] at h
    refine (h p index List.mem_cons_self).bind fun _ _ => ?_
    exact (ih fun q i hq => h q i (List.mem_cons_of_mem _ hq)).bind fun _ _ => .ok _

theorem WrappedMethod.succeeds_ofMethods {exports : ExportTable} {index : Nat} {ms : List Method}
    (h : ∀ m i, (m, i) ∈ ms.zipIdx index → Succeeds (ofMethod s t exports i m)) :
    Succeeds (ofMethods s t exports index ms) := by
  induction ms generalizing index with
  | nil => exact .ok []
  | cons m ms ih =>
    rw [List.zipIdx_cons] at h
    refine (h m index List.mem_cons_self).bind fun _ _ => ?_
    exact (ih fun n i hn => h n i (List.mem_cons_of_mem _ hn)).bind fun _ _ => .ok _

theorem WrappedEvent.succeeds_ofEvent_iff {e : Event} :
    Succeeds (ofEvent s e) ↔ ∀ type ∈ e.data, ∃ u, s.shapeOf type = .ok (.struct u) := by
  unfold ofEvent
  cases e.data with
  | none => exact iff_of_true (.ok _) fun type h => absurd h (Option.not_mem_none type)
  | some type =>
    constructor
    · rintro ⟨w, h⟩ carried mem
      obtain rfl := Option.mem_some_iff.1 mem
      obtain ⟨shape, hshape, h⟩ := bind_eq_ok.1 h
      cases shape with
      | struct u => exact ⟨u, shape_eq_ok.1 hshape⟩
      | void | primitive _ | text _ | enum _ | «class» _ _ | nullableValue _ | array _ => cases h
    · intro h
      obtain ⟨u, hu⟩ := h type rfl
      refine Succeeds.bind ⟨_, shape_eq_ok.2 hu⟩ fun shape hshape => ?_
      rw [shape_eq_ok, hu] at hshape
      cases hshape
      exact .ok _

end InteropGen
