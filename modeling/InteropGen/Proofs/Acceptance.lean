import InteropGen.Proofs.SpelledTypes

set_option autoImplicit false

/-!
# What the dialects accept

Flat functions and their imports accept the same types, class bodies accept more, and wrapper
classes accept every type that has a shape.
-/

namespace InteropGen

namespace Shape

variable {position : Position} {shape : Shape} {feature : String} {spelling : Spelling}

/-- What an array may hold: neither void, nor anything nullable, nor an array. -/
def IsElement : Shape → Prop
  | primitive _ | struct _ | enum _ => True
  | text isNullable => isNullable = false
  | «class» _ isNullable => isNullable = false
  | void | nullableValue _ | array _ => False

def IsRegular : Shape → Prop
  | array element => element.IsElement
  | nullableValue inner => inner.IsRegular
  | _ => True

theorem isElement_ofDeclared (t : ApiType) : (ofDeclared t).IsElement := by
  unfold ofDeclared
  split
  · exact rfl
  · trivial
  · trivial

theorem IsElement.isRegular (h : shape.IsElement) : shape.IsRegular := by
  cases shape <;> trivial

theorem isRegular_nullableOf {type : TypeRef} {inner : Shape} (h : inner.IsRegular)
    (ok : nullableOf type inner = .ok shape) : shape.IsRegular := by
  cases inner <;> cases ok <;> trivial

theorem flat_eq_error : shape.flat position = .error feature ↔
    shape.binding position = .error feature := by
  cases shape with
  | primitive p => cases p <;> exact iff_of_false nofun nofun
  | nullableValue inner => rfl
  | array element =>
    cases position with
    | argument =>
      cases element with
      | primitive p => cases p <;> first | rfl | exact iff_of_false nofun nofun
      | struct _ | enum _ | «class» _ _ => exact iff_of_false nofun nofun
      | void | text _ | nullableValue _ | array _ => rfl
    | result => rfl
    | declaration => rfl
  | void | text _ | struct _ | enum _ | «class» _ _ => exact iff_of_false nofun nofun

theorem exists_native_of_flat (h : shape.flat position = .ok spelling) :
    ∃ native, shape.native position = .ok native := by
  cases shape with
  | nullableValue inner => cases h
  | array element =>
    cases position with
    | argument =>
      cases element with
      | primitive _ | struct _ | enum _ | «class» _ _ => exact ⟨_, rfl⟩
      | void | text _ | nullableValue _ | array _ => cases h
    | result => cases h
    | declaration => cases h
  | void | primitive _ | text _ | struct _ | enum _ | «class» _ _ => exact ⟨_, rfl⟩

/-- The features for whose sake a dialect refuses a shape. -/
def refusals : List String :=
  ["nullable value types", "array return values", "array fields", "text array parameters",
    "bool array parameters"]

theorem IsRegular.mem_refusals_flat (h : shape.IsRegular)
    (failed : shape.flat position = .error feature) : feature ∈ refusals := by
  cases shape with
  | primitive p => cases p <;> cases failed
  | nullableValue inner => cases failed; decide
  | array element =>
    cases position with
    | argument =>
      cases element with
      | primitive p => cases p <;> cases failed; decide
      | text _ => cases failed; decide
      | struct _ | enum _ | «class» _ _ => cases failed
      | void | nullableValue _ | array _ => exact h.elim
    | result => cases failed; decide
    | declaration => cases failed; decide
  | void | text _ | struct _ | enum _ | «class» _ _ => cases failed

theorem IsRegular.mem_refusals_native (h : shape.IsRegular)
    (failed : shape.native position = .error feature) : feature ∈ refusals := by
  cases shape with
  | nullableValue inner => cases failed; decide
  | array element =>
    cases element with
    | void | nullableValue _ | array _ => exact h.elim
    | primitive _ | text _ | struct _ | enum _ | «class» _ _ =>
      cases position <;> cases failed
      decide
  | void | primitive _ | text _ | struct _ | enum _ | «class» _ _ => cases failed

theorem IsRegular.mem_refusals (h : shape.IsRegular) {dialect : Dialect}
    (failed : shape.spell dialect position = .error feature) : feature ∈ refusals := by
  cases dialect with
  | managed => cases failed
  | binding => exact h.mem_refusals_flat (flat_eq_error.2 failed)
  | native => exact h.mem_refusals_native failed
  | flat => exact h.mem_refusals_flat failed

end Shape

namespace Schema

variable {s : Schema} {type : TypeRef} {dialect : Dialect} {position : Position}

def Accepts (s : Schema) (dialect : Dialect) (position : Position) (type : TypeRef) : Prop :=
  ∃ spelling, s.resolve dialect position type = .ok spelling

theorem accepts_iff : s.Accepts dialect position type ↔
    ∃ shape spelling, s.shapeOf type = .ok shape ∧ shape.spell dialect position = .ok spelling := by
  unfold Accepts
  simp only [resolve_eq_ok]
  exact exists_comm

theorem resolve_eq_error {failure : Failure} :
    s.resolve dialect position type = .error failure ↔
      ∃ fault, s.spell dialect position type = .error fault ∧ fault.failure dialect = failure := by
  unfold resolve
  cases s.spell dialect position type <;> simp [Except.mapError]

theorem spell_eq_error {fault : TypeFault} :
    s.spell dialect position type = .error fault ↔ s.shapeOf type = .error fault ∨
      ∃ shape feature, s.shapeOf type = .ok shape ∧
        shape.spell dialect position = .error feature ∧ .unsupported feature type = fault := by
  rw [spell, bind_eq_error]
  refine or_congr_right ⟨?_, ?_⟩
  · rintro ⟨shape, hshape, failed⟩
    cases spelled : shape.spell dialect position with
    | ok spelling =>
      rw [spelled] at failed
      cases failed
    | error feature =>
      rw [spelled] at failed
      exact ⟨shape, feature, hshape, spelled, Except.error.inj failed⟩
  · rintro ⟨shape, feature, hshape, failed, rfl⟩
    exact ⟨shape, hshape, by rw [failed]; rfl⟩

def shapeRefusals : List String :=
  ["nullable arrays", "nested arrays", "nullable array elements", "void array elements",
    "generic types"]

theorem mem_shapeRefusals {feature : String} {refused : TypeRef}
    (failed : s.shapeOf type = .error (.unsupported feature refused)) :
    feature ∈ shapeRefusals := by
  induction type with
  | void | primitive _ | text => cases failed
  | named name =>
    unfold shapeOf at failed
    split at failed <;> cases failed
  | nullable inner ih =>
    rcases bind_eq_error.1 failed with failed | ⟨shape, _, failed⟩
    · exact ih failed
    · cases shape <;> cases failed
      decide
  | array element ih =>
    have unmapped
        (h : (s.shapeOf element).map Shape.array = .error (.unsupported feature refused)) :
        feature ∈ shapeRefusals := by
      cases eq : s.shapeOf element with
      | ok shape =>
        rw [eq] at h
        cases h
      | error fault =>
        rw [eq] at h ih
        exact ih h
    cases element with
    | void | nullable _ | array _ => cases failed; decide
    | primitive _ | text | named _ | generic _ => exact unmapped failed
  | generic spelling => cases failed; decide

theorem isElement_shapeOf {element : TypeRef} {shape item : Shape}
    (h : s.shapeOf (.array element) = .ok shape) (hitem : s.shapeOf element = .ok item) :
    item.IsElement := by
  cases element with
  | void | nullable _ | array _ => cases h
  | primitive p | text => cases hitem; trivial
  | named name =>
    unfold shapeOf at hitem
    split at hitem
    · cases hitem
      exact Shape.isElement_ofDeclared _
    · cases hitem
  | generic spelling => cases hitem

theorem isRegular_shapeOf {shape : Shape} (h : s.shapeOf type = .ok shape) : shape.IsRegular := by
  induction type generalizing shape with
  | void | primitive _ | text => cases h; trivial
  | named name =>
    unfold shapeOf at h
    split at h
    · cases h
      exact (Shape.isElement_ofDeclared _).isRegular
    · cases h
  | nullable inner ih =>
    obtain ⟨shape', hshape, h⟩ := bind_eq_ok.1 h
    exact Shape.isRegular_nullableOf (ih hshape) h
  | array element ih =>
    obtain ⟨item, hitem, rfl⟩ := shapeOf_array h
    exact isElement_shapeOf h hitem
  | generic spelling => cases h

theorem accepts_binding_iff :
    s.Accepts .binding position type ↔ s.Accepts .flat position type := by
  have same (shape : Shape) : (∃ x, shape.binding position = .ok x) ↔
      ∃ x, shape.flat position = .ok x := by
    cases flat : shape.flat position with
    | ok x =>
      cases binding : shape.binding position with
      | ok y => exact iff_of_true ⟨y, rfl⟩ ⟨x, rfl⟩
      | error feature =>
        rw [Shape.flat_eq_error.2 binding] at flat
        cases flat
    | error feature =>
      rw [Shape.flat_eq_error.1 flat]
  rw [accepts_iff, accepts_iff]
  simp only [exists_and_left]
  exact exists_congr fun shape => and_congr_right fun _ => same shape

theorem accepts_native_of_flat (h : s.Accepts .flat position type) :
    s.Accepts .native position type := by
  obtain ⟨shape, spelling, hshape, flat⟩ := accepts_iff.1 h
  obtain ⟨native, hnative⟩ := Shape.exists_native_of_flat flat
  exact accepts_iff.2 ⟨shape, native, hshape, hnative⟩

theorem accepts_managed_iff :
    s.Accepts .managed position type ↔ ∃ shape, s.shapeOf type = .ok shape := by
  constructor
  · intro h
    obtain ⟨shape, _, hshape, _⟩ := accepts_iff.1 h
    exact ⟨shape, hshape⟩
  · rintro ⟨shape, hshape⟩
    exact accepts_iff.2 ⟨shape, shape.managed position, hshape, rfl⟩

theorem accepts_managed_of_native (h : s.Accepts .native position type) :
    s.Accepts .managed position type := by
  obtain ⟨shape, _, hshape, _⟩ := accepts_iff.1 h
  exact accepts_managed_iff.2 ⟨shape, hshape⟩

/-- Flat functions and imports refuse a type for the same reason. -/
theorem spell_flat_eq_error {fault : TypeFault} : s.spell .flat position type = .error fault ↔
    s.spell .binding position type = .error fault := by
  rw [spell_eq_error, spell_eq_error]
  refine or_congr_right (exists_congr fun shape => exists_congr fun feature => ?_)
  exact and_congr_right fun _ => and_congr_left fun _ => Shape.flat_eq_error

theorem resolve_ne_arrays (reported : Dialect) (text : String) :
    s.resolve dialect position type ≠ .error (.unsupportedType reported "arrays" text) := by
  intro failed
  obtain ⟨fault, hfault, reports⟩ := resolve_eq_error.1 failed
  cases fault with
  | unknown name => cases reports
  | unsupported feature refused =>
    obtain ⟨-, rfl, -⟩ := Failure.unsupportedType.inj reports
    rcases spell_eq_error.1 hfault with unshaped | ⟨shape, feature, hshape, unspelled, eq⟩
    · exact absurd (mem_shapeRefusals unshaped) (by decide)
    · cases eq
      exact absurd ((isRegular_shapeOf hshape).mem_refusals unspelled) (by decide)

/-- The dialects accept nested sets of types: flat functions and imports accept the same ones and
refuse the others for the same reason, class bodies accept all of these, and wrapper classes accept
whatever has a shape.  No shape has an array of anything but elements. -/
theorem accepts_nested (s : Schema) (type : TypeRef) (usage : Usage) :
    (s.Accepts .flat usage.position type ↔ s.Accepts .binding usage.position type) ∧
    (∀ failure, s.resolve .flat usage.position type = .error failure →
      ∃ fault : TypeFault, failure = fault.failure .flat ∧
        s.resolve .binding usage.position type = .error (fault.failure .binding)) ∧
    (s.Accepts .flat usage.position type → s.Accepts .native usage.position type) ∧
    (s.Accepts .native usage.position type → s.Accepts .managed usage.position type) ∧
    (s.Accepts .managed usage.position type ↔ ∃ shape, s.shapeOf type = .ok shape) ∧
    (∀ shape, s.shapeOf type = .ok shape → shape.IsRegular) ∧
    ∀ dialect reported text,
      s.resolve dialect usage.position type ≠ .error (.unsupportedType reported "arrays" text) := by
  refine ⟨accepts_binding_iff.symm, fun failure failed => ?_, accepts_native_of_flat,
    accepts_managed_of_native, accepts_managed_iff, fun shape => isRegular_shapeOf,
    fun dialect => resolve_ne_arrays⟩
  obtain ⟨fault, hfault, rfl⟩ := resolve_eq_error.1 failed
  exact ⟨fault, rfl, resolve_eq_error.2 ⟨fault, spell_flat_eq_error.1 hfault, rfl⟩⟩

/-- Class bodies give arrays of text back; flat functions do not. -/
example : (Shape.array (.text false)).native .result = .ok ⟨"std::vector<string>", none⟩ ∧
    (Shape.array (.text false)).flat .result = .error "array return values" := ⟨rfl, rfl⟩

end Schema

end InteropGen
