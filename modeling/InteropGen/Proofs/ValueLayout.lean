import InteropGen.Proofs.ValueTypes
import InteropGen.Proofs.VariantValues

set_option autoImplicit false

/-!
# The layout of value types

Both sides take the values of enums from the same variants and the structs from the same order, and
spell the same shapes.  So in a valid schema they fail alike, and otherwise declare the same enums
and structs, field by field.
-/

namespace InteropGen

variable {s : Schema} {t : ApiType} {f : Field} {dialect : Dialect} {e : Failure}

/-- The values of the variants of an enum type, in an underlying type with room for each of them,
which is narrow if that has room for them all. -/
structure ValueEnum.Declares (t : ApiType) (e : ValueEnum) : Prop where
  name : e.name = t.name
  flags : e.flags = t.flags
  values : e.values = Variants.expected t.flags none t.variants
  narrow : e.isWide = false ↔ ∀ v ∈ e.values, fitsInt32 v.2 = true
  room : ∀ v ∈ e.values, fitsInt64 v.2 = true

theorem ValueEnum.declares_of_ofType {e : ValueEnum} (h : ofType t = .ok e) : e.Declares t := by
  unfold ofType at h
  split at h
  · rename_i values resolved
    cases h
    obtain ⟨fits, rfl⟩ := Variants.resolve_eq_ok.1 resolved
    refine ⟨rfl, rfl, rfl, ?_, fits⟩
    simp [isWide]
  · cases h

structure ValueField.Declares (s : Schema) (dialect : Dialect) (f : Field) (v : ValueField) :
    Prop where
  name : v.name = f.name
  spelling : ∃ shape, s.shapeOf f.type = .ok shape ∧ shape.IsValue ∧
    shape.spell dialect .declaration = .ok v.spelling
  isBool : v.isBool = true ↔ f.type = .primitive .bool

/-- Values are primitives and declared structs and enums, by themselves. -/
theorem Schema.type_of_isValue {type : TypeRef} {shape : Shape} (h : s.shapeOf type = .ok shape)
    (value : shape.IsValue) :
    (∃ p, type = .primitive p ∧ shape = .primitive p) ∨
      ∃ t ∈ s.types, type = .named t.name ∧ (shape = .struct t ∨ shape = .enum t) := by
  cases type with
  | primitive p =>
    cases h
    exact .inl ⟨p, rfl, rfl⟩
  | named name =>
    rw [shapeOf] at h
    split at h
    · rename_i t ht
      refine .inr ⟨t, mem_of_get? ht, by rw [name_of_get? ht], ?_⟩
      cases h
      cases kind : t.kind with
      | classType =>
        simp only [Shape.ofDeclared, kind] at value
        exact value.elim
      | structType => exact .inl (by simp only [Shape.ofDeclared, kind])
      | enumType => exact .inr (by simp only [Shape.ofDeclared, kind])
    · cases h
  | nullable inner =>
    obtain ⟨inner_shape, _, h⟩ := bind_eq_ok.1 h
    cases inner_shape <;> cases h <;> exact value.elim
  | array element =>
    obtain ⟨item, _, rfl⟩ := shapeOf_array h
    exact value.elim
  | void | text =>
    cases h
    exact value.elim
  | generic _ => cases h

theorem ValueField.declares_of_fieldOf {v : ValueField} (holds : s.HoldsValue f)
    (h : ValueStruct.fieldOf s dialect f = .ok v) : v.Declares s dialect f := by
  obtain ⟨shape, hshape, h⟩ := bind_eq_ok.1 h
  obtain ⟨spelling, hspelling, h⟩ := bind_eq_ok.1 h
  cases h
  have hshape := Schema.shape_eq_ok.1 hshape
  obtain ⟨shape', hshape', spelled⟩ := Schema.resolve_eq_ok.1 hspelling
  obtain ⟨shape'', hshape'', value⟩ := holds
  rw [hshape] at hshape' hshape''
  cases hshape'
  cases hshape''
  refine ⟨rfl, ⟨shape, hshape, value, spelled⟩, ?_⟩
  rcases Schema.type_of_isValue hshape value with ⟨p, type, rfl⟩ | ⟨t, _, type, rfl | rfl⟩
  · rw [type]
    cases p <;> simp [Shape.isBool]
  · simp [type, Shape.isBool]
  · simp [type, Shape.isBool]

/-- Apart from types of that name, only booleans are spelled as one byte natively. -/
theorem ValueField.Declares.c_bool_iff {v : ValueField} (h : v.Declares s .flat f) :
    v.spelling.literal = "c_bool" ↔ v.isBool = true ∨ f.type = .named "c_bool" := by
  rw [h.isBool]
  obtain ⟨shape, hshape, value, spelled⟩ := h.spelling
  rcases Schema.type_of_isValue hshape value with ⟨p, type, rfl⟩ | ⟨t, _, type, rfl | rfl⟩
  · cases p <;> rw [← Except.ok.inj spelled, type] <;> simp [Primitive.native]
  · rw [← Except.ok.inj spelled, type]
    simp
  · rw [← Except.ok.inj spelled, type]
    simp

structure ValueStruct.Declares (s : Schema) (dialect : Dialect) (t : ApiType) (v : ValueStruct) :
    Prop where
  name : v.name = t.name
  fields : List.Forall₂ (ValueField.Declares s dialect) t.fields v.fields

theorem ValueStruct.declares_of_ofType {v : ValueStruct} (holds : ∀ f ∈ t.fields, s.HoldsValue f)
    (h : ofType s dialect t = .ok v) : v.Declares s dialect t := by
  obtain ⟨fields, hfields, rfl⟩ := map_eq_ok.1 h
  have steps := (fieldsOf_stepwise s dialect).forall₂ hfields
  refine ⟨rfl, ((List.forall₂_and_left _ _).2 ⟨holds, steps⟩).imp fun f v h => ?_⟩
  exact ValueField.declares_of_fieldOf h.1 h.2

theorem ValueStruct.declares_of_ofTypes {order : List ApiType} {vs : List ValueStruct}
    (holds : ∀ t ∈ order, ∀ f ∈ t.fields, s.HoldsValue f) (h : ofTypes s dialect order = .ok vs) :
    List.Forall₂ (ValueStruct.Declares s dialect) order vs := by
  have steps := (ofTypes_stepwise s dialect).forall₂ h
  refine ((List.forall₂_and_left _ _).2 ⟨holds, steps⟩).imp fun t v h => ?_
  exact declares_of_ofType h.1 h.2

/-- The managed side marks the field if it is one byte wide natively, which only a type that takes
the name of such a field can pretend. -/
structure ValueField.MarkedAlike (s : Schema) (native managed : ValueField) : Prop where
  name : native.name = managed.name
  marked : managed.isBool = true → native.spelling.literal = "c_bool"
  only : native.spelling.literal = "c_bool" →
    managed.isBool = true ∨ ∃ t ∈ s.types, t.name = "c_bool"

theorem ValueField.markedAlike {native managed : ValueField} (hn : native.Declares s .flat f)
    (hm : managed.Declares s .managed f) : native.MarkedAlike s managed := by
  refine ⟨hn.name.trans hm.name.symm, fun marked => ?_, fun narrow => ?_⟩
  · exact hn.c_bool_iff.2 (.inl (hn.isBool.2 (hm.isBool.1 marked)))
  · rcases hn.c_bool_iff.1 narrow with isBool | type
    · exact .inl (hm.isBool.2 (hn.isBool.1 isBool))
    · obtain ⟨shape, hshape, value, _⟩ := hn.spelling
      rcases Schema.type_of_isValue hshape value with ⟨p, primitive, _⟩ | ⟨t, ht, named, _⟩
      · rw [type] at primitive
        cases primitive
      · rw [type, TypeRef.named.injEq] at named
        exact .inr ⟨t, ht, named.symm⟩

structure SameLayout (s : Schema) (n : NativeTypes) (m : ManagedTypes) : Prop where
  classes : n.classes = s.classes.map ApiType.name
  sameEnums : n.enums = m.enums
  enums : List.Forall₂ ValueEnum.Declares s.enums n.enums
  /-- Both sides declare the structs in one order, each after its parts. -/
  structs : ∃ order, order.Perm s.structs ∧ s.IsOrdered order ∧
    List.Forall₂ (ValueStruct.Declares s .flat) order n.structs ∧
    List.Forall₂ (ValueStruct.Declares s .managed) order m.structs
  marks : List.Forall₂ (fun v w => List.Forall₂ (ValueField.MarkedAlike s) v.fields w.fields)
    n.structs m.structs

theorem bind_eq_error_of_succeeds {ε α β : Type} {x : Except ε α} {g : α → Except ε β} {e : ε}
    (succeeds : ∀ a, x = .ok a → Succeeds (g a)) : (x >>= g) = .error e ↔ x = .error e := by
  rw [bind_eq_error, or_iff_left_iff_imp]
  rintro ⟨a, ha, failed⟩
  obtain ⟨b, hb⟩ := succeeds a ha
  rw [hb] at failed
  cases failed

namespace SameLayout

variable {enums : List ValueEnum} {n : NativeTypes} {m : ManagedTypes}

theorem native_eq (henums : ValueEnum.ofTypes s.enums = .ok enums) :
    NativeTypes.ofSchema s = s.structOrder >>= fun order =>
      (ValueStruct.ofTypes s .flat order).map
        (NativeTypes.mk (s.classes.map ApiType.name) enums) := by
  rw [NativeTypes.ofSchema, henums]
  rfl

theorem managed_eq (henums : ValueEnum.ofTypes s.enums = .ok enums) :
    ManagedTypes.ofSchema s = s.structOrder >>= fun order =>
      (ValueStruct.ofTypes s .managed order).map (ManagedTypes.mk enums) := by
  rw [ManagedTypes.ofSchema, henums]
  rfl

variable (valid : s.validate = .ok ())
include valid

theorem holdsValue_of_structOrder {order : List ApiType} (h : s.structOrder = .ok order) :
    ∀ t ∈ order, ∀ f ∈ t.fields, s.HoldsValue f :=
  (Schema.isOrdered_structOrder (s.nodup_names_of_validate valid) h).1.holdsValue

/-- Only the order of the structs can be missing, on either side. -/
theorem error_iff : NativeTypes.ofSchema s = .error e ↔ ManagedTypes.ofSchema s = .error e := by
  obtain ⟨enums, henums⟩ := ValueEnum.succeeds_ofTypes valid
  have structs (dialect : Dialect) (order : List ApiType) (h : s.structOrder = .ok order) :
      Succeeds (ValueStruct.ofTypes s dialect order) :=
    ValueStruct.succeeds_ofTypes (holdsValue_of_structOrder valid h) dialect
  rw [native_eq henums, managed_eq henums,
    bind_eq_error_of_succeeds fun order h => (structs .flat order h).map _,
    bind_eq_error_of_succeeds fun order h => (structs .managed order h).map _]

theorem of_ofSchema (native : NativeTypes.ofSchema s = .ok n)
    (managed : ManagedTypes.ofSchema s = .ok m) : SameLayout s n m := by
  obtain ⟨enums, henums⟩ := ValueEnum.succeeds_ofTypes valid
  rw [native_eq henums] at native
  rw [managed_eq henums] at managed
  obtain ⟨order, horder, native⟩ := bind_eq_ok.1 native
  obtain ⟨order', horder', managed⟩ := bind_eq_ok.1 managed
  rw [horder] at horder'
  cases horder'
  obtain ⟨structs, hstructs, rfl⟩ := map_eq_ok.1 native
  obtain ⟨structs', hstructs', rfl⟩ := map_eq_ok.1 managed
  have unique := s.nodup_names_of_validate valid
  have holds := holdsValue_of_structOrder valid horder
  have flat := ValueStruct.declares_of_ofTypes holds hstructs
  have managed := ValueStruct.declares_of_ofTypes holds hstructs'
  refine ⟨rfl, rfl, ?_, ⟨order, Schema.perm_structOrder unique horder,
    (Schema.isOrdered_structOrder unique horder).1, flat, managed⟩, ?_⟩
  · exact (ValueEnum.ofTypes_stepwise.forall₂ henums).imp fun _ _ => ValueEnum.declares_of_ofType
  · exact forall₂_of_both flat managed fun t v w hv hw =>
      forall₂_of_both hv.fields hw.fields fun f a b => ValueField.markedAlike

end SameLayout

end InteropGen
