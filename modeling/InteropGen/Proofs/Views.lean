import InteropGen.Proofs.Steps

set_option autoImplicit false

/-!
# Schemas seen through a map of types

A reference to a type tells the kind and the name of that type.  Two schemas may differ in all that
a map of types forgets, name by name: as long as the map keeps kinds and names, every reference has
the same spelling in both of them.
-/

namespace InteropGen

section Agree

variable {ε α α' β β' γ : Type}

inductive Agree (R : α → α' → Prop) : Except ε α → Except ε α' → Prop where
  | ok {a : α} {b : α'} (related : R a b) : Agree R (.ok a) (.ok b)
  | error (e : ε) : Agree R (.error e) (.error e)

namespace Agree

variable {R : α → α' → Prop} {S : β → β' → Prop} {x : Except ε α} {y : Except ε α'}

theorem refl (x : Except ε α) : Agree Eq x x := by
  cases x with
  | ok a => exact .ok rfl
  | error e => exact .error e

theorem eq {x y : Except ε α} (h : Agree Eq x y) : x = y := by
  cases h with
  | ok related => rw [related]
  | error e => rfl

theorem related {a : α} {b : α'} (h : Agree R (.ok a : Except ε α) (.ok b)) : R a b := by
  cases h
  assumption

theorem bind {f : α → Except ε β} {g : α' → Except ε β'} (h : Agree R x y)
    (next : ∀ a b, R a b → Agree S (f a) (g b)) : Agree S (x >>= f) (y >>= g) := by
  cases h with
  | ok related => exact next _ _ related
  | error e => exact .error e

theorem bind_self {x : Except ε α} {f : α → Except ε β} {g : α → Except ε β'}
    (next : ∀ a, Agree S (f a) (g a)) : Agree S (x >>= f) (x >>= g) :=
  (refl x).bind fun a _ same => same ▸ next a

theorem map {f : α → β} {g : α' → β'} (h : Agree R x y) (next : ∀ a b, R a b → S (f a) (g b)) :
    Agree S (x.map f) (y.map g) := by
  cases h with
  | ok related => exact .ok (next _ _ related)
  | error e => exact .error e

theorem mapError {ε' : Type} (h : Agree R x y) (f : ε → ε') :
    Agree R (x.mapError f) (y.mapError f) := by
  cases h with
  | ok related => exact .ok related
  | error e => exact .error (f e)

theorem mapM {f g : α → Except ε β} {p : β → γ} (x : Option α)
    (each : ∀ a, Agree (InvImage Eq p) (f a) (g a)) :
    Agree (InvImage Eq (Option.map p)) (x.mapM f) (x.mapM g) := by
  cases x with
  | none => exact .ok rfl
  | some a => exact (each a).bind fun b b' same => .ok (congrArg some same)

theorem foldlM {R : β → β' → Prop} {f : β → α → Except ε β} {g : β' → α' → Except ε β'}
    {T : α → α' → Prop} {xs : List α} {ys : List α'} (entries : List.Forall₂ T xs ys)
    (step : ∀ b b' a a', R b b' → T a a' → Agree R (f b a) (g b' a')) {b : β} {b' : β'}
    (start : R b b') : Agree R (xs.foldlM f b) (ys.foldlM g b') := by
  induction entries generalizing b b' with
  | nil => exact .ok start
  | cons head _ ih =>
    rw [List.foldlM_cons, List.foldlM_cons]
    exact (step _ _ _ _ start head).bind fun _ _ related => ih related

theorem stepwise {f : α → Except ε β} {f' : α → Except ε β'} {g : List α → Except ε (List β)}
    {g' : List α → Except ε (List β')} (steps : IsStepwise f g) (steps' : IsStepwise f' g')
    (each : ∀ a, Agree S (f a) (f' a)) (xs : List α) : Agree (List.Forall₂ S) (g xs) (g' xs) := by
  induction xs with
  | nil =>
    rw [steps.1, steps'.1]
    exact .ok .nil
  | cons x xs ih =>
    rw [steps.2, steps'.2]
    exact (each x).bind fun _ _ first => ih.bind fun _ _ others => .ok (.cons first others)

theorem of_map_eq {p : α → γ} {x y : Except ε α} (same : x.map p = y.map p) :
    Agree (InvImage Eq p) x y := by
  cases x with
  | ok a =>
    obtain ⟨b, rfl, eq⟩ := map_eq_ok.1 same.symm
    exact .ok eq.symm
  | error e =>
    cases y with
    | ok b => cases same
    | error e' =>
      cases same
      exact .error e

end Agree

theorem IsStepwise.congr {f f' : α → Except ε β} {g g' : List α → Except ε (List β)}
    (steps : IsStepwise f g) (steps' : IsStepwise f' g') (each : ∀ x, f x = f' x) : g = g' := by
  funext xs
  induction xs with
  | nil => rw [steps.1, steps'.1]
  | cons x xs ih => rw [steps.2, steps'.2, each, ih]

theorem eq_of_ok {x y : Except ε α} (same : x = y) {a b : α} (hx : x = .ok a) (hy : y = .ok b) :
    a = b :=
  Except.ok.inj (hx.symm.trans (same.trans hy))

/-- What a map does not change takes the same value where the map does. -/
theorem eq_of_blind {p : α → α} {g : α → β} (blind : ∀ a, g (p a) = g a) {a b : α}
    (same : p a = p b) : g a = g b := by
  rw [← blind a, same, blind b]

end Agree

namespace ApiType

/-- The map keeps what a reference to a type tells. -/
structure IsFaithful (f : ApiType → ApiType) : Prop where
  name (t : ApiType) : (f t).name = t.name
  kind (t : ApiType) : (f t).kind = t.kind

end ApiType

variable {f : ApiType → ApiType} {s₁ s₂ : Schema}

namespace Shape

def map (f : ApiType → ApiType) : Shape → Shape
  | void => void
  | primitive p => primitive p
  | text isNullable => text isNullable
  | struct t => struct (f t)
  | enum t => enum (f t)
  | «class» t isNullable => «class» (f t) isNullable
  | nullableValue inner => nullableValue (inner.map f)
  | array element => array (element.map f)

theorem map_ofDeclared (faithful : ApiType.IsFaithful f) (t : ApiType) :
    (ofDeclared t).map f = ofDeclared (f t) := by
  rw [ofDeclared, ofDeclared, faithful.kind]
  cases t.kind <;> rfl

theorem map_nullableOf (type : TypeRef) (shape : Shape) :
    (nullableOf type shape).map (map f) = nullableOf type (shape.map f) := by
  cases shape <;> rfl

section Spellings

variable (faithful : ApiType.IsFaithful f) (position : Position)
include faithful

theorem managed_map (shape : Shape) : (shape.map f).managed position = shape.managed position := by
  induction shape generalizing position with
  | void | primitive _ | text _ => rfl
  | struct t | enum t | «class» t _ => simp only [map, managed, faithful.name]
  | nullableValue inner ih | array element ih => simp only [map, managed, ih]

theorem header_map (t : ApiType) : (f t).header = t.header := by
  rw [ApiType.header, ApiType.header, faithful.name]

theorem binding_map (shape : Shape) : (shape.map f).binding position = shape.binding position := by
  cases shape with
  | void | primitive _ | text _ | nullableValue _ => rfl
  | struct t | enum t | «class» t _ => simp only [map, binding, faithful.name]
  | array element =>
    cases position with
    | result | declaration => rfl
    | argument =>
      cases element with
      | void | primitive _ | text _ | nullableValue _ | array _ => rfl
      | struct t | enum t | «class» t _ =>
        simp only [map, binding, parameterElement, bind, Except.bind, faithful.name]

theorem nativeElement_map (shape : Shape) : (shape.map f).nativeElement = shape.nativeElement := by
  cases shape with
  | void | primitive _ | text _ | nullableValue _ | array _ => rfl
  | struct t | enum t | «class» t _ =>
    simp only [map, nativeElement, header_map faithful, faithful.name]

theorem native_map (shape : Shape) : (shape.map f).native position = shape.native position := by
  cases shape with
  | void | primitive _ | text _ | nullableValue _ => rfl
  | struct t | enum t | «class» t _ =>
    simp only [map, native, header_map faithful, faithful.name]
  | array element => simp only [map, native, nativeElement_map faithful]

theorem flat_map (shape : Shape) : (shape.map f).flat position = shape.flat position := by
  cases shape with
  | void | primitive _ | text _ | nullableValue _ => rfl
  | struct t | enum t | «class» t _ => simp only [map, flat, header_map faithful, faithful.name]
  | array element =>
    cases position with
    | result | declaration => rfl
    | argument =>
      cases element with
      | void | primitive _ | text _ | nullableValue _ | array _ => rfl
      | struct t | enum t | «class» t _ =>
        simp only [map, flat, parameterElement, bind, Except.bind, header_map faithful,
          faithful.name]

theorem spell_map (dialect : Dialect) (shape : Shape) :
    (shape.map f).spell dialect position = shape.spell dialect position := by
  cases dialect with
  | managed => rw [spell, spell, managed_map faithful]
  | binding => exact binding_map faithful position shape
  | native => exact native_map faithful position shape
  | flat => exact flat_map faithful position shape

end Spellings

end Shape

namespace Schema

/-- Name by name, the schemas declare types that a faithful map makes equal. -/
structure SameThrough (f : ApiType → ApiType) (s₁ s₂ : Schema) : Prop where
  faithful : ApiType.IsFaithful f
  looked : ∀ name, (s₁.get? name).map f = (s₂.get? name).map f

namespace SameThrough

theorem map_get? (faithful : ApiType.IsFaithful f) (s : Schema) (name : String) :
    (s.get? name).map f = (s.types.map f).find? fun t => t.name = name := by
  have named : (fun t => decide (t.name = name)) ∘ f = fun t => decide (t.name = name) := by
    funext t
    rw [Function.comp_apply, faithful.name]
  rw [get?, List.find?_map, named]

theorem of_map_eq (faithful : ApiType.IsFaithful f) (types : s₁.types.map f = s₂.types.map f) :
    SameThrough f s₁ s₂ := by
  refine ⟨faithful, fun name => ?_⟩
  rw [map_get? faithful, map_get? faithful, types]

variable (same : SameThrough f s₁ s₂)
include same

theorem agree_named (name : String) :
    Agree (InvImage Eq (Shape.map f)) (s₁.shapeOf (.named name)) (s₂.shapeOf (.named name)) := by
  have looked := same.looked name
  rw [shapeOf, shapeOf]
  cases found₁ : s₁.get? name with
  | none =>
    rw [found₁, Option.map_none, eq_comm, Option.map_eq_none_iff] at looked
    rw [looked]
    exact .error _
  | some t₁ =>
    rw [found₁, Option.map_some, eq_comm, Option.map_eq_some_iff] at looked
    obtain ⟨t₂, found₂, mapped⟩ := looked
    rw [found₂]
    refine .ok ?_
    rw [InvImage, Shape.map_ofDeclared same.faithful, Shape.map_ofDeclared same.faithful, mapped]

theorem agree_shapeOf (type : TypeRef) :
    Agree (InvImage Eq (Shape.map f)) (s₁.shapeOf type) (s₂.shapeOf type) := by
  induction type with
  | void | primitive _ | text => exact .ok rfl
  | generic _ => exact .error _
  | named name => exact same.agree_named name
  | nullable inner ih =>
    refine ih.bind fun a b related => ?_
    have mapped : (Shape.nullableOf (.nullable inner) a).map (Shape.map f) =
        (Shape.nullableOf (.nullable inner) b).map (Shape.map f) := by
      rw [Shape.map_nullableOf, Shape.map_nullableOf, related]
    exact .of_map_eq mapped
  | array element ih =>
    cases element with
    | void | nullable _ | array _ => exact .error _
    | primitive _ | text | named _ | generic _ =>
      exact ih.map fun a b related => congrArg Shape.array related

theorem agree_shape (dialect : Dialect) (type : TypeRef) :
    Agree (InvImage Eq (Shape.map f)) (s₁.shape dialect type) (s₂.shape dialect type) :=
  (same.agree_shapeOf type).mapError _

variable {β : Type}

/-- What is computed from a shape tells the schemas apart only where the map makes a difference. -/
theorem agree_bind_shape {γ : Type} {p : β → γ} {g : Shape → Except Failure β}
    (blind : ∀ shape, (g (shape.map f)).map p = (g shape).map p) (dialect : Dialect)
    (type : TypeRef) :
    Agree (InvImage Eq p) (s₁.shape dialect type >>= g) (s₂.shape dialect type >>= g) :=
  (same.agree_shape dialect type).bind fun _ _ related =>
    .of_map_eq (eq_of_blind (g := fun shape => (g shape).map p) blind related)

theorem bind_shape_eq {g : Shape → Except Failure β} (blind : ∀ shape, g (shape.map f) = g shape)
    (dialect : Dialect) (type : TypeRef) :
    s₁.shape dialect type >>= g = s₂.shape dialect type >>= g := by
  refine ((same.agree_shape dialect type).bind fun a b related => ?_).eq
  rw [eq_of_blind blind related]
  exact .refl _

theorem map_shape_eq {g : Shape → β} (blind : ∀ shape, g (shape.map f) = g shape)
    (dialect : Dialect) (type : TypeRef) :
    (s₁.shape dialect type).map g = (s₂.shape dialect type).map g :=
  ((same.agree_shape dialect type).map fun _ _ => eq_of_blind blind).eq

theorem spell_eq : s₁.spell = s₂.spell := by
  funext dialect position type
  refine ((same.agree_shapeOf type).bind fun a b related => ?_).eq
  rw [eq_of_blind (Shape.spell_map same.faithful position dialect) related]
  exact .refl _

theorem resolve_eq : s₁.resolve = s₂.resolve := by
  funext dialect position type
  rw [resolve, resolve, same.spell_eq]

theorem literal_eq : s₁.literal = s₂.literal := by
  funext dialect position type
  rw [literal, literal, same.resolve_eq]

theorem returnAttribute_eq : s₁.returnAttribute = s₂.returnAttribute := by
  funext type
  refine same.map_shape_eq (fun shape => ?_) .binding type
  cases shape <;> rfl

theorem declare_eq : s₁.declare = s₂.declare := by
  funext dialect p
  rw [declare, declare, same.resolve_eq]

theorem declareAll_eq : s₁.declareAll = s₂.declareAll := by
  funext dialect
  refine (declareAll_stepwise s₁ dialect).congr (declareAll_stepwise s₂ dialect) fun p => ?_
  rw [same.declare_eq]

theorem declareFlat_eq : s₁.declareFlat = s₂.declareFlat := by
  funext dialect ps
  induction ps with
  | nil => rfl
  | cons p ps ih => rw [declareFlat, declareFlat, same.declare_eq, ih]

end SameThrough

end Schema

end InteropGen
