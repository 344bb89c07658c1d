import InteropGen.Proofs.ReferableTypes
import InteropGen.Proofs.ShimText
import InteropGen.Proofs.WrappedMembers

set_option autoImplicit false

/-!
# Headers of mentioned classes

A spelling depends on an artifact exactly where its type mentions a class, and then on the one that
declares the class in the dialect.  So what a shim includes for its signatures are the headers of the
classes that its members mention.
-/

namespace InteropGen

variable {s : Schema} {t : ApiType} {exports : ExportTable}

/-- What declares a class: native code includes its header, managed code uses its name. -/
def ApiType.artifact (dialect : Dialect) (t : ApiType) : String :=
  match dialect with
  | .managed | .binding => t.name
  | .native | .flat => t.header

namespace Shape

theorem class_ofDeclared (t : ApiType) :
    (ofDeclared t).class? = (some t).filter ApiType.isClass := by
  cases kind : t.kind <;>
    simp [ofDeclared, kind, class?, Option.filter_some, ApiType.isClass]

theorem class_of_nullableOf {type : TypeRef} {inner shape : Shape}
    (ok : nullableOf type inner = .ok shape) : shape.class? = inner.class? := by
  cases inner <;> cases ok <;> rfl

section Spellings

variable {position : Position} {shape : Shape} {spelling : Spelling}

theorem include_managed (shape : Shape) (position : Position) :
    (shape.managed position).include = shape.class?.map ApiType.name := by
  induction shape generalizing position with
  | array element ih => exact ih .declaration
  | void | primitive _ | text _ | struct _ | enum _ | «class» _ _ | nullableValue _ => rfl

theorem include_binding (ok : shape.binding position = .ok spelling) :
    spelling.include = shape.class?.map ApiType.name := by
  cases shape with
  | primitive p => cases p <;> cases ok <;> rfl
  | nullableValue inner => cases ok
  | array element =>
    cases position with
    | declaration | result => cases ok
    | argument =>
      obtain ⟨item, hitem, ok⟩ := bind_eq_ok.1 ok
      cases element with
      | primitive p => cases p <;> cases hitem <;> cases ok <;> rfl
      | void | text _ | struct _ | enum _ | «class» _ _ | nullableValue _ | array _ =>
        cases hitem <;> cases ok <;> rfl
  | void | text _ | struct _ | enum _ | «class» _ _ =>
    cases ok
    rfl

theorem include_native (ok : shape.native position = .ok spelling) :
    spelling.include = shape.class?.map ApiType.header := by
  cases shape with
  | nullableValue inner => cases ok
  | array element =>
    obtain ⟨item, hitem, ok⟩ := bind_eq_ok.1 ok
    have inner : item.include = element.class?.map ApiType.header := by
      cases element <;> cases hitem <;> rfl
    cases position <;> cases ok <;> exact inner
  | void | primitive _ | text _ | struct _ | enum _ | «class» _ _ =>
    cases ok
    rfl

theorem include_flat (ok : shape.flat position = .ok spelling) :
    spelling.include = shape.class?.map ApiType.header := by
  cases shape with
  | primitive p => cases p <;> cases ok <;> rfl
  | nullableValue inner => cases ok
  | array element =>
    cases position with
    | declaration | result => cases ok
    | argument =>
      obtain ⟨item, hitem, ok⟩ := bind_eq_ok.1 ok
      cases element with
      | primitive p => cases p <;> cases hitem <;> cases ok <;> rfl
      | void | text _ | struct _ | enum _ | «class» _ _ | nullableValue _ | array _ =>
        cases hitem <;> cases ok <;> rfl
  | void | text _ | struct _ | enum _ | «class» _ _ =>
    cases ok
    rfl

theorem include_of_spell {dialect : Dialect} (ok : shape.spell dialect position = .ok spelling) :
    spelling.include = shape.class?.map (ApiType.artifact dialect) := by
  cases dialect with
  | managed =>
    cases ok
    exact include_managed shape position
  | binding => exact include_binding ok
  | native => exact include_native ok
  | flat => exact include_flat ok

end Spellings

end Shape

namespace Schema

/-- The class that a type mentions, seen through `?` and `[]`. -/
def mentionedClass? (s : Schema) (type : TypeRef) : Option ApiType :=
  (type.mentioned?.bind s.get?).filter ApiType.isClass

theorem mem_classes_of_mentioned {type : TypeRef} {u : ApiType}
    (h : s.mentionedClass? type = some u) : u ∈ s.classes := by
  obtain ⟨found, isClass⟩ := Option.filter_eq_some_iff.1 h
  obtain ⟨name, _, found⟩ := Option.bind_eq_some_iff.1 found
  exact mem_classes.2 ⟨mem_of_get? found, isClass⟩

theorem class_of_shapeOf {type : TypeRef} {shape : Shape} (h : s.shapeOf type = .ok shape) :
    shape.class? = s.mentionedClass? type := by
  induction type generalizing shape with
  | named name =>
    rw [shapeOf] at h
    split at h
    · rename_i u found
      cases h
      have mentioned : (TypeRef.named name).mentioned?.bind s.get? = some u := found
      rw [Shape.class_ofDeclared, mentionedClass?, mentioned]
    · cases h
  | nullable inner ih =>
    obtain ⟨shape', hshape, h⟩ := bind_eq_ok.1 h
    exact (Shape.class_of_nullableOf h).trans (ih hshape)
  | array element ih =>
    obtain ⟨item, hitem, rfl⟩ := shapeOf_array h
    have mentioned : item.class? = s.mentionedClass? element := ih hitem
    exact mentioned
  | void | primitive _ | text =>
    cases h
    rfl
  | generic spelling => cases h

/-- A spelling depends on what declares the mentioned class, and on nothing else. -/
theorem include_of_resolve {dialect : Dialect} {position : Position} {type : TypeRef}
    {spelling : Spelling} (h : s.resolve dialect position type = .ok spelling) :
    spelling.include = (s.mentionedClass? type).map (ApiType.artifact dialect) := by
  obtain ⟨shape, hshape, ok⟩ := resolve_eq_ok.1 h
  rw [Shape.include_of_spell ok, class_of_shapeOf hshape]

def MentionsHeader (s : Schema) (types : List TypeRef) (header : String) : Prop :=
  ∃ type ∈ types, ∃ u, s.mentionedClass? type = some u ∧ header = u.header

theorem mem_include_resolve {position : Position} {type : TypeRef} {spelling : Spelling}
    (h : s.resolve .flat position type = .ok spelling) {header : String} :
    header ∈ spelling.include.toList ↔ s.MentionsHeader [type] header := by
  rw [include_of_resolve h, Option.mem_toList, Option.map_eq_some_iff]
  simp only [MentionsHeader, List.mem_singleton, exists_eq_left]
  exact exists_congr fun u => and_congr_right' eq_comm

theorem mentionsHeader_append {types others : List TypeRef} {header : String} :
    s.MentionsHeader (types ++ others) header ↔
      s.MentionsHeader types header ∨ s.MentionsHeader others header := by
  simp only [MentionsHeader, List.mem_append, or_and_right, exists_or]

theorem mem_includes_declareFlat {ps : List Parameter} {ds : List Declared}
    (h : s.declareFlat .flat ps = .ok ds) {header : String} :
    header ∈ ds.flatMap (·.spelling.include.toList) ↔
      s.MentionsHeader (ps.map Parameter.type) header := by
  induction ps generalizing ds with
  | nil =>
    cases h
    simp [MentionsHeader]
  | cons p ps ih =>
    obtain ⟨d, hd, h⟩ := bind_eq_ok.1 h
    obtain ⟨rest, hrest, h⟩ := bind_eq_ok.1 h
    cases h
    obtain ⟨spelling, hspelling, rfl⟩ := map_eq_ok.1 hd
    have counts : (Declared.counts p).flatMap (·.spelling.include.toList) = [] := by
      unfold Declared.counts
      split <;> rfl
    rw [List.flatMap_cons, List.flatMap_append, counts, List.nil_append, List.mem_append, ih hrest,
      mem_include_resolve hspelling, ← mentionsHeader_append]
    rfl

end Schema

namespace ApiType

def spelledTypes (t : ApiType) : ExportKind → List TypeRef
  | .member m => (t.signature m).types
  | .arrayAccess i .itemAt => [(t.property i).type]
  | _ => []

end ApiType

namespace Shim

variable {name : String} {f : Function}

theorem includes_selfOf (t : ApiType) (isStatic : Bool) :
    (selfOf t isStatic).flatMap (·.spelling.include.toList) = [] := by
  cases isStatic <;> rfl

theorem mem_includes_memberFunction {m : Member} (h : memberFunction s t name m = .ok f)
    {header : String} :
    header ∈ f.includes ↔ s.MentionsHeader (t.signature m).types header := by
  obtain ⟨parameters, hparameters, h⟩ := bind_eq_ok.1 h
  obtain ⟨result, hresult, h⟩ := bind_eq_ok.1 h
  obtain ⟨arguments, _, h⟩ := bind_eq_ok.1 h
  obtain ⟨answer, _, h⟩ := bind_eq_ok.1 h
  cases h
  rw [Function.includes, List.flatMap_append, includes_selfOf, List.nil_append, List.mem_append,
    Schema.mem_includes_declareFlat hparameters, Schema.mem_include_resolve hresult, or_comm,
    ← Schema.mentionsHeader_append]
  rfl

/-- Only the step that takes an item out of the array spells its type. -/
theorem mem_includes_arrayFunction {i : Nat} {step : ArrayStep}
    (h : arrayFunction s t name i step = .ok f) {header : String} :
    header ∈ f.includes ↔ s.MentionsHeader (t.spelledTypes (.arrayAccess i step)) header := by
  have self := includes_selfOf t (t.property i).isStatic
  simp only [arrayFunction] at h
  split at h
  · rename_i element array
    obtain ⟨vector, _, h⟩ := bind_eq_ok.1 h
    cases step with
    | openArray | countItems | closeArray =>
      cases h
      simp [Function.includes, self, Declared.plain, ApiType.spelledTypes, Schema.MentionsHeader]
    | itemAt =>
      obtain ⟨result, hresult, h⟩ := bind_eq_ok.1 h
      obtain ⟨answer, _, h⟩ := bind_eq_ok.1 h
      cases h
      have item : s.MentionsHeader [.array element] header ↔ s.MentionsHeader [element] header := by
        simp only [Schema.MentionsHeader, List.mem_singleton, exists_eq_left]
        rfl
      rw [ApiType.spelledTypes, array, item, ← Schema.mem_include_resolve hresult]
      simp [Function.includes, self, Declared.plain]
  · cases h

theorem mem_includes_functionOf {kind : ExportKind}
    (h : functionOf s t (t.exportOf kind) = .ok f) {header : String} :
    header ∈ f.includes ↔ s.MentionsHeader (t.spelledTypes kind) header := by
  cases kind with
  | member m => exact mem_includes_memberFunction h
  | arrayAccess i step => exact mem_includes_arrayFunction h
  | create | destroy | setEventCallback | setTrampolineLocator | setManagedHandle =>
    cases h
    simp [Function.includes, self, Declared.plain, ApiType.spelledTypes, Schema.MentionsHeader]

end Shim

/-- A member of the class mentions the other in its signature. -/
def Schema.Mentions (s : Schema) (t u : ApiType) : Prop :=
  ∃ m ∈ t.members, ∃ type ∈ (t.signature m).types, s.mentionedClass? type = some u

theorem Schema.Mentions.mem_classes {u : ApiType} (h : s.Mentions t u) : u ∈ s.classes := by
  obtain ⟨_, _, _, _, mentioned⟩ := h
  exact mem_classes_of_mentioned mentioned

namespace Shim

theorem exists_spelledTypes_iff {header : String} :
    (∃ kind ∈ s.exportKinds t, s.MentionsHeader (t.spelledTypes kind) header) ↔
      ∃ u, s.Mentions t u ∧ header = u.header := by
  constructor
  · rintro ⟨kind, mem, type, htype, u, mentioned, eq⟩
    cases kind with
    | member m =>
      exact ⟨u, ⟨m, (Schema.mem_exportKinds_member.1 mem).1, type, htype, mentioned⟩, eq⟩
    | arrayAccess i step =>
      cases step with
      | itemAt =>
        obtain rfl := List.mem_singleton.1 htype
        have hm := (Schema.mem_exportKinds_arrayAccess.1 mem).1
        exact ⟨u, ⟨.getter i, hm, _, List.mem_cons_self, mentioned⟩, eq⟩
      | openArray | countItems | closeArray => cases htype
    | create | destroy | setEventCallback | setTrampolineLocator | setManagedHandle => cases htype
  · rintro ⟨u, ⟨m, hm, type, htype, mentioned⟩, eq⟩
    cases stepped : t.isSteppedGetter m with
    | false =>
      exact ⟨.member m, Schema.mem_exportKinds_member.2 ⟨hm, stepped⟩, type, htype, u, mentioned, eq⟩
    | true =>
      cases m with
      | getter i =>
        refine ⟨.arrayAccess i .itemAt, Schema.mem_exportKinds_arrayAccess.2 ⟨hm, stepped⟩, type, ?_,
          u, mentioned, eq⟩
        exact htype
      | setter i | method i => cases stepped

section Includes

variable (exports_ok : ExportTable.build s t = .ok exports) {shim : Shim}
  (h : ofClass s t exports = .ok shim)
include exports_ok h

/-- For its signatures, a shim includes the headers of the classes that its members mention, but not
the header of its own class again. -/
theorem mem_includes_ofClass {header : String} :
    header ∈ shim.includes.entries ↔
      (∃ u, s.Mentions t u ∧ header = u.header) ∧ header ≠ t.header := by
  have own : shim.type = t := by
    obtain ⟨_, _, rfl⟩ := map_eq_ok.1 h
    rfl
  have empty : header ∉ IncludeSet.empty.entries := List.not_mem_nil
  rw [includes, IncludeSet.mem_remove, IncludeSet.ofList, mem_insertAll, or_iff_right empty, own,
    List.mem_flatMap, ← exists_spelledTypes_iff]
  refine and_congr_left' ⟨?_, ?_⟩
  · rintro ⟨f, hf, mem⟩
    obtain ⟨kind, hkind, ok⟩ := exists_kind exports_ok h hf
    exact ⟨kind, hkind, (mem_includes_functionOf ok).1 mem⟩
  · rintro ⟨kind, hkind, mentions⟩
    obtain ⟨f, hf, ok⟩ := exists_function exports_ok h hkind
    exact ⟨f, hf, (mem_includes_functionOf ok).2 mentions⟩

theorem exists_class_of_includes :
    ∀ header ∈ shim.includes.entries, ∃ u ∈ s.classes, header = u.header := by
  intro header mem
  obtain ⟨⟨u, mentions, eq⟩, _⟩ := (mem_includes_ofClass exports_ok h).1 mem
  exact ⟨u, mentions.mem_classes, eq⟩

end Includes

end Shim

end InteropGen
