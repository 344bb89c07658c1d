import InteropGen.Proofs.TableSuccess
import InteropGen.Proofs.WrappedMembers

set_option autoImplicit false

/-!
# Exports as declared

`Schema.declaredExports` reads the functions of a type off its declaration: first what creates and
destroys instances, then property by property the accessors, the methods, and the hooks.  The export
table is that list, or there is none, because of the first function in the list that would hand over
an array in one piece or that has the name of an earlier one.
-/

namespace InteropGen

/-- The parameters of a function at the boundary: the receiver, one for each type, and one more for
each array. -/
def boundaryArity (isStatic : Bool) (types : List TypeRef) : Nat :=
  (if isStatic then 0 else 1) + types.length + types.countP TypeRef.isArray

namespace ApiType

variable (t : ApiType)

/-- The functions that read the property at a position: an array is opened, counted, read item by
item and closed. -/
def readerExports (p : Property) (i : Nat) : List Export :=
  if p.type.isArray then
    [⟨t.name ++ "_" ++ ("Open" ++ p.name ++ "Array"), .arrayAccess i .openArray,
        boundaryArity p.isStatic []⟩,
      ⟨t.name ++ "_" ++ ("Get" ++ p.name ++ "ItemCount"), .arrayAccess i .countItems,
        boundaryArity p.isStatic [] + 1⟩,
      ⟨t.name ++ "_" ++ ("Get" ++ p.name ++ "ItemAt"), .arrayAccess i .itemAt,
        boundaryArity p.isStatic [] + 2⟩,
      ⟨t.name ++ "_" ++ ("Close" ++ p.name ++ "Array"), .arrayAccess i .closeArray,
        boundaryArity p.isStatic [] + 1⟩]
  else [⟨t.name ++ "_" ++ ("Get" ++ p.name), .member (.getter i), boundaryArity p.isStatic []⟩]

def writerExport (p : Property) (i : Nat) : Export :=
  ⟨t.name ++ "_" ++ ("Set" ++ p.name), .member (.setter i), boundaryArity p.isStatic [p.type]⟩

def propertyExports (p : Property) (i : Nat) : List Export :=
  (if p.get then t.readerExports p i else []) ++ (if p.set then [t.writerExport p i] else [])

def methodExport (m : Method) (i : Nat) : Export :=
  ⟨t.name ++ "_" ++ m.name, .member (.method i),
    boundaryArity m.isStatic (m.parameters.map Parameter.type)⟩

end ApiType

def Schema.declaredExports (s : Schema) (t : ApiType) : List Export :=
  (if t.isCreatable then [⟨t.name ++ "_" ++ "Create", .create, 0⟩] else []) ++
    (if t.isDestroyable then [⟨t.name ++ "_" ++ "Destroy", .destroy, 1⟩] else []) ++
    (t.properties.zipIdx.flatMap fun (p, i) => t.propertyExports p i) ++
    (t.methods.zipIdx.map fun (m, i) => t.methodExport m i) ++
    (if t.hasEvents then [⟨t.name ++ "_" ++ "SetEventCallback", .setEventCallback, 1⟩] else []) ++
    (if t.managedServer then
      [⟨t.name ++ "_" ++ "SetTrampolineLocatorCallback", .setTrampolineLocator, 1⟩] else []) ++
    (if s.ownsHandle t then [⟨t.name ++ "_" ++ "SetManagedHandle", .setManagedHandle, 2⟩] else [])

variable {s : Schema} {t : ApiType}

theorem Signature.arity_eq (signature : Signature) : signature.arity =
    boundaryArity signature.isStatic (signature.parameters.map Parameter.type) := by
  obtain ⟨name, isStatic, returns, parameters⟩ := signature
  induction parameters with
  | nil => rfl
  | cons p ps ih =>
    change p.arity + arity ⟨name, isStatic, returns, ps⟩ = _
    rw [ih, Parameter.arity]
    simp only [boundaryArity, List.map_cons, List.length_cons, List.countP_cons]
    cases p.type.isArray with
    | false => simp; omega
    | true => simp; omega

namespace ApiType

theorem flatMap_members {β : Type} (t : ApiType) (f : Member → List β) : t.members.flatMap f =
    (t.properties.zipIdx.flatMap fun (p, i) => (p.accessors i).flatMap f) ++
      t.methods.zipIdx.flatMap fun (_, i) => f (.method i) := by
  have positions : List.range t.methods.length = t.methods.zipIdx.map Prod.snd := by
    rw [List.zipIdx_map_snd, List.range_eq_range']
  rw [members, List.flatMap_append, List.flatMap_assoc, positions, List.map_map, List.flatMap_map]
  rfl

section Entries

variable {p : Property} {m : Method} {i : Nat}

theorem readerExports_eq (hp : t.properties[i]? = some p) :
    t.readerExports p i = (t.memberKinds (.getter i)).map t.exportOf := by
  obtain rfl := property_eq hp
  rw [readerExports, memberKinds]
  split
  · rfl
  · rfl

theorem writerExport_eq (hp : t.properties[i]? = some p) :
    [t.writerExport p i] = (t.memberKinds (.setter i)).map t.exportOf := by
  obtain rfl := property_eq hp
  change _ = [(⟨_, _, (t.signature (.setter i)).arity⟩ : Export)]
  rw [Signature.arity_eq]
  rfl

theorem methodExport_eq (hm : t.methods[i]? = some m) :
    [t.methodExport m i] = (t.memberKinds (.method i)).map t.exportOf := by
  obtain rfl := method_eq hm
  change _ = [(⟨_, _, (t.signature (.method i)).arity⟩ : Export)]
  rw [Signature.arity_eq]
  rfl

theorem propertyExports_eq (hp : t.properties[i]? = some p) : t.propertyExports p i =
    (p.accessors i).flatMap fun m => (t.memberKinds m).map t.exportOf := by
  rw [propertyExports, readerExports_eq hp, writerExport_eq hp, Property.accessors,
    List.flatMap_append]
  cases p.get <;> cases p.set <;> simp

end Entries

end ApiType

open ApiType

/-- What is declared is what the table lists. -/
theorem declaredExports_eq : s.declaredExports t = (s.exportKinds t).map t.exportOf := by
  have members : (t.members.flatMap t.memberKinds).map t.exportOf =
      (t.properties.zipIdx.flatMap fun (p, i) => t.propertyExports p i) ++
        t.methods.zipIdx.map fun (m, i) => t.methodExport m i := by
    rw [List.map_flatMap, flatMap_members, List.map_eq_flatMap]
    congr 1
    · refine List.flatMap_congr fun (p, i) mem => (propertyExports_eq ?_).symm
      exact List.mem_zipIdx_iff_getElem?.1 mem
    · refine List.flatMap_congr fun (m, i) mem => (methodExport_eq ?_).symm
      exact List.mem_zipIdx_iff_getElem?.1 mem
  rw [Schema.exportKinds, List.map_append, List.map_append, members, ← lifecycleExports_eq,
    ← hookExports_eq]
  simp only [Schema.declaredExports, lifecycleExports, Schema.hookExports, List.append_assoc]
  rfl

/-- Only setters and methods can hand over an array in one piece. -/
theorem isExportable_iff : (∀ m ∈ t.members, t.IsExportable m) ↔
    (∀ p ∈ t.properties, p.set = true → p.type.isArray = false) ∧
      ∀ m ∈ t.methods, m.returns.isArray = false := by
  constructor
  · intro exportable
    refine ⟨fun p hp set => ?_, fun m hm => ?_⟩
    · obtain ⟨i, hi⟩ := List.mem_iff_getElem?.1 hp
      rw [← property_eq hi]
      exact exportable (.setter i) (mem_members_setter.2 ⟨p, hi, set⟩)
    · obtain ⟨i, hi⟩ := List.mem_iff_getElem?.1 hm
      rw [← method_eq hi]
      exact exportable (.method i) (mem_members_method.2 (List.getElem?_eq_some_iff.1 hi).1)
  · rintro ⟨setters, methods⟩ m hm
    cases m with
    | getter i => trivial
    | setter i =>
      obtain ⟨p, hi, set⟩ := mem_members_setter.1 hm
      rw [IsExportable, property_eq hi]
      exact setters p (List.mem_of_getElem? hi) set
    | method i =>
      have hi := List.getElem?_eq_getElem (mem_members_method.1 hm)
      rw [IsExportable, method_eq hi]
      exact methods _ (List.mem_of_getElem? hi)

namespace ExportTable

/-- The table fails at the first function, in the order of the declaration, that cannot be expressed
or that has the name of an earlier one. -/
theorem build_eq_error_iff {failure : Failure} : build s t = .error failure ↔
    ∃ before e behind, s.declaredExports t = before ++ e :: behind ∧
      (∀ x ∈ before, t.refusal? x.kind = none) ∧ (before.map Export.name).Nodup ∧
      (t.refusal? e.kind = some failure ∨ t.refusal? e.kind = none ∧
        e.name ∈ before.map Export.name ∧ failure = .duplicateSymbol t.name e.name) := by
  have names (kinds : List ExportKind) :
      (kinds.map t.exportOf).map Export.name = kinds.map t.nameOf := by
    rw [List.map_map]
    rfl
  rw [build_eq_error, declaredExports_eq]
  constructor
  · rintro ⟨before, kind, behind, eq, accepted, distinct, rejected⟩
    refine ⟨before.map t.exportOf, t.exportOf kind, behind.map t.exportOf, by simp [eq],
      List.forall_mem_map.2 accepted, ?_, ?_⟩
    · rwa [names]
    · rwa [names]
  · rintro ⟨_, _, _, listed, accepted, distinct, rejected⟩
    obtain ⟨before, _, kinds, rfl, rest⟩ := List.map_eq_append_iff.1 listed
    obtain ⟨kind, behind, rfl, rfl, rfl⟩ := List.map_eq_cons_iff.1 rest
    rw [names] at distinct rejected
    exact ⟨before, kind, behind, kinds, List.forall_mem_map.1 accepted, distinct, rejected⟩

/-- A type has an export table exactly when no array is assigned to a property or given back by a
method and no name repeats among its declared functions.  The table lists these.  Otherwise the
first of them that is refused or repeats a name is reported; that it is refused comes first. -/
theorem build_characterization (s : Schema) (t : ApiType) :
    ((∃ table, build s t = .ok table) ↔
      (∀ p ∈ t.properties, p.set = true → p.type.isArray = false) ∧
        (∀ m ∈ t.methods, m.returns.isArray = false) ∧
        ((s.declaredExports t).map Export.name).Nodup) ∧
    (∀ table, build s t = .ok table →
      table = ⟨t.name, s.declaredExports t⟩ ∧ table.names.Nodup) ∧
    ∀ failure, build s t = .error failure ↔
      ∃ before e behind, s.declaredExports t = before ++ e :: behind ∧
        (∀ x ∈ before, t.refusal? x.kind = none) ∧ (before.map Export.name).Nodup ∧
        (t.refusal? e.kind = some failure ∨ t.refusal? e.kind = none ∧
          e.name ∈ before.map Export.name ∧ failure = .duplicateSymbol t.name e.name) := by
  refine ⟨?_, fun table built => ⟨?_, nodup_of_build built⟩, fun failure => build_eq_error_iff⟩
  · have names : (s.declaredExports t).map Export.name = (s.exportKinds t).map t.nameOf := by
      rw [declaredExports_eq, List.map_map]
      rfl
    rw [names, ← and_assoc, ← isExportable_iff]
    exact succeeds_build_iff
  · obtain ⟨_, _, rfl⟩ := build_eq_ok.1 built
    rw [declaredExports_eq]

/-- What reads an array can have the name of what reads another property. -/
example : build {} { name := "Album", properties := [
      { name := "Page", type := .array .text },
      { name := "PageItemCount", type := .primitive .int }] } =
    .error (.duplicateSymbol "Album" "Album_GetPageItemCount") := by decide

end ExportTable

end InteropGen
