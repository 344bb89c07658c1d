import InteropGen.Proofs.DeclaredExports

set_option autoImplicit false

/-!
# Slots and exports of a managed server

The slot table and the export table of a type are built apart, one over the members and one over all
functions.  Where there is a slot table, every member has one slot and one export, under the same
name and in the same order; and what can still go wrong with the exports is that a member is called
like one of the functions that no member asks for.
-/

namespace InteropGen

/-- What the functions do that no member asks for. -/
def ExportKind.general : List ExportKind :=
  [.create, .destroy, .setEventCallback, .setTrampolineLocator, .setManagedHandle]

def Property.nativeNames (p : Property) : List String :=
  (if p.get then ["Get" ++ p.name] else []) ++ if p.set then ["Set" ++ p.name] else []

/-- The names of the members on the native side. -/
def ApiType.nativeNames (t : ApiType) : List String :=
  t.properties.flatMap Property.nativeNames ++ t.methods.map Method.name

/-- What stands twice in two lists without repetition stands in both. -/
theorem mem_of_two_le_count {α : Type} [DecidableEq α] {xs ys : List α} {a : α}
    (twice : 2 ≤ xs.count a + ys.count a) (hx : xs.Nodup) (hy : ys.Nodup) : a ∈ xs ∧ a ∈ ys := by
  have once := List.nodup_iff_count_le_one.1 hx a
  have once' := List.nodup_iff_count_le_one.1 hy a
  exact ⟨List.count_pos_iff.1 (by omega), List.count_pos_iff.1 (by omega)⟩

variable {s : Schema} {t : ApiType}

open ApiType

theorem nativeNames_eq : t.nativeNames = t.members.map fun m => (t.signature m).name := by
  rw [List.map_eq_flatMap, flatMap_members, nativeNames]
  congr 1
  · conv_lhs => rw [← List.zipIdx_map_fst 0 t.properties]
    rw [List.flatMap_map]
    refine List.flatMap_congr ?_
    rintro ⟨p, i⟩ mem
    have named := property_eq (List.mem_zipIdx_iff_getElem?.1 mem)
    change p.nativeNames = (p.accessors i).flatMap _
    rw [Property.nativeNames, Property.accessors, List.flatMap_append]
    cases p.get <;> cases p.set <;> simp [signature, named]
  · conv_lhs => rw [← List.zipIdx_map_fst 0 t.methods]
    rw [List.map_map, List.map_eq_flatMap]
    refine List.flatMap_congr ?_
    rintro ⟨m, i⟩ mem
    have named := method_eq (List.mem_zipIdx_iff_getElem?.1 mem)
    simp [signature, named]

section General

theorem general_sublist (s : Schema) (t : ApiType) :
    List.Sublist (t.lifecycleKinds ++ s.hookKinds t) ExportKind.general := by
  rw [lifecycleKinds, Schema.hookKinds]
  cases t.isCreatable <;> cases t.isDestroyable <;> cases t.hasEvents <;>
    cases t.managedServer <;> cases s.ownsHandle t <;> decide

theorem qualify_injective (t : ApiType) : Function.Injective t.qualify :=
  fun _ _ same => (String.append_right_inj _).1 same

theorem nodup_general (t : ApiType) : (ExportKind.general.map t.nameOf).Nodup := by
  have names : ExportKind.general.map t.nameOf =
      ["Create", "Destroy", "SetEventCallback", "SetTrampolineLocatorCallback",
        "SetManagedHandle"].map t.qualify := rfl
  rw [names]
  exact List.Nodup.map (qualify_injective t) (by decide)

end General

section ArrayFree

variable (free : ∀ m ∈ t.members, t.IsArrayFree m)

include free

theorem isExportable_of_isArrayFree : ∀ m ∈ t.members, t.IsExportable m := by
  intro m hm
  cases m with
  | getter i => trivial
  | setter i => exact free _ hm _ (List.mem_cons_of_mem _ List.mem_cons_self)
  | method i => exact free _ hm _ List.mem_cons_self

theorem filter_exportKinds : (s.exportKinds t).filter (· ∉ ExportKind.general) =
    t.members.map .member := by
  have general := (general_sublist s t).subset
  have lifecycle : t.lifecycleKinds.filter (· ∉ ExportKind.general) = [] :=
    List.filter_eq_nil_iff.2 fun kind mem => by
      simpa using general (List.mem_append_left _ mem)
  have hooks : (s.hookKinds t).filter (· ∉ ExportKind.general) = [] :=
    List.filter_eq_nil_iff.2 fun kind mem => by
      simpa using general (List.mem_append_right _ mem)
  have members : (t.members.map ExportKind.member).filter (· ∉ ExportKind.general) =
      t.members.map .member :=
    List.filter_eq_self.2 fun kind mem => by
      obtain ⟨m, _, rfl⟩ := List.mem_map.1 mem
      simp [ExportKind.general]
  rw [exportKinds_eq free, List.filter_append, List.filter_append, lifecycle, hooks, members,
    List.nil_append, List.append_nil]

theorem exportOf_member {m : Member} (hm : m ∈ t.members) : t.exportOf (.member m) =
    ⟨t.name ++ "_" ++ (t.signature m).name, .member m,
      (if (t.signature m).isStatic then 0 else 1) + (t.signature m).parameters.length⟩ := by
  have none : ((t.signature m).parameters.map Parameter.type).countP TypeRef.isArray = 0 :=
    List.countP_eq_zero.2 fun type mem => by simp [free m hm type (List.mem_cons_of_mem _ mem)]
  have arity : (t.signature m).arity =
      (if (t.signature m).isStatic then 0 else 1) + (t.signature m).parameters.length := by
    rw [Signature.arity_eq, boundaryArity, none, List.length_map, Nat.add_zero]
  rw [← arity]
  rfl

/-- A name that repeats belongs to a member and to a function that no member asks for, since the
names of either kind are unique among themselves. -/
theorem mem_of_repeated (distinct : (t.members.map fun m => (t.signature m).name).Nodup)
    {before behind : List ExportKind} {kind : ExportKind}
    (listed : s.exportKinds t = before ++ kind :: behind)
    (repeated : t.nameOf kind ∈ before.map t.nameOf) :
    (∃ k ∈ s.exportKinds t, k ∈ ExportKind.general ∧ t.nameOf k = t.nameOf kind) ∧
      ∃ m ∈ t.members, t.nameOf kind = t.qualify (t.signature m).name := by
  have general : ((t.lifecycleKinds ++ s.hookKinds t).map t.nameOf).Nodup :=
    ((general_sublist s t).map t.nameOf).nodup (nodup_general t)
  have members : ((t.members.map ExportKind.member).map t.nameOf).Nodup := by
    rw [nameOf_members]
    exact distinct.map (qualify_injective t)
  have twice : 2 ≤ ((s.exportKinds t).map t.nameOf).count (t.nameOf kind) := by
    have once := List.count_pos_iff.2 repeated
    rw [listed, List.map_append, List.map_cons, List.count_append, List.count_cons_self]
    omega
  have parts : ((s.exportKinds t).map t.nameOf).count (t.nameOf kind) =
      ((t.lifecycleKinds ++ s.hookKinds t).map t.nameOf).count (t.nameOf kind) +
        ((t.members.map ExportKind.member).map t.nameOf).count (t.nameOf kind) := by
    rw [exportKinds_eq free]
    simp only [List.map_append, List.count_append]
    omega
  obtain ⟨one, other⟩ := mem_of_two_le_count (parts ▸ twice) general members
  obtain ⟨k, hk, same⟩ := List.mem_map.1 one
  obtain ⟨_, mem, named⟩ := List.mem_map.1 other
  obtain ⟨m, hm, rfl⟩ := List.mem_map.1 mem
  refine ⟨⟨k, ?_, (general_sublist s t).subset hk, same⟩, m, hm, named.symm⟩
  rw [exportKinds_eq free]
  rcases List.mem_append.1 hk with hk | hk
  · exact List.mem_append_left _ (List.mem_append_left _ hk)
  · exact List.mem_append_right _ hk

end ArrayFree

namespace SlotTable

variable {slots : SlotTable} {table : ExportTable} {failure : Failure}

theorem memberExports_of_derive (derived : derive t = .ok slots)
    (built : ExportTable.build s t = .ok table) :
    table.entries.filter (fun e => e.kind ∉ ExportKind.general) = slots.slots.map fun slot =>
      ⟨t.name ++ "_" ++ slot.name, .member slot.member,
        (if slot.isStatic then 0 else 1) + (t.signature slot.member).parameters.length⟩ := by
  obtain ⟨free, _, rfl⟩ := derive_eq_ok.1 derived
  rw [ExportTable.entries_of_build built, List.filter_map]
  change ((s.exportKinds t).filter (· ∉ ExportKind.general)).map t.exportOf = _
  rw [filter_exportKinds free, List.map_map, List.map_map]
  exact List.map_congr_left fun m hm => exportOf_member free hm

theorem duplicate_of_derive (derived : derive t = .ok slots)
    (failed : ExportTable.build s t = .error failure) :
    ∃ e ∈ s.declaredExports t, e.kind ∈ ExportKind.general ∧
      failure = .duplicateSymbol t.name e.name ∧
      ∃ m ∈ t.members, e.name = t.name ++ "_" ++ (t.signature m).name := by
  obtain ⟨free, distinct, _⟩ := derive_eq_ok.1 derived
  have accepted := (refusal?_exportKinds (s := s)).2 (isExportable_of_isArrayFree free)
  obtain ⟨before, kind, behind, listed, _, _, rejected⟩ := ExportTable.build_eq_error.1 failed
  rcases rejected with refused | ⟨_, repeated, rfl⟩
  · have mem : kind ∈ s.exportKinds t := by
      rw [listed]
      exact List.mem_append_right _ List.mem_cons_self
    rw [accepted kind mem] at refused
    cases refused
  · obtain ⟨⟨k, hk, general, same⟩, m, hm, named⟩ := mem_of_repeated free distinct listed repeated
    refine ⟨t.exportOf k, ?_, general,
      congrArg (Failure.duplicateSymbol t.name) same.symm, m, hm, same.trans named⟩
    rw [declaredExports_eq]
    exact List.mem_map_of_mem hk

/-- A type has a slot table exactly when no array occurs in the signature of a member and the names
of its members differ; otherwise the first member that offends against this is reported.  Where
there is a slot table, the exports of the members are listed like the slots, with the parameters of
the slot besides the receiver.  The only reason not to have an export table then is a member that is
called like a function which the type exports on its own account. -/
theorem derive_agrees (s : Schema) (t : ApiType) :
    ((∃ slots, derive t = .ok slots) ↔
      (∀ m ∈ t.members, t.IsArrayFree m) ∧ t.nativeNames.Nodup) ∧
    (∀ failure, derive t = .error failure ↔
      ∃ before m behind, t.members = before ++ m :: behind ∧ (∀ x ∈ before, t.IsArrayFree x) ∧
        (before.map fun x => (t.signature x).name).Nodup ∧
        (t.slotRefusal? m = some failure ∨ t.slotRefusal? m = none ∧
          (t.signature m).name ∈ (before.map fun x => (t.signature x).name) ∧
          failure = .duplicateSlot t.name (t.signature m).name)) ∧
    (∀ slots table, derive t = .ok slots → ExportTable.build s t = .ok table →
      table.entries.filter (fun e => e.kind ∉ ExportKind.general) = slots.slots.map fun slot =>
        ⟨t.name ++ "_" ++ slot.name, .member slot.member,
          (if slot.isStatic then 0 else 1) + (t.signature slot.member).parameters.length⟩) ∧
    ∀ slots failure, derive t = .ok slots → ExportTable.build s t = .error failure →
      ∃ e ∈ s.declaredExports t, e.kind ∈ ExportKind.general ∧
        failure = .duplicateSymbol t.name e.name ∧
        ∃ m ∈ t.members, e.name = t.name ++ "_" ++ (t.signature m).name := by
  refine ⟨?_, fun failure => derive_eq_error, fun slots table => memberExports_of_derive,
    fun slots failure => duplicate_of_derive⟩
  rw [nativeNames_eq]
  simp only [derive_eq_ok, exists_and_left, exists_eq, and_true]

end SlotTable

end InteropGen
