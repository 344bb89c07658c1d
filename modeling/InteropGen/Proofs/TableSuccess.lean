import InteropGen.Proofs.DeclaredNames
import InteropGen.Proofs.Exports

set_option autoImplicit false

/-!
# When the tables of a class can be built

An export table needs unique names and members that hand no array over in one piece; a slot table
needs signatures without arrays.  The names of slots are unique when those of the exports are.
-/

namespace InteropGen

variable {s : Schema} {t : ApiType} {m : Member}

namespace ApiType

/-- The member takes no array by assignment and gives none back from a method. -/
def IsExportable (t : ApiType) : Member → Prop
  | .getter _ => True
  | .setter i => (t.property i).type.isArray = false
  | .method i => (t.method i).returns.isArray = false

theorem refusal?_memberKinds :
    (∀ kind ∈ t.memberKinds m, t.refusal? kind = none) ↔ t.IsExportable m := by
  cases m with
  | getter i =>
    refine iff_of_true (fun kind mem => ?_) trivial
    rw [memberKinds] at mem
    split at mem
    · obtain ⟨step, _, rfl⟩ := List.mem_map.1 mem
      rfl
    · rw [List.mem_singleton.1 mem]
      rfl
  | setter i => simp [memberKinds, refusal?, IsExportable]
  | method i => simp [memberKinds, refusal?, IsExportable]

theorem IsArrayFree.memberKinds (h : t.IsArrayFree m) : t.memberKinds m = [.member m] := by
  cases m with
  | getter i =>
    have single : (t.property i).type.isArray = false := h _ List.mem_cons_self
    simp only [ApiType.memberKinds, single]
    rfl
  | setter i => rfl
  | method i => rfl

theorem nameOf_members : (t.members.map ExportKind.member).map t.nameOf =
    (t.members.map fun m => (t.signature m).name).map t.qualify := by
  rw [List.map_map, List.map_map]
  rfl

end ApiType

/-- Where no array occurs, each member has one export. -/
theorem exportKinds_eq (free : ∀ m ∈ t.members, t.IsArrayFree m) : s.exportKinds t =
    t.lifecycleKinds ++ t.members.map .member ++ s.hookKinds t := by
  have single : t.members.flatMap t.memberKinds = t.members.map ExportKind.member := by
    rw [List.map_eq_flatMap]
    exact List.flatMap_congr fun m hm => (free m hm).memberKinds
  rw [Schema.exportKinds, single]

/-- What a type exports is refused only where one of its members is. -/
theorem refusal?_exportKinds : (∀ kind ∈ s.exportKinds t, t.refusal? kind = none) ↔
    ∀ m ∈ t.members, t.IsExportable m := by
  simp only [Schema.exportKinds, List.forall_mem_append, List.mem_flatMap, forall_exists_index,
    and_imp, ← ApiType.refusal?_memberKinds]
  constructor
  · rintro ⟨⟨_, members⟩, _⟩ m hm kind hkind
    exact members kind m hm hkind
  · intro members
    exact ⟨⟨refusal?_lifecycleKinds, fun kind m hm => members m hm kind⟩, refusal?_hookKinds⟩

theorem ExportTable.succeeds_build_iff :
    Succeeds (build s t) ↔
      (∀ m ∈ t.members, t.IsExportable m) ∧ ((s.exportKinds t).map t.nameOf).Nodup := by
  simp only [Succeeds, build_eq_ok, refusal?_exportKinds, exists_and_left, exists_eq, and_true]

theorem ApiType.succeeds_slotTable
    (free : t.managedServer = true → ∀ m ∈ t.members, t.IsArrayFree m)
    (distinct : ((s.exportKinds t).map t.nameOf).Nodup) : Succeeds t.slotTable := by
  unfold slotTable
  split
  · rename_i server
    refine Succeeds.map ⟨_, SlotTable.derive_eq_ok.2 ⟨free server, ?_, rfl⟩⟩ _
    -- Without arrays, each member has one export, and its slot is named like it.
    have sub : List.Sublist (t.members.map ExportKind.member) (s.exportKinds t) := by
      rw [exportKinds_eq (free server)]
      exact (List.sublist_append_right _ _).trans (List.sublist_append_left _ _)
    have members := (sub.map t.nameOf).nodup distinct
    rw [nameOf_members] at members
    exact List.Nodup.of_map _ members
  · exact .ok none

end InteropGen
