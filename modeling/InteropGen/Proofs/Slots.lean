import InteropGen.Proofs.Collecting
import InteropGen.Surface.SlotTable

set_option autoImplicit false

/-!
# Slots of slot tables

A slot is determined by its member.  A table is built by one run over the members of a type, which
`derive_eq_ok` and `derive_eq_error` describe: no array may occur in a signature, and no name may
repeat.
-/

namespace InteropGen

variable {t : ApiType} {m : Member}

namespace ApiType

def IsArrayFree (t : ApiType) (m : Member) : Prop :=
  ∀ type ∈ (t.signature m).types, type.isArray = false

/-- Why there is no slot for the member: its signature has an array, the first of which is shown. -/
def slotRefusal? (t : ApiType) (m : Member) : Option Failure :=
  ((t.signature m).types.find? TypeRef.isArray).map fun array =>
    .unsupportedType .native "arrays in trampoline slots" array.display

theorem slotRefusal?_eq_none : t.slotRefusal? m = none ↔ t.IsArrayFree m := by
  simp only [slotRefusal?, Option.map_eq_none_iff, List.find?_eq_none, Bool.not_eq_true,
    IsArrayFree]

end ApiType

namespace SlotTable

def slotOf (t : ApiType) (m : Member) : Slot :=
  ⟨(t.signature m).name, m, (t.signature m).isStatic⟩

theorem isCollecting_enter (t : ApiType) : IsCollecting (enter t) (slotOf t)
    (fun m => (t.signature m).name) t.slotRefusal?
    fun m => .duplicateSlot t.name (t.signature m).name := by
  intro before m
  have taken : (before.map (slotOf t)).any (·.name = (t.signature m).name) = true ↔
      (t.signature m).name ∈ before.map fun m => (t.signature m).name := by
    rw [any_key_iff, List.map_map]
    rfl
  rw [enter, ApiType.slotRefusal?]
  cases (t.signature m).types.find? TypeRef.isArray with
  | some array => rfl
  | none =>
    rw [List.map_append, List.map_singleton]
    exact if_congr taken rfl rfl

variable {table : SlotTable}

theorem derive_eq_ok : derive t = .ok table ↔
    (∀ m ∈ t.members, t.IsArrayFree m) ∧ (t.members.map fun m => (t.signature m).name).Nodup ∧
      table = ⟨t.name, t.members.map (slotOf t)⟩ := by
  rw [derive, map_eq_ok]
  simp only [(isCollecting_enter t).foldlM_eq_ok, ApiType.slotRefusal?_eq_none]
  constructor
  · rintro ⟨_, ⟨free, distinct, rfl⟩, rfl⟩
    exact ⟨free, distinct, rfl⟩
  · rintro ⟨free, distinct, rfl⟩
    exact ⟨_, ⟨free, distinct, rfl⟩, rfl⟩

theorem derive_eq_error {e : Failure} : derive t = .error e ↔
    ∃ before m behind, t.members = before ++ m :: behind ∧ (∀ x ∈ before, t.IsArrayFree x) ∧
      (before.map fun m => (t.signature m).name).Nodup ∧
      IsRejection (fun m => (t.signature m).name) t.slotRefusal?
        (fun m => .duplicateSlot t.name (t.signature m).name) before m e := by
  rw [derive, map_eq_error, (isCollecting_enter t).foldlM_eq_error]
  simp only [ApiType.slotRefusal?_eq_none]

theorem of_derive (h : derive t = .ok table) :
    (∀ slot ∈ table.slots, slot.member ∈ t.members) ∧ ∀ m ∈ t.members, t.IsArrayFree m := by
  obtain ⟨free, _, rfl⟩ := derive_eq_ok.1 h
  exact ⟨List.forall_mem_map.2 fun m mem => mem, free⟩

theorem named_of_derive (h : derive t = .ok table) :
    ∀ slot ∈ table.slots, slot.name = (t.signature slot.member).name := by
  obtain ⟨_, _, rfl⟩ := derive_eq_ok.1 h
  exact List.forall_mem_map.2 fun m _ => rfl

end SlotTable

end InteropGen
