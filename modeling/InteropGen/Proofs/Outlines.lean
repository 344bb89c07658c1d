import InteropGen.Proofs.Planning
import InteropGen.Proofs.ValueTypes
import InteropGen.Proofs.Views

set_option autoImplicit false

/-!
# What a class reads of other types

The code of a class reads little of the types around it: their names and kinds, their bases, whether
they are abstract or managed servers, and whether they have events.  `ApiType.outline` keeps that
and forgets the rest, and each part of the code of a class is the same in any two schemas of the
same outlines.
-/

namespace InteropGen

namespace ApiType

/-- The type as the code of other classes sees it. -/
def outline (t : ApiType) : ApiType where
  name := t.name
  kind := t.kind
  isAbstract := t.isAbstract
  managedServer := t.managedServer
  base := t.base
  events := if t.hasEvents then [{ name := "" }] else []

theorem isFaithful_outline : IsFaithful outline := ⟨fun _ => rfl, fun _ => rfl⟩

theorem hasEvents_outline (t : ApiType) : t.outline.hasEvents = t.hasEvents := by
  change (!(if t.hasEvents then [({ name := "" } : Event)] else []).isEmpty) = t.hasEvents
  cases t.hasEvents <;> rfl

/-- Two types have the same outline just if they agree on all that other classes read. -/
theorem outline_eq_iff {t u : ApiType} :
    t.outline = u.outline ↔ t.name = u.name ∧ t.kind = u.kind ∧ t.isAbstract = u.isAbstract ∧
      t.managedServer = u.managedServer ∧ t.base = u.base ∧ t.hasEvents = u.hasEvents := by
  constructor
  · intro same
    have events := congrArg hasEvents same
    rw [hasEvents_outline, hasEvents_outline] at events
    simp only [outline, mk.injEq, true_and] at same
    obtain ⟨names, kinds, abstract, servers, bases, _⟩ := same
    exact ⟨names, kinds, abstract, servers, bases, events⟩
  · rintro ⟨names, kinds, abstract, servers, bases, events⟩
    rw [outline, outline, names, kinds, abstract, servers, bases, events]

end ApiType

variable {s s₁ s₂ : Schema} {t t₁ t₂ : ApiType}

namespace Schema

theorem get?_of_mem (unique : (s.types.map ApiType.name).Nodup) (ht : t ∈ s.types) :
    s.get? t.name = some t := by
  cases found : s.get? t.name with
  | none => simpa using List.find?_eq_none.1 found t ht
  | some u =>
    rw [List.inj_on_of_nodup_map unique (mem_of_get? found) ht (name_of_get? found)]

theorem isSome_get?_iff {name : String} :
    (s.get? name).isSome ↔ name ∈ s.types.map ApiType.name := by
  rw [get?, List.find?_isSome, List.mem_map]
  simp only [decide_eq_true_eq]

/-- Apart from one type, the schemas declare the same names with the same outlines. -/
def AlikeBut (t : ApiType) (s₁ s₂ : Schema) : Prop :=
  ∀ name, name ≠ t.name →
    (s₁.get? name).map ApiType.outline = (s₂.get? name).map ApiType.outline

structure SameOutlines (s₁ s₂ : Schema) : Prop extends SameThrough ApiType.outline s₁ s₂ where
  /-- A chain of bases is followed for as many steps as there are types. -/
  size : s₁.types.length = s₂.types.length

theorem length_types_eq (unique₁ : (s₁.types.map ApiType.name).Nodup)
    (unique₂ : (s₂.types.map ApiType.name).Nodup) (same : SameThrough ApiType.outline s₁ s₂) :
    s₁.types.length = s₂.types.length := by
  -- The order of the types may differ, but not the set of their names.
  have names : (s₁.types.map ApiType.name).Perm (s₂.types.map ApiType.name) := by
    rw [List.perm_ext_iff_of_nodup unique₁ unique₂]
    intro name
    rw [← isSome_get?_iff, ← isSome_get?_iff, ← Option.isSome_map (f := ApiType.outline),
      same.looked name, Option.isSome_map]
  simpa using names.length_eq

theorem sameOutlines_of_alikeBut (valid₁ : s₁.validate = .ok ()) (valid₂ : s₂.validate = .ok ())
    (ht₁ : t ∈ s₁.classes) (ht₂ : t ∈ s₂.classes) (alike : AlikeBut t s₁ s₂) :
    SameOutlines s₁ s₂ := by
  have unique₁ := s₁.nodup_names_of_validate valid₁
  have unique₂ := s₂.nodup_names_of_validate valid₂
  have same : SameThrough ApiType.outline s₁ s₂ := by
    refine ⟨ApiType.isFaithful_outline, fun name => ?_⟩
    by_cases here : name = t.name
    · rw [here, get?_of_mem unique₁ (mem_classes.1 ht₁).1,
        get?_of_mem unique₂ (mem_classes.1 ht₂).1]
    · exact alike name here
  exact ⟨same, length_types_eq unique₁ unique₂ same⟩

section Bases

variable (same : SameThrough ApiType.outline s₁ s₂)
include same

theorem map_baseOf (base : t₁.base = t₂.base) :
    (s₁.baseOf t₁).map ApiType.outline = (s₂.baseOf t₂).map ApiType.outline := by
  have kept (x : Option ApiType) : (x.filter ApiType.isClass).map ApiType.outline =
      (x.map ApiType.outline).filter ApiType.isClass := by
    rw [Option.filter_map]
    rfl
  rw [baseOf, baseOf, base, kept, kept]
  cases t₂.base with
  | none => rfl
  | some name => rw [Option.bind_some, Option.bind_some, same.looked name]

theorem map_chain (base : t₁.base = t₂.base) (bound : Nat) :
    (s₁.chain bound t₁).map ApiType.outline = (s₂.chain bound t₂).map ApiType.outline := by
  induction bound generalizing t₁ t₂ with
  | zero => rfl
  | succ bound ih =>
    have bases := map_baseOf same base
    rw [chain, chain]
    cases found : s₁.baseOf t₁ with
    | none =>
      rw [found, Option.map_none, eq_comm, Option.map_eq_none_iff] at bases
      rw [bases]
    | some b₁ =>
      rw [found, Option.map_some, eq_comm, Option.map_eq_some_iff] at bases
      obtain ⟨b₂, found₂, outlines⟩ := bases
      have above : b₁.base = b₂.base := (ApiType.outline_eq_iff.1 outlines.symm).2.2.2.2.1
      rw [found₂, List.map_cons, List.map_cons, outlines, ih above]

end Bases

theorem isSome_serverBase (s : Schema) (t : ApiType) :
    (s.serverBase t).isSome = ((s.ancestors t).map ApiType.outline).any ApiType.managedServer := by
  rw [Bool.eq_iff_iff, serverBase, List.find?_isSome, List.any_map, List.any_eq_true]
  rfl

namespace SameOutlines

variable (alike : SameOutlines s₁ s₂) (t : ApiType)
include alike

theorem isSome_serverBase_eq : (s₁.serverBase t).isSome = (s₂.serverBase t).isSome := by
  rw [isSome_serverBase, isSome_serverBase, ancestors, ancestors, alike.size,
    map_chain alike.toSameThrough rfl]

theorem hasHandle_eq : s₁.hasHandle t = s₂.hasHandle t := by
  rw [hasHandle, hasHandle, alike.isSome_serverBase_eq]

theorem ownsHandle_eq : s₁.ownsHandle t = s₂.ownsHandle t := by
  rw [ownsHandle, ownsHandle, ← Option.not_isSome, ← Option.not_isSome, alike.isSome_serverBase_eq]

/-- What is read of the base is read off its outline. -/
theorem baseOf_congr {β : Type} {g : Option ApiType → β}
    (blind : ∀ b, g (b.map ApiType.outline) = g b) : g (s₁.baseOf t) = g (s₂.baseOf t) :=
  eq_of_blind blind (map_baseOf alike.toSameThrough rfl)

theorem hookExports_eq : s₁.hookExports t = s₂.hookExports t := by
  rw [hookExports, hookExports, alike.ownsHandle_eq]

theorem exports_eq : ExportTable.build s₁ t = ExportTable.build s₂ t := by
  rw [ExportTable.build, ExportTable.build, alike.hookExports_eq]

end SameOutlines

end Schema

end InteropGen
