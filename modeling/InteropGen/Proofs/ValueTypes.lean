import InteropGen.Native.Types
import InteropGen.Managed.Types
import InteropGen.Generation.Artifacts
import InteropGen.Proofs.Steps
import InteropGen.Proofs.StructOrder
import InteropGen.Schema.Validation

set_option autoImplicit false

/-!
# When the value types can be declared

In a valid schema names are unique and the values of enums have room, so all that the value types
need is that structs hold values and can be ordered.
-/

namespace InteropGen

variable {s : Schema}

theorem firstRepeated_eq_none {seen names : List String} :
    firstRepeated seen names = none ↔ names.Nodup ∧ ∀ name ∈ names, name ∉ seen := by
  induction names generalizing seen with
  | nil => simp [firstRepeated]
  | cons name names ih =>
    rw [firstRepeated]
    split
    · rename_i known
      refine iff_of_false (by simp) fun h => h.2 name List.mem_cons_self known
    · rename_i fresh
      rw [ih, List.nodup_cons, List.forall_mem_cons]
      simp only [List.mem_cons, not_or]
      constructor
      · rintro ⟨distinct, others⟩
        exact ⟨⟨fun mem => (others name mem).1 rfl, distinct⟩, fresh, fun n hn => (others n hn).2⟩
      · rintro ⟨⟨unnamed, distinct⟩, _, others⟩
        exact ⟨distinct, fun n hn => ⟨fun eq => unnamed (eq ▸ hn), others n hn⟩⟩

namespace Schema

theorem violation?_of_validate (valid : s.validate = .ok ()) : s.violation? = none := by
  unfold validate at valid
  split at valid
  · assumption
  · cases valid

theorem nodup_names_of_validate (valid : s.validate = .ok ()) :
    (s.types.map ApiType.name).Nodup := by
  have names := (Option.or_eq_none_iff.1 (violation?_of_validate valid)).1
  exact (firstRepeated_eq_none.1 (Option.map_eq_none_iff.1 names)).1

theorem nodup_classNames_of_validate (valid : s.validate = .ok ()) :
    (s.classes.map ApiType.name).Nodup :=
  (s.nodup_names_of_validate valid).sublist (List.filter_sublist.map _)

theorem exists_values_of_validate (valid : s.validate = .ok ()) {t : ApiType} (ht : t ∈ s.enums) :
    ∃ values, t.variantValues = .ok values := by
  obtain ⟨mem, isEnum⟩ := List.mem_filter.1 ht
  have rest := (Option.or_eq_none_iff.1 (violation?_of_validate valid)).2
  have shape := List.findSome?_eq_none_iff.1 (Option.or_eq_none_iff.1 rest).1 t mem
  have variants := (Option.or_eq_none_iff.1 (Option.or_eq_none_iff.1 shape).2).2
  rw [ApiType.variantViolation?, if_pos isEnum] at variants
  cases resolved : t.variantValues with
  | ok values => exact ⟨values, rfl⟩
  | error variant =>
    rw [resolved] at variants
    cases variants

end Schema

theorem Shape.IsValue.spell {shape : Shape} (h : shape.IsValue) (dialect : Dialect)
    (position : Position) : ∃ spelling, shape.spell dialect position = .ok spelling := by
  cases shape with
  | primitive p => cases dialect <;> cases p <;> exact ⟨_, rfl⟩
  | struct _ | enum _ => cases dialect <;> exact ⟨_, rfl⟩
  | void | text _ | «class» _ _ | nullableValue _ | array _ => exact h.elim

theorem ValueStruct.succeeds_fieldOf {f : Field} (holds : s.HoldsValue f) (dialect : Dialect) :
    Succeeds (fieldOf s dialect f) := by
  obtain ⟨shape, hshape, value⟩ := holds
  obtain ⟨spelling, spelled⟩ := value.spell dialect .declaration
  refine Succeeds.bind ⟨shape, Schema.shape_eq_ok.2 hshape⟩ fun _ _ => ?_
  exact Succeeds.bind ⟨spelling, Schema.resolve_eq_ok.2 ⟨shape, hshape, spelled⟩⟩ fun _ _ => .ok _

theorem ValueStruct.succeeds_ofTypes {ts : List ApiType}
    (holds : ∀ t ∈ ts, ∀ f ∈ t.fields, s.HoldsValue f) (dialect : Dialect) :
    Succeeds (ofTypes s dialect ts) := by
  refine (ofTypes_stepwise s dialect).succeeds fun t ht => Succeeds.map ?_ _
  refine (fieldsOf_stepwise s dialect).succeeds fun f hf => ?_
  exact succeeds_fieldOf (holds t ht f hf) dialect

theorem ValueEnum.succeeds_ofTypes (valid : s.validate = .ok ()) : Succeeds (ofTypes s.enums) := by
  refine ofTypes_stepwise.succeeds fun t ht => ?_
  obtain ⟨values, eq⟩ := s.exists_values_of_validate valid ht
  rw [ofType, eq]
  exact .ok _

theorem TypeArtifacts.succeeds_build_iff (valid : s.validate = .ok ()) :
    Succeeds (build s) ↔ s.EmbedsValues := by
  have unique := s.nodup_names_of_validate valid
  constructor
  · rintro ⟨a, h⟩
    obtain ⟨native, hnative, _⟩ := bind_eq_ok.1 h
    obtain ⟨enums, _, hnative⟩ := bind_eq_ok.1 hnative
    obtain ⟨order, horder, _⟩ := bind_eq_ok.1 hnative
    exact Schema.embedsValues_of_structOrder unique horder
  · intro embeds
    have enums := ValueEnum.succeeds_ofTypes valid
    have order := (Schema.succeeds_structOrder_iff unique).2 embeds
    have structs {order : List ApiType} (h : s.structOrder = .ok order) (dialect : Dialect) :
        Succeeds (ValueStruct.ofTypes s dialect order) :=
      ValueStruct.succeeds_ofTypes (Schema.isOrdered_structOrder unique h).1.holdsValue dialect
    refine Succeeds.bind ?_ fun _ _ => Succeeds.bind ?_ fun _ _ => .ok _
    · exact enums.bind fun _ _ => order.bind fun _ h => (structs h .flat).bind fun _ _ => .ok _
    · exact order.bind fun _ h => enums.bind fun _ _ => (structs h .managed).bind fun _ _ => .ok _

end InteropGen
