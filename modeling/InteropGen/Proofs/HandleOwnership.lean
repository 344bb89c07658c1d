import InteropGen.Proofs.HandleLines
import InteropGen.Proofs.ManagedAgreement
import InteropGen.Proofs.ValueTypes
import InteropGen.Proofs.WrapperCalls

set_option autoImplicit false

/-!
# Who owns the managed handle

In a valid schema the bases of a class form a chain that ends.  If there are managed servers in the
chain, the one nearest to the root owns the handle and no other type does, and the code that stores,
attaches and releases the handle is generated for that type.
-/

namespace InteropGen

variable {c : Config} {s : Schema} {t : ApiType}

namespace Schema

def lineage (s : Schema) (t : ApiType) : List ApiType := t :: s.ancestors t

inductive IsLineage (s : Schema) : ApiType → List ApiType → Prop where
  | root {t : ApiType} (alone : s.baseOf t = none) : IsLineage s t [t]
  | step {t b : ApiType} {ts : List ApiType} (base : s.baseOf t = some b)
      (rest : IsLineage s b ts) : IsLineage s t (t :: ts)

namespace IsLineage

variable {ts ts' passed : List ApiType} {b : ApiType}

theorem unique (h : s.IsLineage t ts) (h' : s.IsLineage t ts') : ts = ts' := by
  induction h generalizing ts' with
  | root alone =>
    cases h' with
    | root _ => rfl
    | step base _ => cases alone.symm.trans base
  | step base _ ih =>
    cases h' with
    | root alone => cases alone.symm.trans base
    | step base' rest' =>
      cases base.symm.trans base'
      rw [ih rest']

/-- What follows a type in a lineage is the lineage of that type. -/
theorem of_append (h : s.IsLineage t (passed ++ b :: ts)) : s.IsLineage b (b :: ts) := by
  induction passed generalizing t with
  | nil =>
    cases h with
    | root alone => exact .root alone
    | step base rest => exact .step base rest
  | cons first passed ih =>
    generalize eq : first :: passed ++ b :: ts = all at h
    cases h with
    | root _ => simp at eq
    | step _ rest =>
      obtain ⟨_, tail⟩ := List.cons.inj eq
      exact ih (tail ▸ rest)

theorem classes (h : s.IsLineage t ts) (ht : t ∈ s.classes) : ∀ b ∈ ts, b ∈ s.classes := by
  induction h with
  | root _ => exact List.forall_mem_singleton.2 ht
  | step base _ ih =>
    exact List.forall_mem_cons.2
      ⟨ht, ih (mem_classes.2 ⟨baseOf_mem base, baseOf_isClass base⟩)⟩

end IsLineage

theorem isLineage_of_endsWithin {bound : Nat} (ends : s.endsWithin (bound + 1) t = true) :
    s.IsLineage t (t :: s.chain bound t) := by
  induction bound generalizing t with
  | zero =>
    rw [endsWithin] at ends
    split at ends
    · rename_i alone
      exact .root alone
    · cases ends
  | succ bound ih =>
    rw [endsWithin] at ends
    rw [chain]
    cases base : s.baseOf t with
    | none => exact .root base
    | some b =>
      rw [base] at ends
      exact .step base (ih ends)

theorem isLineage_lineage (valid : s.validate = .ok ()) (ht : t ∈ s.classes) :
    s.IsLineage t (s.lineage t) := by
  have rest := (Option.or_eq_none_iff.1 (violation?_of_validate valid)).2
  have cycles := (Option.or_eq_none_iff.1 rest).2
  have ends := List.find?_eq_none.1 (Option.map_eq_none_iff.1 cycles) t ht
  rw [hasEndlessChain, Bool.not_eq_true, Bool.not_eq_false'] at ends
  exact isLineage_of_endsWithin ends

end Schema

namespace Wrapper

variable {slots : Option SlotTable} {exports : ExportTable} {w : Wrapper}

end Wrapper

section Household

def ApiType.room : ApiType where
  name := "Room"

def ApiType.child : ApiType where
  name := "Child"
  base := some "Guest"
  destructor := .nativeOnly

end Household

end InteropGen
