import Mathlib.Data.List.Induction
import Mathlib.Data.List.Nodup
import InteropGen.Proofs.Success

set_option autoImplicit false

/-!
# Collecting under unique keys

A table is filled entry by entry: what cannot be expressed is refused, and so is a key that is
taken.  The run succeeds if nothing is refused and no key repeats, and otherwise it ends at the
first entry that is refused or repeats a key.
-/

namespace InteropGen

variable {ε α β κ : Type} [DecidableEq κ]

theorem any_key_iff {key : β → κ} {seen : List β} {k : κ} :
    (seen.any fun y => key y = k) = true ↔ k ∈ seen.map key := by
  rw [List.any_eq_true, List.mem_map]
  exact exists_congr fun y => and_congr_right fun _ => decide_eq_true_iff

/-- The step refuses an entry, finds its key taken by one of the entries before, or appends it. -/
def IsCollecting (f : List β → α → Except ε (List β)) (g : α → β) (key : α → κ)
    (refusal? : α → Option ε) (taken : α → ε) : Prop :=
  ∀ before x, f (before.map g) x =
    match refusal? x with
    | some e => .error e
    | none =>
      if key x ∈ before.map key then .error (taken x) else .ok ((before ++ [x]).map g)

/-- What is reported at `x` behind the entries `before`; that it is refused comes first. -/
def IsRejection (key : α → κ) (refusal? : α → Option ε) (taken : α → ε) (before : List α) (x : α)
    (e : ε) : Prop :=
  refusal? x = some e ∨ refusal? x = none ∧ key x ∈ before.map key ∧ e = taken x

namespace IsCollecting

variable {f : List β → α → Except ε (List β)} {g : α → β} {key : α → κ}
  {refusal? : α → Option ε} {taken : α → ε} (collecting : IsCollecting f g key refusal? taken)
  {before xs : List α} {x : α} {ys : List β} {e : ε}

include collecting

theorem step_eq_ok : f (before.map g) x = .ok ys ↔
    refusal? x = none ∧ key x ∉ before.map key ∧ ys = (before ++ [x]).map g := by
  rw [collecting]
  cases refusal? x with
  | some e => simp
  | none =>
    by_cases mem : key x ∈ before.map key
    · simp [mem]
    · simp [mem, eq_comm]

theorem step_eq_error : f (before.map g) x = .error e ↔
    IsRejection key refusal? taken before x e := by
  rw [collecting, IsRejection]
  cases refusal? x with
  | some e => simp
  | none =>
    by_cases mem : key x ∈ before.map key
    · simp [mem, eq_comm]
    · simp [mem]

/-- A run succeeds if nothing is refused and no key repeats, and then it has collected all. -/
theorem foldlM_eq_ok : xs.foldlM f [] = .ok ys ↔
    (∀ x ∈ xs, refusal? x = none) ∧ (xs.map key).Nodup ∧ ys = xs.map g := by
  -- On the end of the list, where the run takes its last step.
  induction xs using List.reverseRecOn generalizing ys with
  | nil => simp [pure, Except.pure, eq_comm]
  | append_singleton xs x ih =>
    rw [List.foldlM_append, bind_eq_ok]
    simp only [List.foldlM_cons, List.foldlM_nil, bind_pure, ih]
    constructor
    · rintro ⟨_, ⟨fine, distinct, rfl⟩, last⟩
      obtain ⟨accepted, fresh, rfl⟩ := collecting.step_eq_ok.1 last
      refine ⟨List.forall_mem_append.2 ⟨fine, List.forall_mem_singleton.2 accepted⟩, ?_, rfl⟩
      rw [List.map_append, List.map_singleton, ← List.concat_eq_append]
      exact distinct.concat fresh
    · rintro ⟨fine, distinct, rfl⟩
      obtain ⟨fine, accepted⟩ := List.forall_mem_append.1 fine
      rw [List.map_append, List.map_singleton, ← List.concat_eq_append, List.nodup_concat]
        at distinct
      have last := List.forall_mem_singleton.1 accepted
      exact ⟨_, ⟨fine, distinct.2, rfl⟩, collecting.step_eq_ok.2 ⟨last, distinct.1, rfl⟩⟩

/-- A run that fails does so at the first entry that is refused or repeats a key. -/
theorem foldlM_eq_error : xs.foldlM f [] = .error e ↔
    ∃ before x behind, xs = before ++ x :: behind ∧ (∀ y ∈ before, refusal? y = none) ∧
      (before.map key).Nodup ∧ IsRejection key refusal? taken before x e := by
  have stops (before : List α) (x : α) : (before ++ [x]).foldlM f [] = .error e ↔
      before.foldlM f [] = .error e ∨ (∀ y ∈ before, refusal? y = none) ∧
        (before.map key).Nodup ∧ IsRejection key refusal? taken before x e := by
    rw [List.foldlM_append, bind_eq_error]
    simp only [List.foldlM_cons, List.foldlM_nil, bind_pure, collecting.foldlM_eq_ok]
    refine or_congr_right ⟨?_, fun ⟨fine, distinct, rejected⟩ => ?_⟩
    · rintro ⟨_, ⟨fine, distinct, rfl⟩, last⟩
      exact ⟨fine, distinct, collecting.step_eq_error.1 last⟩
    · exact ⟨_, ⟨fine, distinct, rfl⟩, collecting.step_eq_error.2 rejected⟩
  induction xs using List.reverseRecOn with
  | nil => simp [pure, Except.pure]
  | append_singleton xs x ih =>
    refine (stops xs x).trans ⟨?_, ?_⟩
    · rintro (earlier | rest)
      · obtain ⟨before, y, behind, rfl, rest⟩ := ih.1 earlier
        exact ⟨before, y, behind ++ [x], by simp, rest⟩
      · exact ⟨xs, x, [], rfl, rest⟩
    · rintro ⟨before, y, behind, eq, rest⟩
      rcases List.eq_nil_or_concat behind with rfl | ⟨behind, last, rfl⟩
      · obtain ⟨rfl, same⟩ := List.append_inj' eq rfl
        cases same
        exact .inr rest
      · rw [List.concat_eq_append, ← List.cons_append, ← List.append_assoc] at eq
        obtain ⟨rfl, -⟩ := List.append_inj' eq rfl
        exact .inl (ih.2 ⟨before, y, behind, rfl, rest⟩)

end IsCollecting

end InteropGen
