import Mathlib.Data.List.Forall2
import InteropGen.Failure

set_option autoImplicit false

/-!
# Successful computations

Artifacts are built by computations that stop at the first failure.  The lemmas here take a success
apart: a step followed by another, a step under a function, and a step for each entry of a list.
-/

namespace InteropGen

variable {ε ε' α β : Type}

theorem bind_eq_ok {x : Except ε α} {f : α → Except ε β} {b : β} :
    (x >>= f) = .ok b ↔ ∃ a, x = .ok a ∧ f a = .ok b := by
  cases x <;> simp [bind, Except.bind]

theorem map_eq_ok {x : Except ε α} {f : α → β} {b : β} :
    x.map f = .ok b ↔ ∃ a, x = .ok a ∧ f a = b := by
  cases x <;> simp [Except.map]

theorem map_eq_error {x : Except ε α} {f : α → β} {e : ε} : x.map f = .error e ↔ x = .error e := by
  cases x <;> simp [Except.map]

theorem mapError_eq_ok {x : Except ε α} {f : ε → ε'} {a : α} :
    x.mapError f = .ok a ↔ x = .ok a := by
  cases x <;> simp [Except.mapError]

theorem pure_eq_ok {a b : α} : (pure a : Except ε α) = .ok b ↔ a = b := by
  simp [pure, Except.pure]

theorem bind_eq_error {x : Except ε α} {f : α → Except ε β} {e : ε} :
    (x >>= f) = .error e ↔ x = .error e ∨ ∃ a, x = .ok a ∧ f a = .error e := by
  cases x <;> simp [bind, Except.bind]

/-- A function that takes a fallible step for each entry of a list, one after the other. -/
def IsStepwise (f : α → Except ε β) (g : List α → Except ε (List β)) : Prop :=
  g [] = .ok [] ∧ ∀ x xs, g (x :: xs) = (do let y ← f x; let ys ← g xs; return y :: ys)

theorem IsStepwise.forall₂ {f : α → Except ε β} {g : List α → Except ε (List β)}
    (steps : IsStepwise f g) {xs : List α} {ys : List β} (h : g xs = .ok ys) :
    List.Forall₂ (fun x y => f x = .ok y) xs ys := by
  induction xs generalizing ys with
  | nil =>
    rw [steps.1] at h
    cases h
    exact .nil
  | cons x xs ih =>
    rw [steps.2] at h
    obtain ⟨y, hy, h⟩ := bind_eq_ok.1 h
    obtain ⟨ys', hys, h⟩ := bind_eq_ok.1 h
    cases h
    exact .cons hy (ih hys)

theorem IsStepwise.error {f : α → Except ε β} {g : List α → Except ε (List β)}
    (steps : IsStepwise f g) {xs : List α} {e : ε} (h : g xs = .error e) :
    ∃ x ∈ xs, f x = .error e := by
  induction xs with
  | nil =>
    rw [steps.1] at h
    cases h
  | cons x xs ih =>
    rw [steps.2] at h
    rcases bind_eq_error.1 h with h | ⟨y, _, h⟩
    · exact ⟨x, List.mem_cons_self, h⟩
    · rcases bind_eq_error.1 h with h | ⟨ys, _, h⟩
      · obtain ⟨z, hz, h⟩ := ih h
        exact ⟨z, List.mem_cons_of_mem _ hz, h⟩
      · cases h

theorem forall₂_map_eq {γ : Type} {R : α → β → Prop} {f : α → γ} {g : β → γ} {xs : List α}
    {ys : List β} (h : List.Forall₂ R xs ys) (agree : ∀ x y, R x y → f x = g y) :
    xs.map f = ys.map g := by
  induction h with
  | nil => rfl
  | cons head _ ih => simp only [List.map_cons, agree _ _ head, ih]

theorem exists_left_of_forall₂ {R : α → β → Prop} {xs : List α} {ys : List β}
    (h : List.Forall₂ R xs ys) {y : β} (hy : y ∈ ys) : ∃ x ∈ xs, R x y := by
  induction h with
  | nil => simp at hy
  | @cons x z xs ys head _ ih =>
    rcases List.mem_cons.1 hy with rfl | hy
    · exact ⟨x, List.mem_cons_self, head⟩
    · obtain ⟨w, hw, hR⟩ := ih hy
      exact ⟨w, List.mem_cons_of_mem _ hw, hR⟩

theorem exists_right_of_forall₂ {R : α → β → Prop} {xs : List α} {ys : List β}
    (h : List.Forall₂ R xs ys) {x : α} (hx : x ∈ xs) : ∃ y ∈ ys, R x y := by
  obtain ⟨y, hy, hR⟩ := exists_left_of_forall₂ h.flip hx
  exact ⟨y, hy, hR⟩

theorem forall₂_of_both {γ : Type} {R : α → β → Prop} {S : α → γ → Prop} {T : β → γ → Prop}
    {xs : List α} {ys : List β} {zs : List γ} (hy : List.Forall₂ R xs ys)
    (hz : List.Forall₂ S xs zs) (both : ∀ x y z, R x y → S x z → T y z) :
    List.Forall₂ T ys zs := by
  induction hy generalizing zs with
  | nil =>
    cases hz
    exact .nil
  | cons head _ ih =>
    cases hz with
    | cons head' tail => exact .cons (both _ _ _ head head') (ih tail)

theorem forall₂_zip {γ : Type} {R : α → β → Prop} {S : α → γ → Prop} {xs : List α} {ys : List β}
    {zs : List γ} (hy : List.Forall₂ R xs ys) (hz : List.Forall₂ S xs zs) :
    List.Forall₂ (fun x yz => R x yz.1 ∧ S x yz.2) xs (ys.zip zs) := by
  induction hy generalizing zs with
  | nil =>
    cases hz
    exact .nil
  | cons head _ ih =>
    cases hz with
    | cons head' tail => exact .cons ⟨head, head'⟩ (ih tail)

def Succeeds (x : Except ε α) : Prop := ∃ a, x = .ok a

namespace Succeeds

theorem ok (a : α) : Succeeds (.ok a : Except ε α) := ⟨a, rfl⟩

theorem bind {x : Except ε α} {f : α → Except ε β} (hx : Succeeds x)
    (hf : ∀ a, x = .ok a → Succeeds (f a)) : Succeeds (x >>= f) := by
  obtain ⟨a, ha⟩ := hx
  obtain ⟨b, hb⟩ := hf a ha
  exact ⟨b, bind_eq_ok.2 ⟨a, ha, hb⟩⟩

theorem map {x : Except ε α} (hx : Succeeds x) (f : α → β) : Succeeds (x.map f) := by
  obtain ⟨a, ha⟩ := hx
  exact ⟨f a, map_eq_ok.2 ⟨a, ha, rfl⟩⟩

theorem mapM {f : α → Except ε β} {x : Option α} (h : ∀ a, x = some a → Succeeds (f a)) :
    Succeeds (x.mapM f) := by
  cases x with
  | none => exact .ok none
  | some a => exact (h a rfl).bind fun b _ => .ok (some b)

end Succeeds

theorem IsStepwise.succeeds {f : α → Except ε β} {g : List α → Except ε (List β)}
    (steps : IsStepwise f g) {xs : List α} (h : ∀ x ∈ xs, Succeeds (f x)) : Succeeds (g xs) := by
  induction xs with
  | nil =>
    rw [steps.1]
    exact .ok []
  | cons x xs ih =>
    rw [steps.2]
    refine (h x List.mem_cons_self).bind fun y _ => ?_
    exact (ih fun z hz => h z (List.mem_cons_of_mem x hz)).bind fun ys _ => .ok _

theorem foldlM_succeeds {f : β → α → Except ε β} {xs : List α}
    (h : ∀ x ∈ xs, ∀ acc, Succeeds (f acc x)) (acc : β) : Succeeds (xs.foldlM f acc) := by
  induction xs generalizing acc with
  | nil => exact .ok acc
  | cons x xs ih =>
    rw [List.foldlM_cons]
    refine (h x List.mem_cons_self acc).bind fun next _ => ?_
    exact ih (fun y hy => h y (List.mem_cons_of_mem x hy)) next

theorem foldlM_invariant {f : β → α → Except ε β} {I : β → Prop} {xs : List α}
    (step : ∀ x ∈ xs, ∀ acc acc', I acc → f acc x = .ok acc' → I acc') {acc acc' : β}
    (inv : I acc) (h : xs.foldlM f acc = .ok acc') : I acc' := by
  induction xs generalizing acc with
  | nil =>
    cases h
    exact inv
  | cons x xs ih =>
    rw [List.foldlM_cons] at h
    obtain ⟨next, hnext, h⟩ := bind_eq_ok.1 h
    exact ih (fun y hy => step y (List.mem_cons_of_mem x hy))
      (step x List.mem_cons_self acc next inv hnext) h

/-- A run that only adds to a list keeps an invariant and what each of its steps has reached. -/
theorem foldlM_grows {f : List β → α → Except ε (List β)} {I : List β → Prop}
    {Q : α → List β → Prop} {xs : List α}
    (mono : ∀ x acc acc', acc ⊆ acc' → Q x acc → Q x acc')
    (step : ∀ x ∈ xs, ∀ acc acc', I acc → f acc x = .ok acc' → I acc' ∧ acc ⊆ acc' ∧ Q x acc')
    {acc acc' : List β} (inv : I acc) (h : xs.foldlM f acc = .ok acc') :
    I acc' ∧ acc ⊆ acc' ∧ ∀ x ∈ xs, Q x acc' := by
  induction xs generalizing acc with
  | nil =>
    cases h
    exact ⟨inv, List.Subset.refl _, fun x hx => absurd hx List.not_mem_nil⟩
  | cons x xs ih =>
    rw [List.foldlM_cons] at h
    obtain ⟨next, hnext, h⟩ := bind_eq_ok.1 h
    obtain ⟨inv_next, grown, reached⟩ := step x List.mem_cons_self acc next inv hnext
    obtain ⟨inv_end, sub, all⟩ := ih (fun y hy => step y (List.mem_cons_of_mem x hy)) inv_next h
    refine ⟨inv_end, List.Subset.trans grown sub, List.forall_mem_cons.2 ⟨?_, all⟩⟩
    exact mono x next acc' sub reached

theorem foldlM_error {f : β → α → Except ε β} {xs : List α} {acc : β} {e : ε}
    (h : xs.foldlM f acc = .error e) : ∃ x ∈ xs, ∃ reached, f reached x = .error e := by
  induction xs generalizing acc with
  | nil => cases h
  | cons x xs ih =>
    rw [List.foldlM_cons] at h
    rcases bind_eq_error.1 h with h | ⟨next, _, h⟩
    · exact ⟨x, List.mem_cons_self, acc, h⟩
    · obtain ⟨y, hy, failed⟩ := ih h
      exact ⟨y, List.mem_cons_of_mem x hy, failed⟩

end InteropGen
