import Mathlib.Data.List.Basic

set_option autoImplicit false

/-!
# Observed runs

A machine takes inputs one after the other, and something is observed at each of them.  What the
state remembers of the observations so far is kept by every step, so that each observation can be
told from the earlier ones alone.
-/

namespace InteropGen

variable {S C M : Type} {step : C → S → M × S}

/-- What is observed at each of the inputs. -/
def observations (step : C → S → M × S) : S → List C → List M
  | _, [] => []
  | s, c :: cs => (step c s).1 :: observations step (step c s).2 cs

theorem observations_follow {Remembers : S → List M → Prop} {Follows : List M → M → Prop}
    (steps : ∀ s h c, Remembers s h →
      Follows h (step c s).1 ∧ Remembers (step c s).2 (h ++ [(step c s).1]))
    {s : S} {h before : List M} {m : M} {cs : List C} (start : Remembers s h)
    (seen : before ++ [m] <+: observations step s cs) : Follows (h ++ before) m := by
  induction cs generalizing s h before with
  | nil =>
    have empty := List.prefix_nil.1 seen
    simp at empty
  | cons c cs ih =>
    obtain ⟨follows, remembers⟩ := steps s h c start
    cases before with
    | nil =>
      obtain ⟨rfl, _⟩ := List.cons_prefix_cons.1 seen
      rwa [List.append_nil]
    | cons first before =>
      obtain ⟨rfl, tail⟩ := List.cons_prefix_cons.1 seen
      have later := ih remembers tail
      rwa [List.append_assoc] at later

end InteropGen
