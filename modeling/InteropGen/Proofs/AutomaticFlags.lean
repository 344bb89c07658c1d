import Mathlib.Tactic.IntervalCases
import InteropGen.Proofs.VariantValues
import InteropGen.Schema.Validation

set_option autoImplicit false

/-!
# Automatic flags

The variants of a flags enum that declare no value double the one before.  The doubling starts anew
behind every declared value, so two runs of such variants can meet.  They do only where the value
that starts one of them occurs in the other.
-/

namespace InteropGen

namespace Variants

def automatic (vs : List Variant) (values : List (String × Int)) : List Int :=
  ((vs.zip values).filter fun x => x.1.value.isNone).map fun x => x.2.2

def Declares (vs : List Variant) (i : Nat) (e : Int) : Prop :=
  ∃ v, vs[i]? = some v ∧ v.value = some e

/-- The variant at a position declares no value and gets this one. -/
def Gets (vs : List Variant) (values : List (String × Int)) (i : Nat) (x : Int) : Prop :=
  ∃ v name, vs[i]? = some v ∧ v.value = none ∧ values[i]? = some (name, x)

inductive Starts (vs : List Variant) : Nat → Int → Prop where
  | first {v : Variant} (here : vs[0]? = some v) (own : v.value = none) : Starts vs 0 1
  | behind {i : Nat} {v : Variant} {e : Int} (declared : Declares vs i e)
      (here : vs[i + 1]? = some v) (own : v.value = none) :
      Starts vs (i + 1) (if e ≤ 0 then 1 else e * 2)

section Positions

variable {flags : Bool} {exact : Option Int} {vs : List Variant} {v : Variant} {name : String}
  {i : Nat} {x e : Int}

theorem expected_zero (here : vs[0]? = some v) :
    (expected flags exact vs)[0]? = some (v.name, next flags exact v) := by
  cases vs with
  | nil => cases here
  | cons u us =>
    cases here
    rfl

theorem expected_succ (before : (expected flags exact vs)[i]? = some (name, x))
    (here : vs[i + 1]? = some v) :
    (expected flags exact vs)[i + 1]? = some (v.name, next flags (some x) v) := by
  induction vs generalizing exact i with
  | nil => cases here
  | cons u us ih =>
    cases i with
    | zero =>
      cases before
      exact expected_zero here
    | succ i => exact ih before here

theorem exists_expected (here : vs[i]? = some v) :
    ∃ x, (expected flags exact vs)[i]? = some (v.name, x) := by
  induction i generalizing v with
  | zero => exact ⟨_, expected_zero here⟩
  | succ i ih =>
    obtain ⟨bound, _⟩ := List.getElem?_eq_some_iff.1 here
    obtain ⟨x, before⟩ := ih (List.getElem?_eq_getElem (Nat.lt_of_succ_lt bound))
    exact ⟨_, expected_succ before here⟩

theorem Declares.expected (declared : Declares vs i e) :
    ∃ name, (expected flags exact vs)[i]? = some (name, e) := by
  obtain ⟨v, here, own⟩ := declared
  refine ⟨v.name, ?_⟩
  cases i with
  | zero => rw [expected_zero here, next, own, Option.getD_some]
  | succ i =>
    obtain ⟨bound, _⟩ := List.getElem?_eq_some_iff.1 here
    obtain ⟨x, before⟩ : ∃ x, (expected flags exact vs)[i]? = some (vs[i].name, x) :=
      exists_expected (List.getElem?_eq_getElem (Nat.lt_of_succ_lt bound))
    rw [expected_succ before here, next, own, Option.getD_some]

end Positions

section Pairs

variable {vs : List Variant} {values : List (String × Int)} {i j : Nat} {x y e : Int}

theorem Gets.unique (h : Gets vs values i x) (h' : Gets vs values i y) : x = y := by
  obtain ⟨_, _, _, _, value⟩ := h
  obtain ⟨_, _, _, _, value'⟩ := h'
  cases value.symm.trans value'
  rfl

theorem Gets.ne_of_declares (h : Gets vs values i x) (declared : Declares vs j e) : i ≠ j := by
  rintro rfl
  obtain ⟨_, _, here, none, _⟩ := h
  obtain ⟨_, here', some⟩ := declared
  cases here.symm.trans here'
  cases none.symm.trans some

theorem pairwise_automatic {R : Int → Int → Prop} : (automatic vs values).Pairwise R ↔
    ∀ i j x y, i < j → Gets vs values i x → Gets vs values j y → R x y := by
  rw [automatic, List.pairwise_map, List.pairwise_filter, List.pairwise_iff_getElem]
  constructor
  · rintro pairs i j x y lt ⟨v, m, hv, none, hx⟩ ⟨w, n, hw, none', hy⟩
    have left : (vs.zip values)[i]? = some (v, (m, x)) := List.getElem?_zip_eq_some.2 ⟨hv, hx⟩
    have right : (vs.zip values)[j]? = some (w, (n, y)) := List.getElem?_zip_eq_some.2 ⟨hw, hy⟩
    obtain ⟨hi, eq⟩ := List.getElem?_eq_some_iff.1 left
    obtain ⟨hj, eq'⟩ := List.getElem?_eq_some_iff.1 right
    have related := pairs i j hi hj lt
    rw [eq, eq', none, none'] at related
    exact related rfl rfl
  · intro pairs i j hi hj lt none none'
    obtain ⟨hv, hx⟩ := List.getElem?_zip_eq_some.1 (List.getElem?_eq_getElem hi)
    obtain ⟨hw, hy⟩ := List.getElem?_zip_eq_some.1 (List.getElem?_eq_getElem hj)
    exact pairs i j _ _ lt ⟨_, _, hv, Option.isNone_iff_eq_none.1 none, hx⟩
      ⟨_, _, hw, Option.isNone_iff_eq_none.1 none', hy⟩

end Pairs

section Flags

variable {vs : List Variant} {i j : Nat} {x y e : Int}

theorem Starts.gets (h : Starts vs i x) : Gets vs (expected true none vs) i x := by
  cases h with
  | @first v here own =>
    refine ⟨v, v.name, here, own, ?_⟩
    rw [expected_zero here, next, own]
    rfl
  | @behind i v e declared here own =>
    refine ⟨v, v.name, here, own, ?_⟩
    obtain ⟨name, before⟩ := declared.expected
    rw [expected_succ before here, next, own]
    rfl

theorem Starts.pos (h : Starts vs i x) : 0 < x := by
  cases h with
  | first => exact Int.one_pos
  | behind =>
    split
    · exact Int.one_pos
    · omega

/-- A value starts a run, or follows from an automatic one. -/
theorem Gets.starts_or (h : Gets vs (expected true none vs) j y) : Starts vs j y ∨
    ∃ i x, j = i + 1 ∧ Gets vs (expected true none vs) i x ∧ y = if x ≤ 0 then 1 else x * 2 := by
  obtain ⟨v, name, here, own, value⟩ := h
  cases j with
  | zero =>
    rw [expected_zero here, next, own] at value
    cases value
    exact .inl (.first here own)
  | succ i =>
    obtain ⟨bound, _⟩ := List.getElem?_eq_some_iff.1 here
    have there := List.getElem?_eq_getElem (Nat.lt_of_succ_lt bound)
    obtain ⟨x, before⟩ : ∃ x, (expected true none vs)[i]? = some (vs[i].name, x) :=
      exists_expected there
    rw [expected_succ before here, next, own] at value
    cases value
    cases declared : vs[i].value with
    | none => exact .inr ⟨i, x, rfl, ⟨_, _, there, declared, before⟩, rfl⟩
    | some e =>
      have explicit : Declares vs i e := ⟨_, there, declared⟩
      obtain ⟨_, before'⟩ : ∃ name, (expected true none vs)[i]? = some (name, e) :=
        explicit.expected
      cases before.symm.trans before'
      exact .inl (.behind explicit here own)

theorem Gets.pos (h : Gets vs (expected true none vs) j y) : 0 < y := by
  rcases h.starts_or with start | ⟨_, _, _, _, rfl⟩
  · exact start.pos
  · split
    · exact Int.one_pos
    · omega

theorem Gets.starts_or_doubles (h : Gets vs (expected true none vs) j y) : Starts vs j y ∨
    ∃ i x, j = i + 1 ∧ Gets vs (expected true none vs) i x ∧ y = x * 2 := by
  rcases h.starts_or with start | ⟨i, x, eq, before, value⟩
  · exact .inl start
  · have pos := before.pos
    rw [if_neg (Int.not_le.2 pos)] at value
    exact .inr ⟨i, x, eq, before, value⟩

/-- Two runs that meet do so in the first value of one of them: halve a common value until it is. -/
theorem exists_starts_of_meet (lt : i < j) (hi : Gets vs (expected true none vs) i x)
    (hj : Gets vs (expected true none vs) j x) :
    ∃ k l y, k ≠ l ∧ Starts vs k y ∧ Gets vs (expected true none vs) l y := by
  induction i generalizing j x with
  | zero =>
    rcases hi.starts_or_doubles with start | ⟨_, _, eq, _⟩
    · exact ⟨0, j, x, Nat.ne_of_lt lt, start, hj⟩
    · cases eq
  | succ i ih =>
    rcases hi.starts_or_doubles with start | ⟨i', y, eq, before, rfl⟩
    · exact ⟨i + 1, j, x, Nat.ne_of_lt lt, start, hj⟩
    rcases hj.starts_or_doubles with start | ⟨j', z, rfl, before', same⟩
    · exact ⟨j, i + 1, _, Nat.ne_of_gt lt, start, hi⟩
    · cases eq
      obtain rfl : y = z := by omega
      exact ih (by omega) before before'

theorem nodup_automatic_iff : (automatic vs (expected true none vs)).Nodup ↔
    ∀ i j x, Starts vs i x → Gets vs (expected true none vs) j x → j = i := by
  rw [List.Nodup, pairwise_automatic]
  constructor
  · intro distinct i j x start gets
    rcases Nat.lt_trichotomy j i with lt | same | gt
    · exact absurd rfl (distinct j i x x lt gets start.gets)
    · exact same
    · exact absurd rfl (distinct i j x x gt start.gets gets)
  · rintro once i j x _ lt hi hj rfl
    obtain ⟨k, l, y, ne, start, gets⟩ := exists_starts_of_meet lt hi hj
    exact ne (once k l y start gets).symm

theorem Gets.lt (above : ∀ i j x e, i < j → Gets vs (expected true none vs) i x →
      Declares vs j e → x ≤ e)
    (lt : i < j) (hi : Gets vs (expected true none vs) i x)
    (hj : Gets vs (expected true none vs) j y) : x < y := by
  induction j generalizing y with
  | zero => omega
  | succ j ih =>
    have pos := hi.pos
    rcases hj.starts_or_doubles with start | ⟨k, z, eq, before, rfl⟩
    · cases start with
      | @behind _ _ e declared =>
        have ne := hi.ne_of_declares declared
        have le := above i j x e (by omega) hi declared
        rw [if_neg (by omega)]
        omega
    · cases eq
      by_cases same : i = j
      · subst same
        have := hi.unique before
        omega
      · have := ih (by omega) before
        omega

end Flags

end Variants

namespace ApiType

variable {t : ApiType} {values : List (String × Int)}

/-- The values that a flags enum gives to the variants that declare none are distinct exactly when
no value that starts the doubling is also given to another such variant.  It starts with one at the
first variant and behind a value that is not positive, and with twice the value behind another.  The
values even ascend if no declared value is below one that was given out ahead of it. -/
theorem automatic_nodup_iff (flags : t.isFlagsEnum = true) (resolved : t.variantValues = .ok values) :
    ((Variants.automatic t.variants values).Nodup ↔
      ∀ i j x, Variants.Starts t.variants i x → Variants.Gets t.variants values j x → j = i) ∧
    ((∀ i j x e, i < j → Variants.Gets t.variants values i x →
        Variants.Declares t.variants j e → x ≤ e) →
      (Variants.automatic t.variants values).Pairwise (· < ·)) := by
  obtain ⟨_, rfl⟩ := Variants.resolve_eq_ok.1 resolved
  rw [isFlagsEnum, Bool.and_eq_true] at flags
  rw [Option.map_none, flags.2]
  refine ⟨Variants.nodup_automatic_iff, fun above => Variants.pairwise_automatic.2 ?_⟩
  intro i j x y lt hi hj
  exact hi.lt above lt hj

def anchors : ApiType where
  name := "Anchors"
  kind := .enumType
  flags := true
  variants := [⟨"None", some 0⟩, ⟨"Left", none⟩, ⟨"Top", none⟩, ⟨"Both", some 3⟩, ⟨"Right", none⟩]

theorem automatic_nodup_anchors :
    anchors.isFlagsEnum = true ∧ ∃ values, anchors.variantValues = .ok values ∧
      Variants.automatic anchors.variants values = [1, 2, 6] ∧
      (Variants.automatic anchors.variants values).Pairwise (· < ·) := by
  have resolved : anchors.variantValues =
      .ok [("None", 0), ("Left", 1), ("Top", 2), ("Both", 3), ("Right", 6)] := rfl
  refine ⟨rfl, _, resolved, rfl, (automatic_nodup_iff rfl resolved).2 ?_⟩
  rintro i j x e lt ⟨v, name, here, none, value⟩ ⟨w, there, some⟩
  obtain ⟨bound, _⟩ := List.getElem?_eq_some_iff.1 there
  have bound : j < 5 := bound
  interval_cases j <;> cases there <;> cases some
  · omega
  · interval_cases i <;> cases here <;> cases none <;> cases value <;> decide

/-- Behind a declared zero the doubling starts with one again. -/
def restarted : ApiType where
  name := "F"
  kind := .enumType
  flags := true
  variants := [⟨"A", none⟩, ⟨"B", some 0⟩, ⟨"C", none⟩]

theorem automatic_restarted :
    (Schema.mk [restarted]).validate = .ok () ∧ restarted.isFlagsEnum = true ∧
      ∃ values, restarted.variantValues = .ok values ∧
        ¬ (Variants.automatic restarted.variants values).Nodup :=
  ⟨rfl, rfl, [("A", 1), ("B", 0), ("C", 1)], rfl, by decide⟩

end ApiType

end InteropGen
