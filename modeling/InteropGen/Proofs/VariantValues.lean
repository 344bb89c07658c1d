import Mathlib.Algebra.Ring.Int.Defs
import InteropGen.Proofs.Success
import InteropGen.ValueTypes.Declaration

set_option autoImplicit false

/-!
# Exact values of enum variants

The values are computed in words of 64 bits.  Each operation on words gives the word of the exact
result, or nothing where that does not fit; so the values are those over all integers, and the first
of these that does not fit is the one where the computation ends.
-/

namespace InteropGen

theorem fitsInt64_iff {i : Int} : fitsInt64 i = true ↔ -2 ^ 63 ≤ i ∧ i < 2 ^ 63 := by
  rw [fitsInt64, Bool.and_eq_true, decide_eq_true_eq, decide_eq_true_eq, minInt64, maxInt64]
  omega

theorem fitsInt64_toInt (w : Int64) : fitsInt64 w.toInt = true :=
  fitsInt64_iff.2 ⟨w.le_toInt, w.toInt_lt⟩

namespace Variants

section Words

variable {i : Int} {w : Int64}

theorem word?_toInt (w : Int64) : word? w.toInt = some w := by
  rw [word?, if_pos (fitsInt64_toInt w), Int64.ofInt_toInt]

theorem word?_eq_some : word? i = some w ↔ w.toInt = i := by
  constructor
  · intro h
    rw [word?] at h
    split at h
    · rename_i fits
      cases h
      obtain ⟨low, high⟩ := fitsInt64_iff.1 fits
      exact Int64.toInt_ofInt_of_le low high
    · cases h
  · rintro rfl
    exact word?_toInt w

theorem word?_eq_none : word? i = none ↔ fitsInt64 i = false := by
  rw [word?]
  cases fitsInt64 i <;> simp

/-- A word that is exact unless the flag says that it overflowed is the word of the exact result. -/
theorem checked_eq {overflows : Bool} (flag : overflows = !fitsInt64 i)
    (exact : overflows = false → w.toInt = i) :
    (if overflows then none else some w) = word? i := by
  cases overflows with
  | true =>
    have outside : fitsInt64 i = false := by simpa using flag.symm
    exact (word?_eq_none.2 outside).symm
  | false => exact (word?_eq_some.2 (exact rfl)).symm

variable (a b : Int64)

theorem plus?_eq : plus? a b = word? (a.toInt + b.toInt) := by
  refine checked_eq ?_ fun fits => ?_
  · rw [Bool.eq_iff_iff, Bool.not_eq_true', ← Bool.not_eq_true, fitsInt64_iff, BitVec.saddOverflow,
      Bool.or_eq_true, decide_eq_true_eq, decide_eq_true_eq, a.toInt_toBitVec, b.toInt_toBitVec]
    omega
  · rw [← Int64.toInt_toBitVec, Int64.toBitVec_add,
      BitVec.toInt_add_of_not_saddOverflow (ne_true_of_eq_false fits), a.toInt_toBitVec,
      b.toInt_toBitVec]

theorem times?_eq : times? a b = word? (a.toInt * b.toInt) := by
  refine checked_eq ?_ fun fits => ?_
  · rw [Bool.eq_iff_iff, Bool.not_eq_true', ← Bool.not_eq_true, fitsInt64_iff, BitVec.smulOverflow,
      Bool.or_eq_true, decide_eq_true_eq, decide_eq_true_eq, a.toInt_toBitVec, b.toInt_toBitVec]
    omega
  · rw [← Int64.toInt_toBitVec, Int64.toBitVec_mul,
      BitVec.toInt_mul_of_not_smulOverflow (ne_true_of_eq_false fits), a.toInt_toBitVec,
      b.toInt_toBitVec]

end Words

variable {flags : Bool} {previous : Option Int64} {v : Variant} {vs : List Variant}
  {values : List (String × Int)}

theorem continued?_eq (flags : Bool) (previous : Option Int64) :
    continued? flags previous = word? (continuation flags (previous.map Int64.toInt)) := by
  cases previous with
  | none => cases flags <;> rfl
  | some p =>
    cases flags with
    | false => exact plus?_eq p 1
    | true =>
      have sign : p ≤ 0 ↔ p.toInt ≤ 0 := Int64.le_iff_toInt_le
      change (if p ≤ 0 then some 1 else times? p 2) =
        word? (if p.toInt ≤ 0 then 1 else p.toInt * 2)
      by_cases low : p.toInt ≤ 0
      · rw [if_pos low, if_pos (sign.2 low)]
        rfl
      · rw [if_neg low, if_neg (mt sign.1 low)]
        exact times?_eq p 2

/-- The word of a variant is that of its exact value. -/
theorem value?_eq (flags : Bool) (previous : Option Int64) (v : Variant) :
    value? flags previous v = word? (next flags (previous.map Int64.toInt) v) := by
  rw [value?, next]
  cases v.value with
  | none => exact continued?_eq flags previous
  | some _ => rfl

theorem resolve_eq (flags : Bool) (previous : Option Int64) (vs : List Variant) :
    resolve flags previous vs =
      ((expected flags (previous.map Int64.toInt) vs).find? fun v => !fitsInt64 v.2).elim
        (.ok (expected flags (previous.map Int64.toInt) vs)) fun v => .error v.1 := by
  induction vs generalizing previous with
  | nil => rfl
  | cons v vs ih =>
    rw [resolve, value?_eq, expected]
    generalize next flags (previous.map Int64.toInt) v = value
    cases word : word? value with
    | none =>
      have outside := word?_eq_none.1 word
      rw [List.find?_cons_of_pos (by simp [outside])]
      rfl
    | some w =>
      obtain rfl := word?_eq_some.1 word
      rw [List.find?_cons_of_neg (by simp [fitsInt64_toInt])]
      dsimp only
      rw [ih, Option.map_some]
      cases List.find? _ _ <;> rfl

theorem resolve_eq_ok : resolve flags previous vs = .ok values ↔
    (∀ v ∈ expected flags (previous.map Int64.toInt) vs, fitsInt64 v.2 = true) ∧
      values = expected flags (previous.map Int64.toInt) vs := by
  rw [resolve_eq]
  cases found : List.find? _ _ with
  | none =>
    have fits := List.find?_eq_none.1 found
    simp only [Bool.not_eq_true, Bool.not_eq_false'] at fits
    rw [Option.elim_none, Except.ok.injEq]
    exact ⟨fun same => ⟨fits, same.symm⟩, fun same => same.2.symm⟩
  | some v =>
    refine iff_of_false (fun failed => by cases failed) fun fits => ?_
    have outside := List.find?_some found
    rw [fits.1 v (List.mem_of_find?_eq_some found)] at outside
    cases outside

theorem resolve_eq_error {name : String} : resolve flags previous vs = .error name ↔
    ∃ before value behind,
      expected flags (previous.map Int64.toInt) vs = before ++ (name, value) :: behind ∧
        (∀ v ∈ before, fitsInt64 v.2 = true) ∧ fitsInt64 value = false := by
  rw [resolve_eq]
  constructor
  · intro failed
    cases found : List.find? _ _ with
    | none =>
      rw [found] at failed
      cases failed
    | some v =>
      rw [found] at failed
      cases failed
      obtain ⟨outside, before, behind, eq, fits⟩ := List.find?_eq_some_iff_append.1 found
      exact ⟨before, v.2, behind, eq, by simpa using fits, by simpa using outside⟩
  · rintro ⟨before, value, behind, eq, fits, outside⟩
    have found : (expected flags (previous.map Int64.toInt) vs).find? (fun v => !fitsInt64 v.2) =
        some (name, value) :=
      List.find?_eq_some_iff_append.2
        ⟨by simpa using outside, before, behind, eq, by simpa using fits⟩
    rw [found]
    rfl

section Runs

variable {exact : Option Int} {xs ys : List Variant} {p : Int}

theorem length_expected (flags : Bool) (exact : Option Int) (xs : List Variant) :
    (expected flags exact xs).length = xs.length := by
  induction xs generalizing exact with
  | nil => rfl
  | cons v vs ih => rw [expected, List.length_cons, ih, List.length_cons]

theorem expected_append (flags : Bool) (exact : Option Int) (xs ys : List Variant) :
    expected flags exact (xs ++ ys) = expected flags exact xs ++
      expected flags (xs.foldl (fun previous v => some (next flags previous v)) exact) ys := by
  induction xs generalizing exact with
  | nil => rfl
  | cons v vs ih => rw [List.cons_append, expected, ih, expected, List.cons_append, List.foldl_cons]

/-- Variants without values of their own count up from `p`, or double it. -/
theorem expected_implicit (implicit : ∀ v ∈ xs, v.value = none) (positive : flags = true → 0 < p) :
    expected flags (some p) xs =
      xs.mapIdx fun k v => (v.name, if flags then p * 2 ^ (k + 1) else p + (k + 1)) := by
  induction xs generalizing p with
  | nil => rfl
  | cons v vs ih =>
    obtain ⟨own, implicit⟩ := List.forall_mem_cons.1 implicit
    rw [expected, List.mapIdx_cons, next, own, Option.getD_none, continuation]
    cases flags with
    | false =>
      have further (k : Nat) : p + 1 + ((k : Int) + 1) = p + (k + 1 + 1) := by omega
      rw [ih implicit fun h => by cases h]
      simp [further]
    | true =>
      have above : 0 < p := positive rfl
      have doubled (k : Nat) : p * 2 * 2 ^ (k + 1) = p * 2 ^ (k + 1 + 1) := by
        rw [Int.mul_assoc, Int.pow_succ' 2 (k + 1)]
      rw [if_pos rfl, if_neg (Int.not_le.2 above), ih implicit fun _ => by omega]
      simp [doubled]

end Runs

end Variants

theorem ValueEnum.ofType_eq_error {t : ApiType} {failure : Failure} : ofType t = .error failure ↔
    ∃ name, t.variantValues = .error name ∧
      failure = .schema (.ofViolation (.variantOverflow t.name name)) := by
  rw [ofType]
  cases t.variantValues <;> simp [eq_comm]

namespace ApiType

theorem succeeds_variantValues_iff (t : ApiType) : Succeeds t.variantValues ↔
    ∀ v ∈ Variants.expected t.flags none t.variants, fitsInt64 v.2 = true := by
  simp only [Succeeds, variantValues, Variants.resolve_eq_ok, exists_and_left, exists_eq, and_true,
    Option.map_none]

theorem variantValues_implicit {t : ApiType} {before run behind : List Variant} {v : Variant}
    {values : List (String × Int)} {p : Int}
    (variants : t.variants = before ++ v :: (run ++ behind))
    (implicit : ∀ w ∈ run, w.value = none) (positive : t.flags = true → 0 < p)
    (resolved : t.variantValues = .ok values) (value : values[before.length]? = some (v.name, p)) :
    (values.drop (before.length + 1)).take run.length =
      run.mapIdx fun k w => (w.name, if t.flags then p * 2 ^ (k + 1) else p + (k + 1)) := by
  obtain ⟨_, rfl⟩ := Variants.resolve_eq_ok.1 resolved
  rw [variants, Option.map_none, Variants.expected_append, Variants.expected] at value ⊢
  generalize Variants.next t.flags _ v = first at value ⊢
  have length := Variants.length_expected t.flags none before
  rw [← length, List.getElem?_append_right (Nat.le_refl _), Nat.sub_self] at value
  cases value
  rw [← length, Variants.expected_append, ← Variants.expected_implicit implicit positive,
    List.drop_length_add_append, List.drop_one, List.tail_cons]
  exact List.take_left' (Variants.length_expected _ _ run)

/-- The values of an enum are exact: those over all integers, in the order of the variants, if they
fit into 64 bits; otherwise the first variant whose value does not fit is named.  Behind any value,
variants without one count up, or for positive flags double. -/
theorem variantValues_exact (t : ApiType) :
    (∀ values, t.variantValues = .ok values ↔
      (∀ v ∈ Variants.expected t.flags none t.variants, fitsInt64 v.2 = true) ∧
        values = Variants.expected t.flags none t.variants) ∧
    (∀ name, t.variantValues = .error name ↔
      ∃ before value behind,
        Variants.expected t.flags none t.variants = before ++ (name, value) :: behind ∧
          (∀ v ∈ before, fitsInt64 v.2 = true) ∧ fitsInt64 value = false) ∧
    (∀ failure, ValueEnum.ofType t = .error failure ↔
      ∃ name, t.variantValues = .error name ∧ failure = .schema (.invalid
        ("Enum " ++ t.name ++ " member " ++ name ++ " overflows a 64-bit value"))) ∧
    ∀ (before run behind : List Variant) (v : Variant) (values : List (String × Int)) (p : Int),
      t.variants = before ++ v :: (run ++ behind) → (∀ w ∈ run, w.value = none) →
      (t.flags = true → 0 < p) → t.variantValues = .ok values →
      values[before.length]? = some (v.name, p) →
      (values.drop (before.length + 1)).take run.length =
        run.mapIdx fun k w => (w.name, if t.flags then p * 2 ^ (k + 1) else p + (k + 1)) := by
  refine ⟨fun _ => Variants.resolve_eq_ok, fun _ => Variants.resolve_eq_error,
    fun _ => ValueEnum.ofType_eq_error, ?_⟩
  intro before run behind v values p variants implicit positive resolved value
  exact variantValues_implicit variants implicit positive resolved value

end ApiType

end InteropGen
