import Mathlib.Data.List.Basic
import InteropGen.Proofs.JsonText
import InteropGen.Toml.Number

set_option autoImplicit false

/-!
# Whole numbers of TOML that are read back

A number and a date may begin alike, and so may a number and a fraction.  What tells them apart
stands behind the digits, so a whole number in front of a line end is none of the others.
-/

namespace InteropGen.Toml

variable {c : Char} {ds cs rest : List Char} {n : Nat} {i : Int}

section Digits

theorem isDigitOf_ten (h : c.isDigit = true) : isDigitOf 10 c = true := by
  have value : Json.hexValue c = some (c.toNat - 48) := by rw [Json.hexValue, if_pos h]
  have small : c.toNat ≤ 57 := by
    simp only [Char.isDigit, Bool.and_eq_true, decide_eq_true_eq] at h
    exact h.2
  rw [isDigitOf, value]
  exact decide_eq_true (by omega)

theorem valueOf_ten (digits : ∀ d ∈ ds, d.isDigit = true) : valueOf 10 ds = Json.digitValue ds := by
  have fold (start : Nat) :
      ds.foldl (fun n d => n * 10 + (Json.hexValue d).getD 0) start =
        ds.foldl (fun n d => n * 10 + (d.toNat - 48)) start := by
    refine List.foldl_ext _ _ start fun n d hd => ?_
    rw [Json.hexValue, if_pos (digits d hd), Option.getD_some]
  exact fold 0

theorem digitRun_append (digits : ∀ d ∈ ds, d.isDigit = true) (rest : List Char) :
    digitRun 10 (ds ++ '\n' :: rest) = (ds, '\n' :: rest) := by
  induction ds with
  | nil =>
    rw [List.nil_append, digitRun, if_neg (by decide)]
    exact fun _ _ h => absurd h (by decide)
  | cons d ds ih =>
    obtain ⟨digit, more⟩ := List.forall_mem_cons.1 digits
    rw [List.cons_append, digitRun, if_pos (isDigitOf_ten digit), ih more]
    rintro _ _ rfl
    exact absurd digit (by decide)

theorem isDigit_toDigits : ∀ d ∈ Nat.toDigits 10 n, d.isDigit = true := fun _ hd =>
  Nat.isDigit_of_mem_toDigits (by omega) (Nat.le_refl 10) hd

theorem wholeDigits_toDigits (n : Nat) :
    wholeDigits (Nat.toDigits 10 n ++ '\n' :: rest) = some (Nat.toDigits 10 n, '\n' :: rest) := by
  rcases Nat.eq_zero_or_pos n with rfl | pos
  · rfl
  · obtain ⟨d, ds, eq, nonzero⟩ := Json.exists_toDigits pos
    have digits : ∀ e ∈ d :: ds, e.isDigit = true := eq ▸ isDigit_toDigits
    have run := digitRun_append digits rest
    rw [List.cons_append] at run
    rw [eq, List.cons_append, wholeDigits, Toml.digits,
      if_pos (isDigitOf_ten (digits d List.mem_cons_self)), run]
    exact fun _ h => nonzero (List.cons.inj h).1

theorem valueOf_toDigits (n : Nat) : valueOf 10 (Nat.toDigits 10 n) = n :=
  (valueOf_ten isDigit_toDigits).trans (Json.digitValue_toDigits n)

end Digits

section Signs

theorem exists_takeSign (i : Int) (rest : List Char) : ∃ (negative : Bool) (n : Nat),
    (if negative then -(n : Int) else n) = i ∧
      (toString i).toList = (if negative then ['-'] else []) ++ Nat.toDigits 10 n ∧
      takeSign ((toString i).toList ++ rest) = (negative, Nat.toDigits 10 n ++ rest) := by
  cases i with
  | ofNat n =>
    have digits : (toString (Int.ofNat n)).toList = Nat.toDigits 10 n := Nat.toList_repr
    refine ⟨false, n, rfl, digits, ?_⟩
    rw [digits]
    cases eq : Nat.toDigits 10 n with
    | nil => exact absurd eq Nat.toDigits_ne_nil
    | cons d ds =>
      have digit : d.isDigit = true := isDigit_toDigits d (eq ▸ List.mem_cons_self)
      have unsigned : d ≠ '-' ∧ d ≠ '+' := by
        constructor <;> rintro rfl <;> exact absurd digit (by decide)
      rw [List.cons_append, takeSign]
      · exact fun _ h => unsigned.1 (List.cons.inj h).1
      · exact fun _ h => unsigned.2 (List.cons.inj h).1
  | negSucc n =>
    have signed : (toString (Int.negSucc n)).toList = '-' :: Nat.toDigits 10 (n + 1) := by
      change ("-" ++ (n + 1).repr).toList = _
      rw [String.toList_append, Nat.toList_repr]
      rfl
    refine ⟨true, n + 1, rfl, signed, ?_⟩
    rw [signed]
    rfl

end Signs

section Moments

/-- A date or a time begins with digits and a mark behind them. -/
def BeginsMoment (cs : List Char) : Prop :=
  ∃ (k : Nat) (mark : Char) (rest : List Char), 0 < k ∧ (mark = '-' ∨ mark = ':') ∧
    (∀ d ∈ cs.take k, d.isDigit = true) ∧ cs.drop k = mark :: rest

theorem fixedDigits_eq_some {k : Nat} (h : fixedDigits k cs = some (n, rest)) :
    (∀ d ∈ cs.take k, d.isDigit = true) ∧ cs.drop k = rest := by
  rw [fixedDigits] at h
  split at h
  · rename_i digits
    cases h
    exact ⟨List.all_eq_true.1 digits.2, rfl⟩
  · cases h

theorem expect_eq_some {cs : List Char} (h : expect c cs = some rest) : cs = c :: rest := by
  cases cs with
  | nil => cases h
  | cons d cs =>
    rw [expect] at h
    split at h
    · rename_i same
      cases h
      rw [same]
    · cases h

theorem beginsMoment_of_skipDate (h : skipDate cs = some rest) : BeginsMoment cs := by
  obtain ⟨⟨year, behind⟩, hyear, h⟩ := Option.bind_eq_some_iff.1 h
  obtain ⟨month, hmark, _⟩ := Option.bind_eq_some_iff.1 h
  obtain ⟨digits, dropped⟩ := fixedDigits_eq_some hyear
  exact ⟨4, '-', month, by omega, .inl rfl, digits, dropped.trans (expect_eq_some hmark)⟩

theorem beginsMoment_of_skipTime (h : skipTime cs = some rest) : BeginsMoment cs := by
  obtain ⟨⟨hour, behind⟩, hhour, h⟩ := Option.bind_eq_some_iff.1 h
  obtain ⟨minute, hmark, _⟩ := Option.bind_eq_some_iff.1 h
  obtain ⟨⟨hour', behind'⟩, fixed, ranged⟩ := Option.bind_eq_some_iff.1 hhour
  obtain ⟨digits, dropped⟩ := fixedDigits_eq_some fixed
  have same : behind' = behind := by
    dsimp only at ranged
    split at ranged
    · cases ranged
      rfl
    · cases ranged
  exact ⟨2, ':', minute, by omega, .inr rfl, digits,
    (dropped.trans same).trans (expect_eq_some hmark)⟩

theorem skipMoment_eq_none (h : ¬ BeginsMoment cs) : skipMoment cs = none := by
  have date : skipDate cs = none := by
    cases eq : skipDate cs with
    | none => rfl
    | some rest => exact absurd (beginsMoment_of_skipDate eq) h
  have time : skipTime cs = none := by
    cases eq : skipTime cs with
    | none => rfl
    | some rest => exact absurd (beginsMoment_of_skipTime eq) h
  rw [skipMoment, date]
  exact time

theorem not_beginsMoment_digits (digits : ∀ d ∈ ds, d.isDigit = true) :
    ¬ BeginsMoment (ds ++ '\n' :: rest) := by
  rintro ⟨k, mark, t, -, marks, taken, dropped⟩
  rcases Nat.le_total k ds.length with inside | beyond
  · -- What is behind so many of the digits is another digit or the line end.
    rw [List.drop_append_of_le_length inside] at dropped
    have other : mark.isDigit = false ∧ mark ≠ '\n' := by
      rcases marks with rfl | rfl <;> decide
    cases left : ds.drop k with
    | nil =>
      rw [left] at dropped
      exact other.2 (List.cons.inj dropped).1.symm
    | cons d _ =>
      rw [left] at dropped
      have digit := digits d (List.mem_of_mem_drop (left ▸ List.mem_cons_self))
      rw [(List.cons.inj dropped).1, other.1] at digit
      cases digit
  · rcases Nat.eq_or_lt_of_le beyond with rfl | beyond
    · rw [List.drop_left] at dropped
      rcases marks with rfl | rfl <;> cases dropped
    · have feed : '\n' ∈ (ds ++ '\n' :: rest).take k := by
        obtain ⟨j, rfl⟩ := Nat.exists_eq_add_of_lt beyond
        rw [Nat.add_assoc, List.take_length_add_append]
        exact List.mem_append_right ds List.mem_cons_self
      exact absurd (taken _ feed) (by decide)

theorem not_beginsMoment_sign : ¬ BeginsMoment ('-' :: cs) := by
  rintro ⟨k, _, _, pos, _, taken, _⟩
  obtain ⟨j, rfl⟩ := Nat.exists_eq_succ_of_ne_zero (Nat.pos_iff_ne_zero.1 pos)
  exact absurd (taken '-' List.mem_cons_self) (by decide)

end Moments

section Numbers

theorem not_beginsMoment_toString (i : Int) :
    ¬ BeginsMoment ((toString i).toList ++ '\n' :: rest) := by
  obtain ⟨negative, n, -, chars, -⟩ := exists_takeSign i rest
  rw [chars]
  cases negative with
  | true => exact not_beginsMoment_sign
  | false => exact not_beginsMoment_digits isDigit_toDigits

theorem readFraction_toString (i : Int) :
    readFraction ((toString i).toList ++ '\n' :: rest) = none := by
  obtain ⟨negative, n, -, -, signed⟩ := exists_takeSign i ('\n' :: rest)
  rw [readFraction, signed]
  simp [wholeDigits_toDigits, exponent?]

theorem readSpecial_toString (i : Int) :
    readSpecial ((toString i).toList ++ '\n' :: rest) = none := by
  obtain ⟨negative, n, -, -, signed⟩ := exists_takeSign i ('\n' :: rest)
  rw [readSpecial, signed]
  cases eq : Nat.toDigits 10 n with
  | nil => exact absurd eq Nat.toDigits_ne_nil
  | cons d ds =>
    have digit : d.isDigit = true := isDigit_toDigits d (eq ▸ List.mem_cons_self)
    have word : d ≠ 'i' ∧ d ≠ 'n' := by
      constructor <;> rintro rfl <;> exact absurd digit (by decide)
    dsimp only
    split
    · rename_i same
      exact absurd (List.cons.inj same).1 word.1
    · rename_i same
      exact absurd (List.cons.inj same).1 word.2
    · rfl

theorem toString_ne_based {letter : Char} {t : List Char} (i : Int)
    (other : letter ≠ '\n' ∧ letter.isDigit = false) :
    (toString i).toList ++ '\n' :: rest ≠ '0' :: letter :: t := by
  obtain ⟨negative, n, -, chars, -⟩ := exists_takeSign i rest
  rw [chars]
  intro h
  cases negative with
  | true => exact absurd (List.cons.inj h).1 (by decide)
  | false =>
    have digits : ∀ d ∈ Nat.toDigits 10 n, d.isDigit = true := isDigit_toDigits
    rw [if_neg (by decide), List.nil_append] at h
    rcases eq : Nat.toDigits 10 n with _ | ⟨d, _ | ⟨e, es⟩⟩
    · exact absurd eq Nat.toDigits_ne_nil
    · rw [eq] at h
      exact other.1 (List.cons.inj (List.cons.inj h).2).1.symm
    · rw [eq] at h digits
      have digit := digits e (List.mem_cons_of_mem d List.mem_cons_self)
      rw [(List.cons.inj (List.cons.inj h).2).1, other.2] at digit
      cases digit

theorem readInteger_toString (fits : int64? i = some i) :
    readInteger ((toString i).toList ++ '\n' :: rest) = some (.integer i, '\n' :: rest) := by
  obtain ⟨negative, n, value, -, signed⟩ := exists_takeSign i ('\n' :: rest)
  rw [readInteger, signed]
  · simp [wholeDigits_toDigits, valueOf_toDigits, value, fits]
  · exact fun _ => toString_ne_based i (by decide)
  · exact fun _ => toString_ne_based i (by decide)
  · exact fun _ => toString_ne_based i (by decide)

theorem readNumber_toString (fits : int64? i = some i) :
    readNumber ((toString i).toList ++ '\n' :: rest) = some (.integer i, '\n' :: rest) := by
  rw [readNumber, skipMoment_eq_none (not_beginsMoment_toString i)]
  simp only [readFraction_toString, readSpecial_toString]
  exact readInteger_toString fits

end Numbers

end InteropGen.Toml
