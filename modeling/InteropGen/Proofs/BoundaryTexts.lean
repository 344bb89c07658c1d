import Mathlib.Data.List.TakeWhile
import InteropGen.Bridge.Text

set_option autoImplicit false

/-!
# Texts that cross the boundary

No unit of a character other than the zero character is zero, so the zero that ends a text is the
first one in its buffer.  Looking for it finds the length of the whole buffer, and decoding what stands
before it gives the characters back.
-/

namespace InteropGen

namespace Text

variable {c : Char} {cs : List Char} {u v : UInt16} {us : List UInt16}

theorem toNat_char (c : Char) : c.toNat < 0xD800 ∨ 0xDFFF < c.toNat ∧ c.toNat < 0x110000 := c.valid

theorem isHighSurrogate_iff : isHighSurrogate u = true ↔ 0xD800 ≤ u.toNat ∧ u.toNat < 0xDC00 := by
  rw [isHighSurrogate, Bool.and_eq_true, decide_eq_true_eq, decide_eq_true_eq, UInt16.le_iff_toNat_le,
    UInt16.lt_iff_toNat_lt]
  rfl

theorem isLowSurrogate_iff : isLowSurrogate u = true ↔ 0xDC00 ≤ u.toNat ∧ u.toNat < 0xE000 := by
  rw [isLowSurrogate, Bool.and_eq_true, decide_eq_true_eq, decide_eq_true_eq, UInt16.le_iff_toNat_le,
    UInt16.lt_iff_toNat_lt]
  rfl

/-- A unit that is not the first half of a pair stands for a character of its own. -/
theorem ofUnits_cons (h : isHighSurrogate u = false) : ofUnits (u :: us) = loneChar u :: ofUnits us := by
  cases us with
  | nil => rfl
  | cons v us => rw [ofUnits, h, Bool.false_and, if_neg Bool.false_ne_true]

section Characters

theorem toNat_ofNat {n : Nat} (h : n.isValidChar) : (Char.ofNat n).toNat = n := by
  rw [Char.ofNat, dif_pos h]
  rfl

theorem toNat_pair (h : 0x10000 ≤ c.toNat) :
    (UInt16.ofNat (0xD800 + (c.toNat - 0x10000) / 0x400)).toNat =
        0xD800 + (c.toNat - 0x10000) / 0x400 ∧
      (UInt16.ofNat (0xDC00 + (c.toNat - 0x10000) % 0x400)).toNat =
        0xDC00 + (c.toNat - 0x10000) % 0x400 := by
  have range := toNat_char c
  exact ⟨UInt16.toNat_ofNat_of_lt' (by change _ < 65536; omega),
    UInt16.toNat_ofNat_of_lt' (by change _ < 65536; omega)⟩

theorem not_mem_charUnits (h : c ≠ '\x00') : 0 ∉ charUnits c := by
  have positive : c.toNat ≠ 0 := fun zero => h (Char.ext (UInt32.toNat_inj.1 zero))
  rw [charUnits]
  split
  · rename_i small
    intro mem
    have zero := congrArg UInt16.toNat (List.mem_singleton.1 mem)
    rw [UInt16.toNat_ofNat_of_lt' small] at zero
    exact positive zero.symm
  · rename_i large
    obtain ⟨high, low⟩ := toNat_pair (Nat.le_of_not_lt large)
    intro mem
    rcases List.mem_cons.1 mem with zero | mem
    · have zero := congrArg UInt16.toNat zero
      rw [high] at zero
      change 0 = _ at zero
      omega
    · have zero := congrArg UInt16.toNat (List.mem_singleton.1 mem)
      rw [low] at zero
      change 0 = _ at zero
      omega

theorem ofUnits_charUnits : ofUnits (charUnits c ++ us) = c :: ofUnits us := by
  have range := toNat_char c
  rw [charUnits]
  split
  · rename_i small
    have same : (UInt16.ofNat c.toNat).toNat = c.toNat := UInt16.toNat_ofNat_of_lt' small
    have high : isHighSurrogate (UInt16.ofNat c.toNat) = false := by
      rw [← Bool.not_eq_true, isHighSurrogate_iff, same]
      omega
    have low : isLowSurrogate (UInt16.ofNat c.toNat) = false := by
      rw [← Bool.not_eq_true, isLowSurrogate_iff, same]
      omega
    rw [List.singleton_append, ofUnits_cons high, loneChar, high, low, same]
    rw [Bool.or_false, if_neg Bool.false_ne_true, Char.ofNat_toNat]
  · rename_i large
    obtain ⟨high, low⟩ := toNat_pair (Nat.le_of_not_lt large)
    have first : isHighSurrogate (UInt16.ofNat (0xD800 + (c.toNat - 0x10000) / 0x400)) = true := by
      rw [isHighSurrogate_iff, high]
      omega
    have second : isLowSurrogate (UInt16.ofNat (0xDC00 + (c.toNat - 0x10000) % 0x400)) = true := by
      rw [isLowSurrogate_iff, low]
      omega
    have number : 0x10000 + (0xD800 + (c.toNat - 0x10000) / 0x400 - 0xD800) * 0x400 +
        (0xDC00 + (c.toNat - 0x10000) % 0x400 - 0xDC00) = c.toNat := by omega
    rw [List.cons_append, List.cons_append, List.nil_append, ofUnits, first, second, Bool.true_and,
      if_pos rfl, pairChar, high, low, number, Char.ofNat_toNat]

/-- Decoding is the inverse of encoding. -/
theorem ofUnits_units : ofUnits (units cs) = cs := by
  induction cs with
  | nil => rfl
  | cons c cs ih => rw [units, List.flatMap_cons, ofUnits_charUnits, ← units, ih]

end Characters

section Zeros

theorem not_mem_units (h : '\x00' ∉ cs) : 0 ∉ units cs := by
  rw [units, List.mem_flatMap]
  rintro ⟨c, hc, zero⟩
  exact not_mem_charUnits (fun nul => h (nul ▸ hc)) zero

theorem loneChar_ne (h : u ≠ 0) : loneChar u ≠ '\x00' := by
  rw [loneChar]
  split
  · decide
  · rename_i alone
    rw [Bool.or_eq_true, isHighSurrogate_iff, isLowSurrogate_iff] at alone
    have bound : u.toNat < 0x10000 := u.toNat_lt
    intro nul
    have zero : (Char.ofNat u.toNat).toNat = 0 := congrArg Char.toNat nul
    rw [toNat_ofNat (by rw [Nat.isValidChar]; omega)] at zero
    exact h (UInt16.toNat_inj.1 zero)

theorem pairChar_ne (first : isHighSurrogate u = true) (second : isLowSurrogate v = true) :
    pairChar u v ≠ '\x00' := by
  rw [isHighSurrogate_iff] at first
  rw [isLowSurrogate_iff] at second
  intro nul
  have zero : (pairChar u v).toNat = 0 := congrArg Char.toNat nul
  rw [pairChar, toNat_ofNat (by rw [Nat.isValidChar]; omega)] at zero
  omega

theorem not_mem_ofUnits (h : 0 ∉ us) : '\x00' ∉ ofUnits us := by
  fun_induction ofUnits us with
  | case1 => exact List.not_mem_nil
  | case2 u =>
    rw [List.mem_singleton]
    exact (loneChar_ne fun zero => h (zero ▸ List.mem_cons_self)).symm
  | case3 u v us pair ih =>
    rw [Bool.and_eq_true] at pair
    rw [List.mem_cons, not_or] at h ⊢
    exact ⟨(pairChar_ne pair.1 pair.2).symm, ih fun zero => h.2 (List.mem_cons_of_mem v zero)⟩
  | case4 u v us pair ih =>
    rw [List.mem_cons, not_or] at h ⊢
    exact ⟨(loneChar_ne fun zero => h.1 zero.symm).symm, ih h.2⟩

end Zeros

end Text

namespace BoundaryText

open Text

variable {s : String} {cs : List Char} {front behind : List UInt16}

def beforeZero (s : String) : String := String.ofList (s.toList.takeWhile (· ≠ '\x00'))

/-- The search for the terminator ends here: at the first zero in memory. -/
def StopsAt (memory : List UInt16) (n : Nat) : Prop :=
  memory[n]? = some 0 ∧ ∀ i < n, memory[i]? ≠ some 0

theorem untilZero_append (h : 0 ∉ front) : untilZero (front ++ 0 :: behind) = front := by
  rw [untilZero, List.takeWhile_append_of_pos, List.takeWhile_cons_of_neg (by decide),
    List.append_nil]
  exact fun u hu => decide_eq_true fun zero => h (zero ▸ hu)

theorem not_mem_untilZero (memory : List UInt16) : 0 ∉ untilZero memory := fun zero =>
  absurd (List.mem_takeWhile_imp zero) (by decide)

/-- A text is cut at the same place before and after it is encoded. -/
theorem untilZero_units :
    untilZero (Text.units cs) = Text.units (cs.takeWhile (· ≠ '\x00')) := by
  induction cs with
  | nil => rfl
  | cons c cs ih =>
    by_cases nul : c = '\x00'
    · rw [nul]
      rfl
    · have kept : ∀ u ∈ charUnits c, decide (u ≠ 0) = true :=
        fun u hu => decide_eq_true fun zero => not_mem_charUnits nul (zero ▸ hu)
      rw [List.takeWhile_cons_of_pos (by simp [nul]), Text.units, List.flatMap_cons, untilZero,
        List.takeWhile_append_of_pos kept]
      exact congrArg (charUnits c ++ ·) ih

theorem stopsAt_append (h : 0 ∉ front) {n : Nat} :
    StopsAt (front ++ 0 :: behind) n ↔ n = front.length := by
  have stop : (front ++ 0 :: behind)[front.length]? = some 0 := by simp
  have more {i : Nat} (hi : i < front.length) : (front ++ 0 :: behind)[i]? ≠ some 0 := by
    rw [List.getElem?_append_left hi]
    exact fun zero => h (List.mem_of_getElem? zero)
  constructor
  · rintro ⟨zero, first⟩
    rcases Nat.lt_trichotomy n front.length with lt | eq | gt
    · exact absurd zero (more lt)
    · exact eq
    · exact absurd stop (first _ gt)
  · rintro rfl
    exact ⟨stop, fun i hi => more hi⟩

theorem buffer_ofString (s : String) :
    (ofString s).buffer = Text.units (beforeZero s).toList ++ [0] := by
  rw [ofString, untilZero_units, beforeZero, String.toList_ofList]

theorem not_mem_beforeZero (s : String) : '\x00' ∉ (beforeZero s).toList := by
  rw [beforeZero, String.toList_ofList]
  exact fun nul => absurd (List.mem_takeWhile_imp nul) (by decide)

theorem beforeZero_of_not_mem (h : '\x00' ∉ s.toList) : beforeZero s = s := by
  have kept : ∀ c ∈ s.toList, decide (c ≠ '\x00') = true :=
    fun c hc => decide_eq_true fun nul => h (nul ▸ hc)
  rw [beforeZero, List.takeWhile_eq_self_iff.2 kept, String.ofList_toList]

theorem toString_ofString (s : String) : (ofString s).toString = beforeZero s := by
  rw [toString, units, buffer_ofString, List.dropLast_concat, ofUnits_units, String.ofList_toList]

theorem read_ofString (s : String) (behind : List UInt16) :
    read (some ((ofString s).release ++ behind)) = beforeZero s := by
  rw [release, buffer_ofString, List.append_assoc, List.singleton_append, read,
    untilZero_append (not_mem_units (not_mem_beforeZero s)), ofUnits_units, String.ofList_toList]

theorem reclaim_ofString (s : String) (behind : List UInt16) :
    reclaim ((ofString s).release ++ behind) = ofString s := by
  rw [release, reclaim, buffer_ofString, List.append_assoc, List.singleton_append,
    untilZero_append (not_mem_units (not_mem_beforeZero s)), ← buffer_ofString]

theorem stopsAt_ofString (s : String) (behind : List UInt16) (n : Nat) :
    StopsAt ((ofString s).release ++ behind) n ↔ n + 1 = (ofString s).buffer.length := by
  rw [release, buffer_ofString, List.append_assoc, List.singleton_append,
    stopsAt_append (not_mem_units (not_mem_beforeZero s)), List.length_append, List.length_singleton,
    Nat.add_right_cancel_iff]

theorem not_mem_read (memory : List UInt16) : '\x00' ∉ (read (some memory)).toList := by
  rw [read, String.toList_ofList]
  exact not_mem_ofUnits (not_mem_untilZero memory)

/-- Encoding cuts a text at its first zero and ends it with one.  Both ways to read it give that part
of the text back, and whoever takes the buffer back finds all of it, whatever stands behind it in
memory.  What is read from memory that has a terminator passes the boundary unchanged, halves of pairs
included. -/
theorem ofString_round_trip :
    (∀ s, ∃ units, (ofString s).buffer = units ++ [0] ∧ 0 ∉ units) ∧
      (∀ s behind, (ofString s).toString = beforeZero s ∧
        read (some ((ofString s).release ++ behind)) = beforeZero s) ∧
      (∀ s behind, reclaim ((ofString s).release ++ behind) = ofString s ∧
        ∀ n, StopsAt ((ofString s).release ++ behind) n ↔ n + 1 = (ofString s).buffer.length) ∧
      ∀ front behind, ∃ t, read (some (front ++ 0 :: behind)) = t ∧
        read (some (ofString t).release) = t ∧
        (ofString t).buffer = Text.units t.toList ++ [0] ∧ 0 ∉ Text.units t.toList := by
  refine ⟨fun s => ?_, fun s behind => ?_, fun s behind => ?_, fun front behind => ?_⟩
  · exact ⟨_, buffer_ofString s, not_mem_units (not_mem_beforeZero s)⟩
  · exact ⟨toString_ofString s, read_ofString s behind⟩
  · exact ⟨reclaim_ofString s behind, stopsAt_ofString s behind⟩
  · have whole := not_mem_read (front ++ 0 :: behind)
    have again := read_ofString (read (some (front ++ 0 :: behind))) []
    have buffer := buffer_ofString (read (some (front ++ 0 :: behind)))
    rw [beforeZero_of_not_mem whole] at again buffer
    rw [List.append_nil] at again
    exact ⟨_, rfl, again, buffer, not_mem_units whole⟩

/-- The second half of a pair stands alone, and the text ends in the middle of the memory. -/
example : read (some [0x41, 0xDC00, 0xD83D, 0xDE00, 0, 0x42]) = "A\uFFFD😀" := by decide

end BoundaryText

end InteropGen
