import InteropGen.Proofs.Occurrences

set_option autoImplicit false

/-!
# Replacing a word

A word is replaced wherever it begins, from left to right.  A replacement changes nothing in a text
that the word does not occur in, and if the word holds no line feed, it goes line by line.
-/

namespace InteropGen

namespace Text

/-- Leaves out some characters, and replaces the word wherever it begins behind them. -/
def replaceFrom (word new : List Char) : Nat → List Char → List Char
  | _, [] => []
  | skip + 1, _ :: cs => replaceFrom word new skip cs
  | 0, c :: cs =>
    if word.isPrefixOf (c :: cs) then new ++ replaceFrom word new (word.length - 1) cs
    else c :: replaceFrom word new 0 cs

def replaceWord (word new cs : List Char) : List Char := replaceFrom word new 0 cs

section Replacing

variable {word new cs xs ys : List Char} {c sep : Char}

theorem replaceFrom_of_begins (h : word <+: c :: cs) :
    replaceFrom word new 0 (c :: cs) = new ++ replaceFrom word new (word.length - 1) cs := by
  rw [replaceFrom, if_pos (List.isPrefixOf_iff_prefix.2 h)]

theorem replaceFrom_of_not_begins (h : ¬ word <+: c :: cs) :
    replaceFrom word new 0 (c :: cs) = c :: replaceFrom word new 0 cs := by
  rw [replaceFrom, if_neg (mt List.isPrefixOf_iff_prefix.1 h)]

theorem replaceWord_of_absent (h : ¬ word <:+: cs) : replaceWord word new cs = cs := by
  rw [replaceWord]
  induction cs with
  | nil => rfl
  | cons c cs ih =>
    rw [List.infix_cons_iff, not_or] at h
    rw [replaceFrom_of_not_begins h.1, ih h.2]

/-- A word does not run over a character that it does not hold. -/
theorem prefix_append_sep_iff (absent : sep ∉ word) : word <+: xs ++ sep :: ys ↔ word <+: xs := by
  refine ⟨fun isPrefix => ?_, fun isPrefix => isPrefix.trans (List.prefix_append _ _)⟩
  have front : xs ++ [sep] <+: xs ++ sep :: ys := ⟨ys, by simp⟩
  rcases List.prefix_or_prefix_of_prefix isPrefix front with short | long
  · rcases List.prefix_concat_iff.1 short with rfl | inside
    · exact absurd (by simp) absent
    · exact inside
  · exact absurd (long.subset (by simp)) absent

theorem replaceFrom_append_sep (ne : word ≠ []) (absent : sep ∉ word) {skip : Nat}
    (inside : skip ≤ xs.length) : replaceFrom word new skip (xs ++ sep :: ys) =
      replaceFrom word new skip xs ++ sep :: replaceFrom word new 0 ys := by
  induction xs generalizing skip with
  | nil =>
    cases Nat.le_zero.1 inside
    have outside : ¬ word <+: sep :: ys := fun isPrefix =>
      ne (List.prefix_nil.1 ((prefix_append_sep_iff absent).1 isPrefix))
    exact replaceFrom_of_not_begins outside
  | cons x xs ih =>
    cases skip with
    | succ skip => exact ih (Nat.le_of_succ_le_succ inside)
    | zero =>
      rw [List.cons_append]
      by_cases begins : word <+: x :: xs
      · have short := begins.length_le
        rw [List.length_cons] at short
        have longer : word <+: x :: (xs ++ sep :: ys) :=
          begins.trans (List.prefix_append (x :: xs) (sep :: ys))
        rw [replaceFrom_of_begins begins, replaceFrom_of_begins longer, ih (by omega),
          List.append_assoc]
      · have outside : ¬ word <+: x :: (xs ++ sep :: ys) := fun isPrefix =>
          begins ((prefix_append_sep_iff absent).1 isPrefix)
        rw [replaceFrom_of_not_begins begins, replaceFrom_of_not_begins outside,
          ih (Nat.zero_le _), List.cons_append]

theorem replaceWord_append_sep (ne : word ≠ []) (absent : sep ∉ word) :
    replaceWord word new (xs ++ sep :: ys) =
      replaceWord word new xs ++ sep :: replaceWord word new ys :=
  replaceFrom_append_sep ne absent (Nat.zero_le _)

/-- What stands in front without the first character of the word stays there. -/
theorem replaceWord_append (absent : c ∉ xs) :
    replaceWord (c :: cs) new (xs ++ ys) = xs ++ replaceWord (c :: cs) new ys := by
  induction xs with
  | nil => rfl
  | cons x xs ih =>
    obtain ⟨ne, absent⟩ := not_or.1 (mt List.mem_cons.2 absent)
    have outside : ¬ c :: cs <+: x :: (xs ++ ys) := fun isPrefix =>
      ne (List.cons_prefix_cons.1 isPrefix).1
    rw [List.cons_append, replaceWord, replaceFrom_of_not_begins outside]
    exact congrArg (x :: ·) (ih absent)

section Lengths

variable (ne : word ≠ [])
include ne

/-- A longer word in place of the word makes no text shorter. -/
theorem length_le_replaceFrom (longer : word.length ≤ new.length) (skip : Nat) :
    cs.length ≤ (replaceFrom word new skip cs).length + skip := by
  induction cs generalizing skip with
  | nil => exact Nat.zero_le _
  | cons c cs ih =>
    cases skip with
    | succ skip => exact Nat.succ_le_succ (ih skip)
    | zero =>
      by_cases begins : word <+: c :: cs
      · have rest := ih (word.length - 1)
        have some := List.length_pos_iff.2 ne
        rw [replaceFrom_of_begins begins, List.length_append, List.length_cons]
        omega
      · rw [replaceFrom_of_not_begins begins]
        exact Nat.succ_le_succ (ih 0)

theorem length_le_replaceWord (longer : word.length ≤ new.length) :
    cs.length ≤ (replaceWord word new cs).length := length_le_replaceFrom ne longer 0

theorem length_lt_replaceWord (longer : word.length < new.length) (occurs : word <:+: cs) :
    cs.length < (replaceWord word new cs).length := by
  induction cs with
  | nil => exact absurd (List.infix_nil.1 occurs) ne
  | cons c cs ih =>
    by_cases begins : word <+: c :: cs
    · have rest : cs.length ≤ (replaceFrom word new (word.length - 1) cs).length + _ :=
        length_le_replaceFrom ne (Nat.le_of_lt longer) _
      have some := List.length_pos_iff.2 ne
      rw [replaceWord, replaceFrom_of_begins begins, List.length_append, List.length_cons]
      omega
    · rw [replaceWord, replaceFrom_of_not_begins begins]
      exact Nat.succ_lt_succ (ih ((List.infix_cons_iff.1 occurs).resolve_left begins))

end Lengths

end Replacing

end Text

end InteropGen
