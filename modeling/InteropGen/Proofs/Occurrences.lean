import InteropGen.Proofs.QuietLines

set_option autoImplicit false

/-!
# Words that do not occur

Generated text is fixed text with names in between.  A word that occurs in no name can occur in the
whole only if it occurs in the fixed text, or runs from a name into the fixed text or out of it.
Whether it can is decided on the fixed text alone: at each place where the two could overlap, they
have to differ.
-/

namespace InteropGen

namespace Text

/-- The word does not occur in the text. -/
def Avoids (word : List Char) (text : String) : Prop := ¬ word <:+: text.toList

instance (word : List Char) (text : String) : Decidable (Avoids word text) :=
  inferInstanceAs (Decidable ¬ word <:+: text.toList)

/-- The word begins nowhere in the text, not even where it would go on behind the text. -/
def beginsNowhere (word : List Char) : List Char → Bool
  | [] => true
  | c :: cs => diverges word (c :: cs) && beginsNowhere word cs

/-- The word has no characters in common with a text in the middle of which this one stands. -/
def separates (word piece : List Char) : Bool :=
  beginsNowhere word piece && beginsNowhere piece word

section Lists

variable {word piece xs ys rest tail : List Char}

theorem diverges_comm (as bs : List Char) : diverges as bs = diverges bs as := by
  induction as generalizing bs with
  | nil => cases bs <;> rfl
  | cons a as ih =>
    cases bs with
    | nil => rfl
    | cons b bs => simp only [diverges, ih bs, ne_comm]

theorem diverges_of_suffix (h : beginsNowhere piece word = true) (suffix : tail <:+ word)
    (ne : tail ≠ []) : diverges piece tail = true := by
  induction word with
  | nil => exact absurd (List.suffix_nil.1 suffix) ne
  | cons c cs ih =>
    rw [beginsNowhere, Bool.and_eq_true] at h
    rcases List.suffix_cons_iff.1 suffix with rfl | suffix
    · exact h.1
    · exact ih h.2 suffix

theorem not_infix_of_beginsNowhere (h : beginsNowhere word piece = true)
    (absent : ¬ word <:+: rest) : ¬ word <:+: piece ++ rest := by
  induction piece with
  | nil => exact absent
  | cons c cs ih =>
    rw [beginsNowhere, Bool.and_eq_true] at h
    rw [List.cons_append, List.infix_cons_iff, not_or]
    exact ⟨not_prefix_of_diverges h.1, ih h.2⟩

theorem not_infix_of_separates (h : separates word piece = true) (before : ¬ word <:+: xs)
    (behind : ¬ word <:+: rest) : ¬ word <:+: xs ++ (piece ++ rest) := by
  obtain ⟨starts, ends⟩ := Bool.and_eq_true_iff.1 h
  have inner := not_infix_of_beginsNowhere starts behind
  induction xs with
  | nil => exact inner
  | cons x xs ih =>
    rw [List.cons_append, List.infix_cons_iff, not_or]
    refine ⟨fun isPrefix => ?_, ih fun inside => before (List.infix_cons inside)⟩
    -- The word would begin in front of the fixed text, and end inside it or behind it.
    have front : x :: xs <+: x :: (xs ++ (piece ++ rest)) :=
      List.prefix_append (x :: xs) (piece ++ rest)
    rcases List.prefix_or_prefix_of_prefix isPrefix front with short | ⟨tail, rfl⟩
    · exact before short.isInfix
    · have overlap : tail <+: piece ++ rest :=
        (List.prefix_append_right_inj (x :: xs)).1 isPrefix
      by_cases ne : tail = []
      · rw [ne, List.append_nil] at before
        exact before (List.infix_refl _)
      · have apart := diverges_of_suffix ends (List.suffix_append (x :: xs) tail) ne
        rw [diverges_comm] at apart
        exact not_prefix_of_diverges apart overlap

theorem infix_of_infix_append {c : Char} {cs : List Char} (absent : c ∉ xs)
    (h : c :: cs <:+: xs ++ ys) : c :: cs <:+: ys := by
  induction xs with
  | nil => exact h
  | cons x xs ih =>
    obtain ⟨ne, absent⟩ := not_or.1 (mt List.mem_cons.2 absent)
    rw [List.cons_append, List.infix_cons_iff] at h
    rcases h with start | inside
    · exact absurd (List.cons_prefix_cons.1 start).1 ne
    · exact ih absent inside

end Lists

section Texts

variable {word cs : List Char} {a b text : String}

theorem Avoids.of_infix (h : Avoids word b) (inside : a.toList <:+: b.toList) : Avoids word a :=
  fun occurs => h (occurs.trans inside)

theorem avoids_of_not_mem {c : Char} (hc : c ∈ word) (h : c ∉ text.toList) : Avoids word text :=
  fun occurs => h (occurs.subset hc)

theorem avoids_ofList (h : beginsNowhere word cs = true) (ne : word ≠ []) :
    Avoids word (String.ofList cs) := by
  rw [Avoids, String.toList_ofList, ← List.append_nil cs]
  exact not_infix_of_beginsNowhere h fun occurs => ne (List.infix_nil.1 occurs)

theorem avoids_start (h : beginsNowhere word cs = true) (ha : Avoids word a) :
    Avoids word (String.ofList cs ++ a) := by
  rw [Avoids, String.toList_append, String.toList_ofList]
  exact not_infix_of_beginsNowhere h ha

theorem avoids_between (h : separates word cs = true) (ha : Avoids word a) (hb : Avoids word b) :
    Avoids word (a ++ (String.ofList cs ++ b)) := by
  rw [Avoids, String.toList_append, String.toList_append, String.toList_ofList]
  exact not_infix_of_separates h ha hb

end Texts

end Text

end InteropGen
