import InteropGen.Proofs.Layout
import InteropGen.Proofs.Words

set_option autoImplicit false

/-!
# Lines that tell nothing

A reader of a wrapper looks for four kinds of lines: imports, labels of events, arms of slots, and
the attribute in front of the class of imports.  Every other line is quiet.  Most lines are quiet
because of the fixed text with which they begin, and some because of the character that ends them.
-/

namespace InteropGen

open Text

namespace Text

/-- The texts differ at a position that both have. -/
def diverges : List Char → List Char → Bool
  | a :: as, b :: bs => a ≠ b || diverges as bs
  | _, _ => false

theorem not_prefix_of_diverges {start line rest : List Char} (h : diverges start line = true) :
    ¬ start <+: line ++ rest := by
  induction start generalizing line with
  | nil => cases h
  | cons a start ih =>
    cases line with
    | nil => cases h
    | cons b line =>
      rw [diverges, Bool.or_eq_true] at h
      rw [List.cons_append, List.cons_prefix_cons]
      rintro ⟨rfl, tail⟩
      rcases h with h | h
      · simp at h
      · exact ih h tail

end Text

def importStart : List Char := "public static extern ".toList

def labelStart : List Char := "case NativeApi.".toList

def armStart : List Char := "NativeApi.".toList

def importsMark : String := "[SuppressUnmanagedCodeSecurity]"

/-- A line in which no reader of a wrapper finds anything. -/
structure IsQuiet (x : String) : Prop where
  oneLine : IsOneLine x
  unindented : ∀ c ∈ x.toList.head?, isBlank c = false
  notImport : ¬(importStart <+: x.toList ∧ x.toList.getLast? = some ';')
  notLabel : ¬ labelStart <+: x.toList
  notArm : ¬(armStart <+: x.toList ∧ x.toList.getLast? = some ',')
  notMark : ¬ importsMark.toList <+: x.toList

/-- Whatever begins with these characters is quiet.  The first few characters of the texts that a
reader looks for are enough to tell them apart. -/
def startsQuietly (start : List Char) : Bool :=
  diverges ['p', 'u', 'b', 'l', 'i', 'c', ' ', 's'] start && diverges ['c', 'a', 's', 'e', ' '] start &&
    diverges ['N', 'a', 't', 'i', 'v', 'e', 'A', 'p', 'i'] start && diverges ['[', 'S'] start &&
    !start.head?.any isBlank && !start.contains '\n'

section Quiet

variable {start : List Char} {rest word x : String}

theorem unindented_append (label : diverges ['c', 'a', 's', 'e', ' '] start = true)
    (unindented : start.head?.any isBlank = false) (tail : List Char) :
    ∀ c ∈ (start ++ tail).head?, isBlank c = false := by
  intro c hc
  cases start with
  | nil => cases label
  | cons d ds =>
    cases hc
    simpa using unindented

theorem not_labelStart (h : diverges ['c', 'a', 's', 'e', ' '] start = true) (tail : List Char) :
    ¬ labelStart <+: start ++ tail := fun isPrefix =>
  not_prefix_of_diverges h ((by decide : ['c', 'a', 's', 'e', ' '] <+: labelStart).trans isPrefix)

theorem not_importsMark (h : diverges ['[', 'S'] start = true) (tail : List Char) :
    ¬ importsMark.toList <+: start ++ tail := fun isPrefix =>
  not_prefix_of_diverges h ((by decide : ['[', 'S'] <+: importsMark.toList).trans isPrefix)

theorem isQuiet_start (h : startsQuietly start = true) (hr : IsOneLine rest) :
    IsQuiet (String.ofList start ++ rest) := by
  simp only [startsQuietly, Bool.and_eq_true, Bool.not_eq_true'] at h
  obtain ⟨⟨⟨⟨⟨notImport, notLabel⟩, notArm⟩, notMark⟩, unindented⟩, oneLine⟩ := h
  have start_ok : IsOneLine (String.ofList start) := isOneLine_ofList (by simpa using oneLine)
  refine ⟨isOneLine_append.2 ⟨start_ok, hr⟩, ?_, ?_, ?_, ?_, ?_⟩ <;>
    rw [String.toList_append, String.toList_ofList]
  · exact unindented_append notLabel unindented _
  · rintro ⟨isImport, _⟩
    exact not_prefix_of_diverges notImport
      ((by decide : ['p', 'u', 'b', 'l', 'i', 'c', ' ', 's'] <+: importStart).trans isImport)
  · exact not_labelStart notLabel _
  · rintro ⟨isArm, _⟩
    exact not_prefix_of_diverges notArm
      ((by decide : ['N', 'a', 't', 'i', 'v', 'e', 'A', 'p', 'i'] <+: armStart).trans isArm)
  · exact not_importsMark notMark _

theorem isQuiet_closed (h : startsQuietly start = true) : IsQuiet (String.ofList start) := by
  rw [← String.append_empty (s := String.ofList start)]
  exact isQuiet_start h (by decide)

theorem isQuiet_ending {e : Char} (last : rest.toList.getLast? = some e)
    (label : diverges ['c', 'a', 's', 'e', ' '] start = true) (mark : diverges ['[', 'S'] start = true)
    (semicolon : e ≠ ';') (comma : e ≠ ',') (unindented : start.head?.any isBlank = false)
    (hs : '\n' ∉ start) (hr : IsOneLine rest) : IsQuiet (String.ofList start ++ rest) := by
  have whole : (String.ofList start ++ rest).toList.getLast? = some e := by
    rw [String.toList_append, List.getLast?_append, last]
    rfl
  refine ⟨isOneLine_append.2 ⟨isOneLine_ofList hs, hr⟩, ?_, fun h => semicolon ?_, ?_,
    fun h => comma ?_, ?_⟩
  · rw [String.toList_append, String.toList_ofList]
    exact unindented_append label unindented _
  · exact Option.some.inj (whole.symm.trans h.2)
  · rw [String.toList_append, String.toList_ofList]
    exact not_labelStart label _
  · exact Option.some.inj (whole.symm.trans h.2)
  · rw [String.toList_append, String.toList_ofList]
    exact not_importsMark mark _

/-- Calls of imports begin as arms do, but end with a semicolon. -/
theorem isQuiet_call (h : IsOneLine rest) : IsQuiet ("NativeApi." ++ rest ++ ";") := by
  have oneLine : IsOneLine ("NativeApi." ++ rest ++ ";") :=
    (h.prefixed (by decide)).suffixed (by decide)
  refine ⟨oneLine, by simp [isBlank], fun h => ?_, ?_, fun h => ?_, ?_⟩
  · rw [String.append_assoc, String.toList_append] at h
    exact not_prefix_of_diverges (by decide) h.1
  · rw [String.append_assoc, String.toList_append]
    exact not_prefix_of_diverges (by decide)
  · rw [String.toList_append, List.getLast?_append] at h
    exact absurd h.2 (by simp)
  · rw [String.append_assoc, String.toList_append]
    exact not_prefix_of_diverges (by decide)

theorem isQuiet_empty : IsQuiet "" := by
  refine ⟨by decide, by simp, ?_, by decide, ?_, by decide⟩ <;> simp

theorem isQuiet_opening : IsQuiet "\x7b" := isQuiet_closed (by decide)

theorem isQuiet_closing : IsQuiet "\x7d" := isQuiet_closed (by decide)

theorem isQuiet_word (hw : IsWord word) {mark : Char} {tail : List Char}
    (hx : x.toList = word.toList ++ mark :: tail) (hmark : isIdentifierPart mark = false)
    (blank : isBlank mark = false) (dot : mark = '.' → x.toList.getLast? ≠ some ',')
    (bracket : mark ≠ '[') (oneLine : IsOneLine x) : IsQuiet x := by
  have first := firstMark_word hw mark tail hmark
  rw [← hx] at first
  have notBlank : mark ≠ ' ' := by
    rintro rfl
    exact absurd blank (by decide)
  refine ⟨oneLine, ?_, ?_, ?_, ?_, ?_⟩
  · intro c hc
    rw [hx] at hc
    cases chars : word.toList with
    | nil =>
      rw [chars] at hc
      cases hc
      exact blank
    | cons d ds =>
      rw [chars] at hc
      cases hc
      have part := hw c (by rw [chars]; exact List.mem_cons_self)
      exact isBlank_of_isIdentifierPart (part.resolve_right (by simp))
  · exact fun h => not_prefix_of_firstMark (by decide : firstMark importStart = some ' ')
      (by rw [first]; simpa using notBlank) h.1
  · exact not_prefix_of_firstMark (by decide : firstMark labelStart = some ' ')
      (by rw [first]; simpa using notBlank)
  · rintro ⟨isArm, last⟩
    by_cases isDot : mark = '.'
    · exact dot isDot last
    · exact not_prefix_of_firstMark (by decide : firstMark armStart = some '.')
        (by rw [first]; simpa using isDot) isArm
  · exact not_prefix_of_firstMark (by decide : firstMark importsMark.toList = some '[')
      (by rw [first]; simpa using bracket)

theorem isQuiet_named (hw : IsWord word) {mark : Char} {tail : List Char}
    (hmark : isIdentifierPart mark = false) (blank : isBlank mark = false) (dot : mark ≠ '.')
    (bracket : mark ≠ '[') (oneLine : '\n' ∉ mark :: tail) :
    IsQuiet (word ++ String.ofList (mark :: tail)) := by
  have chars : (word ++ String.ofList (mark :: tail)).toList = word.toList ++ mark :: tail := by
    rw [String.toList_append, String.toList_ofList]
  exact isQuiet_word hw chars hmark blank (fun h => absurd h dot) bracket
    (isOneLine_append.2 ⟨hw.isOneLine, isOneLine_ofList oneLine⟩)

theorem isQuiet_access (hw : IsWord word) (hr : IsOneLine rest) :
    IsQuiet (word ++ "." ++ rest ++ ";") := by
  have chars : (word ++ "." ++ rest ++ ";").toList = word.toList ++ '.' :: (rest.toList ++ [';']) := by
    simp only [String.toList_append, List.append_assoc]
    rfl
  refine isQuiet_word hw chars (by decide) (by decide) (fun _ => ?_) (by decide) ?_
  · rw [chars, ← List.cons_append, ← List.append_assoc, List.getLast?_append]
    simp
  · simp only [isOneLine_append, hw.isOneLine, hr]
    decide

end Quiet

abbrev QuietCode : Code → Prop := Code.Each IsQuiet

theorem isFrame_isQuiet : Code.IsFrame IsQuiet := ⟨isQuiet_empty, isQuiet_opening, isQuiet_closing⟩

/-- The second list is the first one without some of its quiet lines. -/
inductive Sifts : List String → List String → Prop where
  | nil : Sifts [] []
  | drop {x : String} {xs ys : List String} (quiet : IsQuiet x) (rest : Sifts xs ys) :
      Sifts (x :: xs) ys
  | keep {xs ys : List String} (x : String) (rest : Sifts xs ys) : Sifts (x :: xs) (x :: ys)

namespace Sifts

variable {xs ys xs' ys' : List String}

theorem of_quiet (h : ∀ x ∈ xs, IsQuiet x) : Sifts xs [] := by
  induction xs with
  | nil => exact .nil
  | cons x xs ih =>
    exact .drop (h x List.mem_cons_self) (ih fun y hy => h y (List.mem_cons_of_mem x hy))

theorem refl (xs : List String) : Sifts xs xs := by
  induction xs with
  | nil => exact .nil
  | cons x xs ih => exact .keep x ih

theorem append (h : Sifts xs ys) (h' : Sifts xs' ys') : Sifts (xs ++ xs') (ys ++ ys') := by
  induction h with
  | nil => exact h'
  | drop quiet _ ih => exact .drop quiet ih
  | keep x _ ih => exact .keep x ih

theorem quiet_append (quiet : ∀ x ∈ xs, IsQuiet x) (h : Sifts xs' ys) : Sifts (xs ++ xs') ys :=
  (of_quiet quiet).append h

theorem append_quiet (h : Sifts xs ys) (quiet : ∀ x ∈ xs', IsQuiet x) : Sifts (xs ++ xs') ys := by
  rw [← List.append_nil ys]
  exact h.append (of_quiet quiet)

theorem flatMap {α : Type} {as : List α} {f g : α → List String}
    (h : ∀ a ∈ as, Sifts (f a) (g a)) : Sifts (as.flatMap f) (as.flatMap g) := by
  induction as with
  | nil => exact .nil
  | cons a as ih =>
    rw [List.flatMap_cons, List.flatMap_cons]
    exact (h a List.mem_cons_self).append (ih fun b hb => h b (List.mem_cons_of_mem a hb))

theorem cases_of_mem (h : Sifts xs ys) {x : String} (hx : x ∈ xs) : IsQuiet x ∨ x ∈ ys := by
  induction h with
  | nil => cases hx
  | drop quiet _ ih =>
    rcases List.mem_cons.1 hx with rfl | hx
    · exact .inl quiet
    · exact ih hx
  | keep y _ ih =>
    rcases List.mem_cons.1 hx with rfl | hx
    · exact .inr List.mem_cons_self
    · exact (ih hx).imp id (List.mem_cons_of_mem y)

/-- A reader that finds nothing in quiet lines finds the same without them. -/
theorem filterMap_eq {α : Type} {read : String → Option α} (h : Sifts xs ys)
    (quiet : ∀ x, IsQuiet x → read x = none) : xs.filterMap read = ys.filterMap read := by
  induction h with
  | nil => rfl
  | drop hx _ ih => rw [List.filterMap_cons_none (quiet _ hx), ih]
  | keep x _ ih => rw [List.filterMap_cons, List.filterMap_cons, ih]

end Sifts

end InteropGen
