import InteropGen.Proofs.Layout

set_option autoImplicit false

/-!
# Brackets

A text is read with a stack of the brackets that are still to be closed.  Reading goes wrong where a
bracket closes what is not open, and a text is well nested when it leaves nothing to close.
-/

namespace InteropGen

namespace Text

def closing? : Char → Option Char
  | '(' => some ')'
  | '[' => some ']'
  | '\x7b' => some '\x7d'
  | _ => none

def isClosing (c : Char) : Bool := c = ')' || c = ']' || c = '\x7d'

def isBracket (c : Char) : Bool := (closing? c).isSome || isClosing c

theorem isBracket_iff {c : Char} :
    isBracket c = true ↔ c ∈ ['(', '[', '\x7b', ')', ']', '\x7d'] := by
  unfold isBracket closing?
  split <;> simp_all [isClosing, or_assoc]

/-- Reads a character with the brackets that are to be closed, the innermost first.  Nothing may
close what is not open. -/
def readBracket (stack : List Char) (c : Char) : Option (List Char) :=
  match closing? c with
  | some d => some (d :: stack)
  | none =>
    if isClosing c then if stack.head? = some c then some stack.tail else none
    else some stack

/-- What is to be closed after some characters. -/
def unclosed (stack cs : List Char) : Option (List Char) := cs.foldlM readBracket stack

/-- The brackets of the text close what is open, and all that they open. -/
def IsNested (text : String) : Prop := unclosed [] text.toList = some []

instance (text : String) : Decidable (IsNested text) :=
  inferInstanceAs (Decidable (unclosed [] text.toList = some []))

def IsBare (text : String) : Prop := ∀ c ∈ text.toList, isBracket c = false

-- The instance is named, since characters can also be decided over all together.
instance (text : String) : Decidable (IsBare text) := List.decidableBAll _ _

section Unclosed

variable {stack left base xs ys : List Char} {text : String}

theorem unclosed_append :
    unclosed stack (xs ++ ys) = (unclosed stack xs).bind fun left => unclosed left ys :=
  List.foldlM_append

theorem unclosed_cons {c : Char} :
    unclosed stack (c :: xs) = (readBracket stack c).bind fun left => unclosed left xs :=
  List.foldlM_cons

theorem readBracket_below {c : Char} (h : readBracket stack c = some left) :
    readBracket (stack ++ base) c = some (left ++ base) := by
  rw [readBracket] at h ⊢
  split at h
  · cases h
    rfl
  · split at h
    · rename_i closes
      split at h
      · rename_i top
        obtain ⟨rest, rfl⟩ := List.head?_eq_some_iff.1 top
        cases h
        simp [closes]
      · cases h
    · rename_i plain
      cases h
      exact if_neg plain

theorem unclosed_below (h : unclosed stack xs = some left) :
    unclosed (stack ++ base) xs = some (left ++ base) := by
  induction xs generalizing stack with
  | nil =>
    cases h
    rfl
  | cons x xs ih =>
    rw [unclosed_cons] at h ⊢
    obtain ⟨next, read, rest⟩ := Option.bind_eq_some_iff.1 h
    rw [readBracket_below read, Option.bind_some, ih rest]

theorem IsNested.unclosed (h : IsNested text) (stack : List Char) :
    unclosed stack text.toList = some stack := @unclosed_below [] [] stack _ h

theorem unclosed_bare (h : ∀ c ∈ xs, isBracket c = false) : unclosed stack xs = some stack := by
  induction xs with
  | nil => rfl
  | cons x xs ih =>
    have bare := h x List.mem_cons_self
    simp only [isBracket, Bool.or_eq_false_iff, Option.isSome_eq_false_iff,
      Option.isNone_iff_eq_none] at bare
    have skipped : readBracket stack x = some stack := by simp [readBracket, bare]
    rw [unclosed_cons, skipped, Option.bind_some]
    exact ih fun c hc => h c (List.mem_cons_of_mem x hc)

theorem IsBare.isNested (h : IsBare text) : IsNested text := unclosed_bare h

theorem isBare_append {a b : String} : IsBare (a ++ b) ↔ IsBare a ∧ IsBare b := by
  rw [IsBare, String.toList_append, List.forall_mem_append]
  rfl

theorem IsNested.behind {front : List Char} (closed : Text.unclosed [] front = some [])
    (h : IsNested text) : IsNested (String.ofList front ++ text) := by
  rw [IsNested, String.toList_append, String.toList_ofList, unclosed_append, closed,
    Option.bind_some, h]

/-- The fixed text behind closes what the fixed text in front has opened. -/
theorem IsNested.between {front back : List Char} (opens : Text.unclosed [] front = some left)
    (h : IsNested text) (closes : Text.unclosed left back = some []) :
    IsNested (String.ofList front ++ text ++ String.ofList back) := by
  rw [IsNested, String.toList_append, String.toList_append, String.toList_ofList,
    String.toList_ofList, unclosed_append, unclosed_append, opens, Option.bind_some, h.unclosed,
    Option.bind_some, closes]

end Unclosed

end Text

open Text

namespace Code

theorem unclosed_render (c : Config) (code : Code) (stack : List Char) :
    unclosed stack (code.render c.indentUnit).toList =
      unclosed stack (code.texts.flatMap String.toList) := by
  induction code generalizing stack with
  | nil => rfl
  | cons l code ih =>
    obtain ⟨n, lead⟩ := lead_toList c l
    have blank : ∀ c ∈ List.replicate n ' ', isBracket c = false := fun c hc => by
      rw [List.eq_of_mem_replicate hc]
      decide
    change _ = unclosed stack (l.text.toList ++ (texts code).flatMap String.toList)
    rw [toList_render_cons, lead, List.append_assoc, unclosed_append, unclosed_bare blank,
      Option.bind_some, unclosed_append, unclosed_append]
    congr 1
    funext left
    rw [← ih left]
    rfl

end Code

end InteropGen
