import InteropGen.Proofs.SpelledTypes
import InteropGen.Surface.ExportTable

set_option autoImplicit false

/-!
# Symbols of declarations

A line that declares a function holds the name of the function in front of the first parenthesis and
its parameters up to the last one, with a comma and a blank between any two.  `declaredSymbol` reads
the symbol off such a line.
-/

namespace InteropGen

open Text

namespace Text

def separators : List Char → Nat
  | ',' :: ' ' :: rest => separators rest + 1
  | _ :: rest => separators rest
  | [] => 0

def parameterCount (inner : List Char) : Nat :=
  if inner.isEmpty then 0 else separators inner + 1

def lastWord (cs : List Char) : List Char := (cs.reverse.takeWhile (· ≠ ' ')).reverse

def beforeParentheses (cs : List Char) : List Char := cs.takeWhile (· ≠ '(')

def insideParentheses (cs : List Char) : List Char :=
  (((cs.dropWhile (· ≠ '(')).drop 1).reverse.dropWhile (· ≠ ')')).tail.reverse

/-- The symbol of the function that a line declares. -/
def declaredSymbol (cs : List Char) : String :=
  symbolText (String.ofList (lastWord (beforeParentheses cs)))
    (parameterCount (insideParentheses cs))

section Scanning

variable {c : Char} {xs ys zs : List Char}

theorem takeWhile_ne_append (h : c ∉ xs) : (xs ++ c :: ys).takeWhile (· ≠ c) = xs := by
  induction xs with
  | nil => simp
  | cons x xs ih =>
    obtain ⟨hx, hxs⟩ := not_or.1 (mt List.mem_cons.2 h)
    rw [List.cons_append, List.takeWhile_cons_of_pos (by simpa using Ne.symm hx), ih hxs]

theorem dropWhile_ne_append (h : c ∉ xs) : (xs ++ c :: ys).dropWhile (· ≠ c) = c :: ys := by
  induction xs with
  | nil => simp
  | cons x xs ih =>
    obtain ⟨hx, hxs⟩ := not_or.1 (mt List.mem_cons.2 h)
    rw [List.cons_append, List.dropWhile_cons_of_pos (by simpa using Ne.symm hx), ih hxs]

theorem lastWord_append (h : ' ' ∉ ys) : lastWord (xs ++ ' ' :: ys) = ys := by
  rw [lastWord, List.reverse_append, List.reverse_cons, List.append_assoc, List.singleton_append,
    takeWhile_ne_append (by rwa [List.mem_reverse]), List.reverse_reverse]

theorem insideParentheses_append (hx : '(' ∉ xs) (hz : ')' ∉ zs) :
    insideParentheses (xs ++ '(' :: (ys ++ ')' :: zs)) = ys := by
  rw [insideParentheses, dropWhile_ne_append hx, List.drop_one, List.tail_cons,
    List.reverse_append, List.reverse_cons, List.append_assoc, List.singleton_append,
    dropWhile_ne_append (by rwa [List.mem_reverse]), List.tail_cons, List.reverse_reverse]

theorem separators_append (h : ',' ∉ xs) : separators (xs ++ ys) = separators ys := by
  induction xs with
  | nil => rfl
  | cons x xs ih =>
    obtain ⟨hx, hxs⟩ := not_or.1 (mt List.mem_cons.2 h)
    rw [List.cons_append, separators]
    · exact ih hxs
    · intro rest hc
      exact absurd hc.symm hx

theorem separators_intercalate {texts : List String} (h : ∀ text ∈ texts, ',' ∉ text.toList)
    (nonempty : texts ≠ []) :
    separators (", ".intercalate texts).toList + 1 = texts.length := by
  induction texts with
  | nil => exact absurd rfl nonempty
  | cons a rest ih =>
    have ha := h a List.mem_cons_self
    cases rest with
    | nil =>
      have alone : separators (a.toList ++ []) = 0 := separators_append ha
      rw [List.append_nil] at alone
      rw [String.intercalate_singleton, alone]
      rfl
    | cons b rest =>
      have hrest := ih (fun text ht => h text (List.mem_cons_of_mem a ht)) (List.cons_ne_nil b rest)
      have split : (", ".intercalate (a :: b :: rest)).toList =
          a.toList ++ ',' :: ' ' :: (", ".intercalate (b :: rest)).toList := by
        rw [String.intercalate_cons_cons]
        simp
      rw [split, separators_append ha, separators, hrest]
      rfl

end Scanning

end Text

theorem parameterCount_join {ds : List Declared} (h : ∀ d ∈ ds, ',' ∉ d.text.toList) :
    parameterCount (Declared.join ds).toList = ds.length := by
  cases ds with
  | nil => rfl
  | cons d ds =>
    have texts : ∀ text ∈ (d :: ds).map Declared.text, ',' ∉ text.toList := by
      intro text ht
      obtain ⟨e, he, rfl⟩ := List.mem_map.1 ht
      exact h e he
    have blank : ' ' ∈ (Declared.join (d :: ds)).toList := by
      rw [Declared.join, List.map_cons]
      cases ds <;> simp [Declared.text]
    have inhabited : (Declared.join (d :: ds)).toList.isEmpty = false := by
      rw [List.isEmpty_eq_false_iff]
      exact List.ne_nil_of_mem blank
    rw [parameterCount, inhabited, Declared.join,
      if_neg Bool.false_ne_true, separators_intercalate texts (by simp), List.length_map]

theorem declaredSymbol_eq {start name rest : String} {ds : List Declared}
    (hstart : '(' ∉ start.toList) (hname : IsWord name) (hds : ∀ d ∈ ds, ',' ∉ d.text.toList)
    (hrest : ')' ∉ rest.toList) :
    declaredSymbol (start ++ " " ++ name ++ "(" ++ Declared.join ds ++ ")" ++ rest).toList =
      symbolText name ds.length := by
  have line : (start ++ " " ++ name ++ "(" ++ Declared.join ds ++ ")" ++ rest).toList =
      (start.toList ++ ' ' :: name.toList) ++
        '(' :: ((Declared.join ds).toList ++ ')' :: rest.toList) := by
    simp
  have before : '(' ∉ start.toList ++ ' ' :: name.toList := by
    rw [List.mem_append, List.mem_cons, not_or, not_or]
    exact ⟨hstart, by decide, hname.not_mem (by decide) (by simp)⟩
  rw [line, declaredSymbol, beforeParentheses, takeWhile_ne_append before,
    insideParentheses_append before hrest, parameterCount_join hds,
    lastWord_append (hname.not_mem (by decide) (by simp)), String.ofList_toList]

end InteropGen
