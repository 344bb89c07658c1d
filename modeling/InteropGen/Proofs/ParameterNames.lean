import Mathlib.Data.List.Perm.Basic
import InteropGen.Proofs.DeclaredNames
import InteropGen.Proofs.DeclaredSymbols
import InteropGen.Proofs.Layout
import InteropGen.Proofs.SymbolParity

set_option autoImplicit false

/-!
# Names of parameters

A parameter list has the names of the member, and flat functions have further ones between them: the
instance in front, and a count behind each array.  These are made without a look at the others.
-/

namespace InteropGen

open Text

/-! ### Names in a list -/

namespace Declared

/-- The name of the instance in front of the others. -/
def receiverNames (isStatic : Bool) : List String := if isStatic then [] else ["obj"]

def flatNames (ps : List Parameter) : List String :=
  ps.flatMap fun p => p.name :: if p.type.isArray then [countName p.name] else []

def countNames (ps : List Parameter) : List String :=
  ps.flatMap fun p => if p.type.isArray then [countName p.name] else []

variable {ps : List Parameter} {x : String} {isStatic : Bool}

theorem countName_inj {a b : String} : countName a = countName b ↔ a = b :=
  String.append_left_inj "Count"

theorem countName_ne_obj (x : String) : countName x ≠ "obj" := by
  intro same
  have last := congrArg (fun name : String => name.toList.reverse.head?) same
  simp [countName] at last

theorem mem_countNames :
    x ∈ countNames ps ↔ ∃ p ∈ ps, p.type.isArray = true ∧ x = countName p.name := by
  rw [countNames, List.mem_flatMap]
  refine exists_congr fun p => and_congr_right fun _ => ?_
  cases p.type.isArray <;> simp

theorem flatNames_perm (ps : List Parameter) :
    (flatNames ps).Perm (ps.map Parameter.name ++ countNames ps) :=
  (List.map_append_flatMap_perm ps Parameter.name _).symm

theorem names_sublist_flatNames (ps : List Parameter) :
    (ps.map Parameter.name).Sublist (flatNames ps) := by
  induction ps with
  | nil => exact .refl []
  | cons p ps ih =>
    exact (ih.trans (List.sublist_append_right _ _)).cons_cons p.name

theorem nodup_countNames (distinct : (ps.map Parameter.name).Nodup) : (countNames ps).Nodup := by
  induction ps with
  | nil => exact List.nodup_nil
  | cons p ps ih =>
    rw [List.map_cons, List.nodup_cons] at distinct
    rw [countNames, List.flatMap_cons]
    cases isArray : p.type.isArray with
    | false => exact ih distinct.2
    | true =>
      refine List.nodup_cons.2 ⟨fun again => ?_, ih distinct.2⟩
      obtain ⟨q, hq, _, same⟩ := mem_countNames.1 again
      rw [countName_inj.1 same] at distinct
      exact distinct.1 (List.mem_map_of_mem hq)

/-- A parameter is called like the instance in front of it, or like the count of an array. -/
def Clash (isStatic : Bool) (ps : List Parameter) : Prop :=
  (isStatic = false ∧ "obj" ∈ ps.map Parameter.name) ∨
    ∃ p ∈ ps, p.type.isArray = true ∧ countName p.name ∈ ps.map Parameter.name

theorem nodup_flatNames_iff (distinct : (ps.map Parameter.name).Nodup) :
    (receiverNames isStatic ++ flatNames ps).Nodup ↔ ¬ Clash isStatic ps := by
  have counts : (flatNames ps).Nodup ↔
      ∀ p ∈ ps, p.type.isArray = true → countName p.name ∉ ps.map Parameter.name := by
    rw [(flatNames_perm ps).nodup_iff, List.nodup_append', and_iff_right distinct,
      and_iff_right (nodup_countNames distinct), List.disjoint_right]
    simp only [mem_countNames, forall_exists_index, and_imp]
    exact ⟨fun apart p hp isArray => apart p hp isArray rfl,
      fun apart _ p hp isArray same => same ▸ apart p hp isArray⟩
  have receiver : "obj" ∈ flatNames ps ↔ "obj" ∈ ps.map Parameter.name := by
    rw [(flatNames_perm ps).mem_iff, List.mem_append, or_iff_left]
    intro count
    obtain ⟨p, _, _, same⟩ := mem_countNames.1 count
    exact countName_ne_obj p.name same.symm
  unfold Clash
  push Not
  cases isStatic with
  | true =>
    rw [← counts]
    simp [receiverNames]
  | false =>
    rw [← counts, ← receiver]
    simp [receiverNames]

theorem nodup_names_of_not_clash (distinct : (ps.map Parameter.name).Nodup)
    (apart : ¬ Clash isStatic ps) : (receiverNames isStatic ++ ps.map Parameter.name).Nodup :=
  ((nodup_flatNames_iff distinct).2 apart).sublist
    ((List.Sublist.refl _).append (names_sublist_flatNames ps))

theorem not_clash_nil (isStatic : Bool) : ¬ Clash isStatic [] := by
  simp [Clash]

/-- The value of a property is called like nothing else. -/
theorem not_clash_value (isStatic : Bool) (type : TypeRef) : ¬ Clash isStatic [⟨"value", type⟩] := by
  rintro (⟨_, obj⟩ | ⟨p, hp, _, count⟩)
  · simp at obj
  · rw [List.mem_singleton.1 hp] at count
    exact absurd (List.mem_singleton.1 count) (by decide : countName "value" ≠ "value")

theorem isWord_receiverNames (isStatic : Bool) : ∀ x ∈ receiverNames isStatic, IsWord x := by
  cases isStatic <;> decide

theorem isWord_flatNames (words : ∀ p ∈ ps, IsWord p.name) : ∀ x ∈ flatNames ps, IsWord x := by
  intro x hx
  rcases List.mem_append.1 ((flatNames_perm ps).mem_iff.1 hx) with hx | hx
  · obtain ⟨p, hp, rfl⟩ := List.mem_map.1 hx
    exact words p hp
  · obtain ⟨p, hp, _, rfl⟩ := mem_countNames.1 hx
    exact isWord_append.2 ⟨words p hp, by decide⟩

section Lists

variable {s : Schema} {t : ApiType} {dialect : Dialect} {ds : List Declared}

theorem names_declareFlat (h : s.declareFlat dialect ps = .ok ds) :
    ds.map Declared.name = flatNames ps := by
  induction ps generalizing ds with
  | nil =>
    cases h
    rfl
  | cons p ps ih =>
    obtain ⟨d, hd, h⟩ := bind_eq_ok.1 h
    obtain ⟨rest, hrest, h⟩ := bind_eq_ok.1 h
    cases h
    obtain ⟨spelling, _, rfl⟩ := map_eq_ok.1 hd
    have own : (counts p).map Declared.name = if p.type.isArray then [countName p.name] else [] := by
      rw [counts]
      cases p.type.isArray <;> rfl
    rw [List.map_cons, List.map_append, ih hrest, own]
    rfl

theorem names_declareAll (h : s.declareAll dialect ps = .ok ds) :
    ds.map Declared.name = ps.map Parameter.name := by
  refine (forall₂_map_eq ((s.declareAll_stepwise dialect).forall₂ h) fun p d ok => ?_).symm
  obtain ⟨spelling, _, rfl⟩ := map_eq_ok.1 ok
  rfl

theorem names_parametersOf {handed : List (Declared × Handed)}
    (h : SlotHandler.parametersOf s ps = .ok handed) :
    (handed.map Prod.fst).map Declared.name = ps.map Parameter.name := by
  rw [List.map_map]
  refine (forall₂_map_eq ((SlotHandler.parametersOf_stepwise s).forall₂ h) fun p d ok => ?_).symm
  obtain ⟨spelling, _, ok⟩ := bind_eq_ok.1 ok
  obtain ⟨shape, _, ok⟩ := bind_eq_ok.1 ok
  cases ok
  rfl

theorem names_selfOf : (Shim.selfOf t isStatic).map Declared.name = receiverNames isStatic := by
  cases isStatic <;> rfl

theorem names_handleOf : (handleOf isStatic).map Declared.name = receiverNames isStatic := by
  cases isStatic <;> rfl

theorem names_slotSelfOf :
    (SlotWrapper.selfOf isStatic).map Declared.name = receiverNames isStatic := by
  cases isStatic <;> rfl

end Lists

end Declared

/-! ### Names in a line -/

namespace Text

def beforeClosing (cs : List Char) : List Char := (cs.reverse.dropWhile (· ≠ ')')).tail.reverse

/-- The names of the parameters in a line that declares a function: the last word of each part between
commas, unless there is a parenthesis in it, which is where an empty list begins. -/
def parameterNames (cs : List Char) : List (List Char) :=
  ((pieces ',' (beforeClosing cs)).map lastWord).filter ('(' ∉ ·)

section Reading

variable {xs ys : List Char}

theorem beforeClosing_append (h : ')' ∉ ys) : beforeClosing (xs ++ ')' :: ys) = xs := by
  rw [beforeClosing, List.reverse_append, List.reverse_cons, List.append_assoc,
    List.singleton_append, dropWhile_ne_append (by rwa [List.mem_reverse]), List.tail_cons,
    List.reverse_reverse]

theorem lastWord_snoc {c : Char} (h : c ≠ ' ') : c ∈ lastWord (xs ++ [c]) := by
  rw [lastWord, List.reverse_append, List.reverse_singleton, List.singleton_append,
    List.takeWhile_cons_of_pos (by simpa using h), List.reverse_cons]
  simp

theorem lastWords_join {d : Declared} {ds : List Declared} (front : ',' ∉ xs)
    (texts : ∀ e ∈ d :: ds, ',' ∉ e.text.toList) (names : ∀ e ∈ d :: ds, ' ' ∉ e.name.toList) :
    (pieces ',' (xs ++ (Declared.join (d :: ds)).toList)).map lastWord =
      (d :: ds).map fun e => e.name.toList := by
  have part {ys : List Char} {e : Declared} (name : ' ' ∉ e.name.toList) :
      lastWord (ys ++ e.text.toList) = e.name.toList := by
    have chars : ys ++ e.text.toList = (ys ++ e.spelling.literal.toList) ++ ' ' :: e.name.toList := by
      simp [Declared.text]
    rw [chars, lastWord_append name]
  have whole : ',' ∉ xs ++ d.text.toList :=
    List.not_mem_append front (texts d List.mem_cons_self)
  have last : lastWord (xs ++ d.text.toList) = d.name.toList :=
    part (names d List.mem_cons_self)
  induction ds generalizing d xs with
  | nil =>
    have alone : Declared.join [d] = d.text := String.intercalate_singleton
    rw [alone, pieces_of_not_mem whole]
    simpa using last
  | cons e ds ih =>
    have split : xs ++ (Declared.join (d :: e :: ds)).toList =
        (xs ++ d.text.toList) ++ ',' :: ([' '] ++ (Declared.join (e :: ds)).toList) := by
      simp only [Declared.join, List.map_cons]
      rw [String.intercalate_cons_cons]
      simp
    have texts' : ∀ x ∈ e :: ds, ',' ∉ x.text.toList := fun x hx =>
      texts x (List.mem_cons_of_mem d hx)
    have names' : ∀ x ∈ e :: ds, ' ' ∉ x.name.toList := fun x hx =>
      names x (List.mem_cons_of_mem d hx)
    have comma : ',' ∉ [' '] := by decide
    rw [split, pieces_append_sep, pieces_of_not_mem whole, List.singleton_append, List.map_cons,
      ih comma texts' names' (List.not_mem_append comma (texts' e List.mem_cons_self))
        (part (names' e List.mem_cons_self)), last]
    rfl

theorem parameterNames_declared {front back : String} {ds : List Declared}
    (opens : front.toList.getLast? = some '(') (comma : ',' ∉ front.toList)
    (closes : back.toList = ')' :: ys) (last : ')' ∉ ys)
    (texts : ∀ d ∈ ds, IsOver spellingMarks d.text) (names : ∀ x ∈ ds.map Declared.name, IsWord x) :
    parameterNames (front ++ Declared.join ds ++ back).toList = ds.map fun d => d.name.toList := by
  have words (d : Declared) (hd : d ∈ ds) : IsWord d.name := names _ (List.mem_map_of_mem hd)
  have line : (front ++ Declared.join ds ++ back).toList =
      (front.toList ++ (Declared.join ds).toList) ++ ')' :: ys := by
    rw [String.toList_append, String.toList_append, closes]
  rw [parameterNames, line, beforeClosing_append last]
  cases ds with
  | nil =>
    have empty : (Declared.join []).toList = [] := rfl
    obtain ⟨xs, opening⟩ := List.getLast?_eq_some_iff.1 opens
    have parenthesis : '(' ∈ lastWord front.toList := by
      rw [opening]
      exact lastWord_snoc (by decide)
    rw [empty, List.append_nil, pieces_of_not_mem comma]
    simpa using parenthesis
  | cons d ds =>
    rw [lastWords_join comma (fun e he => (texts e he).not_mem (by decide) (by decide))
      fun e he => (words e he).not_mem (by decide) (by decide)]
    refine List.filter_eq_self.2 fun name hname => ?_
    obtain ⟨e, he, rfl⟩ := List.mem_map.1 hname
    have absent : '(' ∉ e.name.toList := (words e he).not_mem (by decide) (by decide)
    simpa using absent

end Reading

end Text

end InteropGen
