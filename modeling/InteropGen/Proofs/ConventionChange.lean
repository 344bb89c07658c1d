import InteropGen.Proofs.IncludedFiles
import InteropGen.Proofs.Replacement

set_option autoImplicit false

/-!
# Changing the calling convention

The convention is spelled on four kinds of lines, and nowhere else unless a name spells it.  So the
plan for one convention comes from the plan for another by replacing the words of the convention.
-/

namespace InteropGen

open Text

def Config.calling (c : Config) (convention : CallingConvention) : Config :=
  { c with native := { c.native with convention } }

namespace CallingConvention

variable {a b : CallingConvention} {x y : String}

/-- Both words of the one convention are replaced by those of the other. -/
def respellChars (a b : CallingConvention) (cs : List Char) : List Char :=
  replaceWord a.native.toList b.native.toList
    (replaceWord a.managed.toList b.managed.toList cs)

def respell (a b : CallingConvention) (text : String) : String :=
  String.ofList (respellChars a b text.toList)

structure IsAbsent (a : CallingConvention) (text : String) : Prop where
  managed : Avoids a.managed.toList text
  native : Avoids a.native.toList text

instance (a : CallingConvention) (text : String) : Decidable (IsAbsent a text) :=
  decidable_of_iff (Avoids a.managed.toList text ∧ Avoids a.native.toList text)
    ⟨fun h => ⟨h.1, h.2⟩, fun h => ⟨h.managed, h.native⟩⟩

theorem isAbsent_iff :
    IsAbsent a x ↔ ¬ a.managed.toList <:+: x.toList ∧ ¬ a.native.toList <:+: x.toList :=
  ⟨fun h => ⟨h.managed, h.native⟩, fun h => ⟨h.1, h.2⟩⟩

/-- The lines that spell the convention: the attributes of imports and of delegates, and the macros
in front of functions and of function pointers. -/
def spellings : List (CallingConvention → String) :=
  [fun a => "[DllImport(NativeModuleName, CallingConvention = " ++ a.managed ++ ")]",
    fun a => "[UnmanagedFunctionPointer(" ++ a.managed ++ ")]",
    fun a => "#define NATIVE_API_CALL " ++ a.native,
    fun a => "#define NATIVE_CALLBACK_CALL " ++ a.native]

def Respelt (a b : CallingConvention) (x y : String) : Prop :=
  x = y ∨ ∃ spelling ∈ spellings, x = spelling a ∧ y = spelling b

theorem respell_spelling : ∀ spelling ∈ spellings,
    respellChars a b (spelling a).toList = (spelling b).toList ∧
      allBlank (spelling a) = false ∧ allBlank (spelling b) = false := by
  simp only [spellings, respellChars, List.forall_mem_cons, String.toList_append, allBlank]
  cases a <;> cases b <;> simp only [managed, native] <;> (repeat rw [String.toList_ofList]) <;>
    decide

theorem respellChars_of_isAbsent (h : IsAbsent a x) : respellChars a b x.toList = x.toList := by
  rw [respellChars, replaceWord_of_absent h.managed, replaceWord_of_absent h.native]

theorem Respelt.chars_eq (h : Respelt a b x y) (absent : x = y → IsAbsent a x) :
    respellChars a b x.toList = y.toList ∧ allBlank x = allBlank y := by
  rcases h with same | ⟨spelling, mem, rfl, rfl⟩
  · rw [← same]
    exact ⟨respellChars_of_isAbsent (absent same), rfl⟩
  · obtain ⟨chars, blank, blank'⟩ := respell_spelling (a := a) (b := b) spelling mem
    exact ⟨chars, blank.trans blank'.symm⟩

/-- A line is respelt behind its blanks, and apart from what follows. -/
theorem respellChars_line (n : Nat) (xs ys : List Char) :
    respellChars a b ((List.replicate n ' ' ++ xs) ++ '\n' :: ys) =
      (List.replicate n ' ' ++ respellChars a b xs) ++ '\n' :: respellChars a b ys := by
  have words : ∀ word ∈ [a.managed.toList, a.native.toList],
      ∃ c cs, word = c :: cs ∧ c ≠ ' ' ∧ '\n' ∉ c :: cs := by
    cases a <;> simp only [List.forall_mem_cons] <;>
      exact ⟨⟨_, _, rfl, by decide, by decide⟩, ⟨_, _, rfl, by decide, by decide⟩, by simp⟩
  have each {word new : List Char} (mem : word ∈ [a.managed.toList, a.native.toList])
      (xs ys : List Char) : replaceWord word new ((List.replicate n ' ' ++ xs) ++ '\n' :: ys) =
        (List.replicate n ' ' ++ replaceWord word new xs) ++ '\n' :: replaceWord word new ys := by
    obtain ⟨c, cs, rfl, notBlank, oneLine⟩ := words word mem
    rw [replaceWord_append_sep (by simp) oneLine, replaceWord_append]
    exact fun mem => notBlank (List.eq_of_mem_replicate mem)
  rw [respellChars, each (by simp), each (by simp)]
  rfl

end CallingConvention

open CallingConvention

namespace Code

variable {R : String → String → Prop} {code code' d d' : Code} {a b : CallingConvention}

/-- The lines stand at the same depths, and their texts are related one by one. -/
def Corresponds (R : String → String → Prop) : Code → Code → Prop :=
  List.Forall₂ fun l l' => l'.depth = l.depth ∧ l'.pinned = l.pinned ∧ R l.text l'.text

namespace Corresponds

theorem line {x y : String} (h : R x y) : Corresponds R (Code.line x) (Code.line y) :=
  .cons ⟨rfl, rfl, h⟩ .nil

theorem lines {xs ys : List String} (h : List.Forall₂ R xs ys) :
    Corresponds R (Code.lines xs) (Code.lines ys) := by
  induction h with
  | nil => exact .nil
  | cons head _ ih => exact .cons ⟨rfl, rfl, head⟩ ih

theorem append (h : code.Corresponds R code') (h' : d.Corresponds R d') :
    (code ++ d).Corresponds R (code' ++ d') := List.rel_append h h'

theorem nest (h : code.Corresponds R code') : (Code.nest code).Corresponds R (Code.nest code') := by
  induction h with
  | nil => exact .nil
  | cons head _ ih => exact .cons ⟨congrArg (· + 1) head.1, head.2⟩ ih

theorem flatMap {α : Type} {as : List α} {f g : α → Code}
    (h : ∀ x ∈ as, (f x).Corresponds R (g x)) :
    Corresponds R (as.flatMap f) (as.flatMap g) := by
  induction as with
  | nil => exact .nil
  | cons x xs ih =>
    rw [List.flatMap_cons, List.flatMap_cons]
    exact (h x List.mem_cons_self).append (ih fun y hy => h y (List.mem_cons_of_mem x hy))

theorem given (condition : Bool) (h : code.Corresponds R code') :
    (Code.given condition code).Corresponds R (Code.given condition code') := by
  cases condition with
  | false => exact .nil
  | true => exact h

theorem getD_map {α : Type} {f g : α → Code} (h : ∀ x, (f x).Corresponds R (g x)) (o : Option α) :
    ((o.map f).getD []).Corresponds R ((o.map g).getD []) := by
  cases o with
  | none => exact .nil
  | some x => exact h x

theorem same (reflexive : ∀ x, R x x) (code : Code) : code.Corresponds R code :=
  List.forall₂_same.2 fun l _ => ⟨rfl, rfl, reflexive l.text⟩

theorem braces (reflexive : ∀ x, R x x) (h : code.Corresponds R code') :
    (Code.braces code).Corresponds R (Code.braces code') :=
  ((line (reflexive _)).append h.nest).append (line (reflexive _))

theorem block (reflexive : ∀ x, R x x) (header : String) (h : code.Corresponds R code') :
    (Code.block header code).Corresponds R (Code.block header code') :=
  (line (reflexive _)).append (h.braces reflexive)

/-- If the words of the convention stand in no other line, respelling the one text gives the
other. -/
theorem respell_render {c : Config} (h : code.Corresponds (Respelt a b) code')
    (absent : ∀ x ∈ code'.texts, IsAbsent a x) :
    respell a b (code.render c.indentUnit) = code'.render c.indentUnit := by
  have chars : respellChars a b (code.render c.indentUnit).toList =
      (code'.render c.indentUnit).toList := by
    induction h with
    | nil => rfl
    | @cons l l' code code' head _ ih =>
      obtain ⟨depth, pinned, respelt⟩ := head
      obtain ⟨text, blank⟩ := respelt.chars_eq fun same =>
        same ▸ absent l'.text List.mem_cons_self
      have lead : l'.lead c.indentUnit = l.lead c.indentUnit := by
        rw [Line.lead, Line.lead, depth, pinned, blank]
      obtain ⟨n, blanks⟩ := lead_toList c l
      rw [toList_render_cons, toList_render_cons, lead, blanks, respellChars_line, text,
        ih fun x hx => absent x (List.mem_cons_of_mem _ hx)]
  rw [respell, chars, String.ofList_toList]

end Corresponds

end Code

section Sites

variable {c : Config} {a b : CallingConvention}

theorem respelt_same (x : String) : Respelt a b x x := .inl rfl

theorem respelt_libraryAttribute : Respelt a b (Import.libraryAttribute (c.calling a))
    (Import.libraryAttribute (c.calling b)) := .inr ⟨_, List.mem_cons_self, rfl, rfl⟩

theorem respelt_callbackAttribute :
    Respelt a b (callbackAttribute (c.calling a)) (callbackAttribute (c.calling b)) :=
  .inr ⟨_, List.mem_cons_of_mem _ List.mem_cons_self, rfl, rfl⟩

theorem Import.corresponds_code (i : Import) :
    (i.code (c.calling a)).Corresponds (Respelt a b) (i.code (c.calling b)) :=
  (((Code.Corresponds.same respelt_same _).append (.line respelt_libraryAttribute)).append
    (.same respelt_same _)).append (.same respelt_same _)

theorem SlotDelegate.corresponds_code (typeName : String) (d : SlotDelegate) :
    (d.code (c.calling a) typeName).Corresponds (Respelt a b) (d.code (c.calling b) typeName) :=
  (((Code.Corresponds.same respelt_same _).append (.line respelt_callbackAttribute)).append
    (.same respelt_same _)).append (.same respelt_same _)

theorem SlotDelegates.corresponds_code (d : SlotDelegates) :
    (d.code (c.calling a)).Corresponds (Respelt a b) (d.code (c.calling b)) :=
  ((((Code.Corresponds.same respelt_same _).append (.same respelt_same _)).append
    (.line respelt_callbackAttribute)).append (.same respelt_same _)).append
    (.flatMap fun x _ => SlotDelegate.corresponds_code d.typeName x)

namespace Imports

theorem corresponds_eventTypes (i : Imports) :
    (i.eventTypes (c.calling a)).Corresponds (Respelt a b) (i.eventTypes (c.calling b)) :=
  ((((Code.Corresponds.same respelt_same _).append (.line respelt_callbackAttribute)).append
    (.same respelt_same _)).append (.same respelt_same _)).append (.same respelt_same _)

theorem corresponds_code (i : Imports) :
    (i.code (c.calling a)).Corresponds (Respelt a b) (i.code (c.calling b)) := by
  have delegates (d : SlotDelegates) : (Code.blank ++ d.code (c.calling a)).Corresponds
      (Respelt a b) (Code.blank ++ d.code (c.calling b)) :=
    (Code.Corresponds.same respelt_same _).append d.corresponds_code
  exact (Code.Corresponds.same respelt_same _).append <| .block respelt_same _ <|
    (((Code.Corresponds.same respelt_same _).append (.given _ i.corresponds_eventTypes)).append
      (.getD_map delegates i.delegates)).append (.flatMap fun x _ => Import.corresponds_code x)

end Imports

theorem Wrapper.corresponds_code (w : Wrapper) :
    (w.code (c.calling a)).Corresponds (Respelt a b) (w.code (c.calling b)) :=
  (Code.Corresponds.same respelt_same _).append <| .block respelt_same _ <|
    .block respelt_same _ <| (Code.Corresponds.same respelt_same _).append w.imports.corresponds_code

theorem respelt_macros : List.Forall₂ (Respelt a b) (NativeSupport.exportMacros a.native)
    (NativeSupport.exportMacros b.native) := by
  have call : Respelt a b ("#define NATIVE_API_CALL " ++ a.native)
      ("#define NATIVE_API_CALL " ++ b.native) :=
    .inr ⟨_, List.mem_cons_of_mem _ (List.mem_cons_of_mem _ List.mem_cons_self), rfl, rfl⟩
  have callback : Respelt a b ("#define NATIVE_CALLBACK_CALL " ++ a.native)
      ("#define NATIVE_CALLBACK_CALL " ++ b.native) := .inr ⟨_, List.mem_cons_of_mem _
    (List.mem_cons_of_mem _ (List.mem_cons_of_mem _ List.mem_cons_self)), rfl, rfl⟩
  have same (xs : List String) : List.Forall₂ (Respelt a b) xs xs :=
    List.forall₂_same.2 fun x _ => respelt_same x
  exact .cons (respelt_same _) <| .cons (respelt_same _) <| .cons (respelt_same _) <|
    .cons call <| .cons callback <| same _

theorem NativeSupport.corresponds_code :
    (NativeSupport.code (c.calling a)).Corresponds (Respelt a b)
      (NativeSupport.code (c.calling b)) :=
  ((((((Code.Corresponds.same respelt_same _).append (.lines respelt_macros)).append
    (.same respelt_same _)).append (.same respelt_same _)).append (.same respelt_same _)).append
    (.same respelt_same _)).append (.same respelt_same _)

end Sites

end InteropGen
