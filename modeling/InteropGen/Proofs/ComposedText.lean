import InteropGen.Proofs.Brackets
import InteropGen.Proofs.Occurrences

set_option autoImplicit false

/-!
# Text composed of names and fixed text

A generated line is fixed text with names in between, and generated code is such lines, with blocks
around them.  Two things are read off the fixed text alone, whatever the names are: its brackets are
well nested, and a reserved word that occurs in no name occurs nowhere in the line.
-/

namespace InteropGen

open Text

/-- The words that later files are searched for. -/
def reservedWords : List (List Char) :=
  [['C', 'a', 'l', 'l', 'i', 'n', 'g', 'C', 'o', 'n', 'v', 'e', 'n', 't', 'i', 'o', 'n', '.',
      'C', 'd', 'e', 'c', 'l'],
    ['_', '_', 'c', 'd', 'e', 'c', 'l'], ['#', 'i', 'n', 'c', 'l', 'u', 'd', 'e']]

/-- What is to be closed after fixed text with which a line or a part of it begins; nothing if a
reserved word could begin in it. -/
def begins (cs stack : List Char) : Option (List Char) :=
  if reservedWords.all (beginsNowhere · cs) then unclosed stack cs else none

/-- What is to be closed after fixed text behind a name; nothing if it could share characters with a
reserved word. -/
def joins (cs stack : List Char) : Option (List Char) :=
  if reservedWords.all (separates · cs) then unclosed stack cs else none

/-- A text in which `N` holds of all names. -/
structure Composed (N : String → Prop) (text : String) : Prop where
  nested : (∀ x, N x → IsBare x) → IsNested text
  avoids : ∀ word ∈ reservedWords, (∀ x, N x → Avoids word x) → Avoids word text

/-- A composed text up to a place where a name may follow, with what is to be closed there. -/
structure Begun (N : String → Prop) (text : String) (left : Option (List Char)) : Prop where
  nested : ∀ stack, left = some stack → (∀ x, N x → IsBare x) →
    unclosed [] text.toList = some stack
  avoids : left.isSome = true → ∀ word ∈ reservedWords, (∀ x, N x → Avoids word x) →
    ∀ rest, Avoids word rest → Avoids word (text ++ rest)

section Pieces

variable {N : String → Prop} {a x : String} {cs stack : List Char} {left : Option (List Char)}

theorem reservedWords_ne_nil : ∀ word ∈ reservedWords, word ≠ [] := by decide

theorem avoids_empty : ∀ word ∈ reservedWords, Avoids word "" := by decide

theorem begins_eq_some {after : List Char} : begins cs stack = some after ↔
    (∀ word ∈ reservedWords, beginsNowhere word cs = true) ∧ unclosed stack cs = some after := by
  rw [begins, Option.ite_none_right_eq_some, List.all_eq_true]

theorem joins_eq_some {after : List Char} : joins cs stack = some after ↔
    (∀ word ∈ reservedWords, separates word cs = true) ∧ unclosed stack cs = some after := by
  rw [joins, Option.ite_none_right_eq_some, List.all_eq_true]

theorem digits_toString (i : Int) : ∀ c ∈ (toString i).toList, c.isDigit = true ∨ c = '-' := by
  have digits (n : Nat) : ∀ c ∈ (toString n).toList, c.isDigit = true ∨ c = '-' := by
    intro c hc
    have chars : (toString n).toList = Nat.toDigits 10 n := Nat.toList_repr
    rw [chars] at hc
    exact .inl (Nat.isDigit_of_mem_toDigits (by decide) (by decide) hc)
  cases i with
  | ofNat n => exact digits n
  | negSucc n =>
    have chars : (toString (Int.negSucc n)).toList = '-' :: (toString (n + 1)).toList := by
      change ("-" ++ toString (n + 1)).toList = _
      simp
    rw [chars]
    exact List.forall_mem_cons.2 ⟨.inr rfl, digits (n + 1)⟩

theorem Composed.name (h : N x) : Composed N x :=
  ⟨fun bare => (bare x h).isNested, fun _ _ absent => absent x h⟩

namespace Begun

theorem start (cs : List Char) : Begun N (String.ofList cs) (begins cs []) := by
  refine ⟨fun stack left _ => ?_, fun left word hword _ rest absent => ?_⟩
  · rw [String.toList_ofList]
    exact (begins_eq_some.1 left).2
  · obtain ⟨stack, left⟩ := Option.isSome_iff_exists.1 left
    exact avoids_start ((begins_eq_some.1 left).1 word hword) absent

theorem first (hx : Composed N x) (cs : List Char) :
    Begun N (x ++ String.ofList cs) (joins cs []) := by
  refine ⟨fun stack left bare => ?_, fun left word hword absent rest behind => ?_⟩
  · rw [String.toList_append, unclosed_append, hx.nested bare, String.toList_ofList]
    exact (joins_eq_some.1 left).2
  · obtain ⟨stack, left⟩ := Option.isSome_iff_exists.1 left
    rw [String.append_assoc]
    exact avoids_between ((joins_eq_some.1 left).1 word hword) (hx.avoids word hword absent) behind

theorem name (h : Begun N a left) (hx : Composed N x) (cs : List Char) :
    Begun N (a ++ x ++ String.ofList cs) (left.bind (joins cs)) := by
  refine ⟨fun stack done bare => ?_, fun done word hword absent rest behind => ?_⟩
  · obtain ⟨before, isLeft, done⟩ := Option.bind_eq_some_iff.1 done
    rw [String.toList_append, String.toList_append, unclosed_append, unclosed_append,
      h.nested before isLeft bare, Option.bind_some, (hx.nested bare).unclosed, Option.bind_some,
      String.toList_ofList]
    exact (joins_eq_some.1 done).2
  · obtain ⟨stack, done⟩ := Option.isSome_iff_exists.1 done
    obtain ⟨before, isLeft, done⟩ := Option.bind_eq_some_iff.1 done
    rw [String.append_assoc, String.append_assoc]
    refine h.avoids (by rw [isLeft]; rfl) word hword absent _ ?_
    exact avoids_between ((joins_eq_some.1 done).1 word hword) (hx.avoids word hword absent) behind

theorem more (h : Begun N a left) (cs : List Char) :
    Begun N (a ++ String.ofList cs) (left.bind (begins cs)) := by
  refine ⟨fun stack done bare => ?_, fun done word hword absent rest behind => ?_⟩
  · obtain ⟨before, isLeft, done⟩ := Option.bind_eq_some_iff.1 done
    rw [String.toList_append, unclosed_append, h.nested before isLeft bare, Option.bind_some,
      String.toList_ofList]
    exact (begins_eq_some.1 done).2
  · obtain ⟨stack, done⟩ := Option.isSome_iff_exists.1 done
    obtain ⟨before, isLeft, done⟩ := Option.bind_eq_some_iff.1 done
    rw [String.append_assoc]
    refine h.avoids (by rw [isLeft]; rfl) word hword absent _ ?_
    exact avoids_start ((begins_eq_some.1 done).1 word hword) behind

theorem closed (h : Begun N a left) (closes : left = some []) : Composed N a := by
  refine ⟨h.nested [] closes, fun word hword absent => ?_⟩
  have whole := h.avoids (by rw [closes]; rfl) word hword absent "" (avoids_empty word hword)
  rwa [String.append_empty] at whole

theorem last (h : Begun N a left) (hx : Composed N x) (closes : left = some []) :
    Composed N (a ++ x) := by
  refine ⟨fun bare => ?_, fun word hword absent => ?_⟩
  · rw [IsNested, String.toList_append, unclosed_append, h.nested [] closes bare]
    exact hx.nested bare
  · exact h.avoids (by rw [closes]; rfl) word hword absent x (hx.avoids word hword absent)

end Begun

namespace Composed

theorem fixed (cs : List Char) (closes : begins cs [] = some []) : Composed N (String.ofList cs) :=
  (Begun.start cs).closed closes

theorem number (i : Int) : Composed N (toString i) := by
  have digits := digits_toString i
  refine ⟨fun _ => IsBare.isNested fun c hc => ?_, fun word hword _ => ?_⟩
  · cases bracket : isBracket c with
    | false => rfl
    | true =>
      have mark := isBracket_iff.1 bracket
      simp only [List.mem_cons, List.not_mem_nil, or_false] at mark
      rcases mark with rfl | rfl | rfl | rfl | rfl | rfl <;>
        exact absurd (digits _ hc) (by decide)
  · have letters : ∀ word ∈ reservedWords,
        word.any (fun c => !(c.isDigit || c = '-')) = true := by decide
    obtain ⟨c, hc, letter⟩ := List.any_eq_true.1 (letters word hword)
    refine avoids_of_not_mem hc fun mem => ?_
    rcases digits c mem with digit | minus
    · simp [digit] at letter
    · simp [minus] at letter

theorem intercalate {texts : List String} (h : ∀ text ∈ texts, Composed N text) :
    Composed N (", ".intercalate texts) := by
  induction texts with
  | nil => exact fixed [] (by decide)
  | cons a rest ih =>
    have ha := h a List.mem_cons_self
    have hrest := ih fun text ht => h text (List.mem_cons_of_mem a ht)
    cases rest with
    | nil => rwa [String.intercalate_singleton]
    | cons b rest =>
      rw [String.intercalate_cons_cons]
      exact (Begun.first ha _).last hrest (by decide)

end Composed

end Pieces

/-- Lines of which each is composed, or is one of the lines that `M` marks, with brackets that are
well nested over the lines. -/
structure Woven (N M : String → Prop) (texts : List String) : Prop where
  nested : (∀ x, N x → IsBare x) → ∀ stack, unclosed stack (texts.flatMap String.toList) = some stack
  avoids : ∀ word ∈ reservedWords, (∀ x, N x → Avoids word x) → ∀ x ∈ texts, Avoids word x ∨ M x

def Code.IsWoven (N M : String → Prop) (c : Code) : Prop := Woven N M c.texts

section Lines

variable {N M : String → Prop} {c d : Code} {x y : String} {texts texts' : List String}
  {left : Option (List Char)}

namespace Woven

theorem nil : Woven N M [] := ⟨fun _ _ => rfl, fun _ _ _ _ hx => absurd hx List.not_mem_nil⟩

theorem line (h : Composed N x) : Woven N M [x] := by
  refine ⟨fun bare stack => ?_, fun word hword absent => ?_⟩
  · rw [List.flatMap_singleton]
    exact (h.nested bare).unclosed stack
  · exact List.forall_mem_singleton.2 (.inl (h.avoids word hword absent))

theorem marked (h : M x) (nested : (∀ x, N x → IsBare x) → IsNested x) : Woven N M [x] := by
  refine ⟨fun bare stack => ?_, fun _ _ _ => List.forall_mem_singleton.2 (.inr h)⟩
  rw [List.flatMap_singleton]
  exact (nested bare).unclosed stack

theorem append (h : Woven N M texts) (h' : Woven N M texts') : Woven N M (texts ++ texts') := by
  refine ⟨fun bare stack => ?_, fun word hword absent => ?_⟩
  · rw [List.flatMap_append, unclosed_append, h.nested bare, Option.bind_some, h'.nested bare]
  · exact List.forall_mem_append.2 ⟨h.avoids word hword absent, h'.avoids word hword absent⟩

theorem enclosed {cs : List Char} (opening : Begun N x left) (h : Woven N M texts)
    (closes : left.bind (begins cs) = some []) :
    Woven N M ([x] ++ texts ++ [String.ofList cs]) := by
  obtain ⟨before, isLeft, closes⟩ := Option.bind_eq_some_iff.1 closes
  obtain ⟨starts, closes⟩ := begins_eq_some.1 closes
  refine ⟨fun bare stack => ?_, fun word hword absent => ?_⟩
  · rw [List.flatMap_append, List.flatMap_append, List.flatMap_singleton, List.flatMap_singleton,
      unclosed_append, unclosed_append, ← List.nil_append stack,
      unclosed_below (opening.nested before isLeft bare), Option.bind_some, h.nested bare,
      Option.bind_some, String.toList_ofList]
    exact unclosed_below closes
  · have above := opening.avoids (by rw [isLeft]; rfl) word hword absent "" (avoids_empty word hword)
    rw [String.append_empty] at above
    have below := avoids_ofList (starts word hword) (reservedWords_ne_nil word hword)
    exact List.forall_mem_append.2 ⟨List.forall_mem_append.2
      ⟨List.forall_mem_singleton.2 (.inl above), h.avoids word hword absent⟩,
      List.forall_mem_singleton.2 (.inl below)⟩

end Woven

namespace Code.IsWoven

theorem nil : IsWoven N M [] := Woven.nil

theorem append (h : IsWoven N M c) (h' : IsWoven N M d) : IsWoven N M (c ++ d) := by
  rw [IsWoven, texts_append]
  exact Woven.append h h'

theorem line (h : Composed N x) : IsWoven N M (Code.line x) := Woven.line h

theorem fixed (cs : List Char) (closes : begins cs [] = some []) :
    IsWoven N M (Code.line (String.ofList cs)) := line (.fixed cs closes)

theorem cons (hx : Composed N x) (h : IsWoven N M (Code.lines texts)) :
    IsWoven N M (Code.lines (x :: texts)) := (line hx).append h

theorem lines (h : ∀ x ∈ texts, Composed N x) : IsWoven N M (Code.lines texts) := by
  rw [IsWoven, texts_lines]
  induction texts with
  | nil => exact .nil
  | cons x xs ih =>
    exact (Woven.line (h x List.mem_cons_self)).append
      (ih fun y hy => h y (List.mem_cons_of_mem x hy))

theorem marked (h : ∀ x ∈ texts, M x ∧ ((∀ y, N y → IsBare y) → IsNested x)) :
    IsWoven N M (Code.lines texts) := by
  rw [IsWoven, texts_lines]
  induction texts with
  | nil => exact .nil
  | cons x xs ih =>
    obtain ⟨mark, nested⟩ := h x List.mem_cons_self
    exact (Woven.marked mark nested).append (ih fun y hy => h y (List.mem_cons_of_mem x hy))

theorem entries (h : ∀ x ∈ texts, Composed N x) :
    IsWoven N M (Code.lines (texts.map (· ++ ","))) := by
  refine lines fun entry hentry => ?_
  obtain ⟨x, hx, rfl⟩ := List.mem_map.1 hentry
  exact (Begun.first (h x hx) [',']).closed (by decide)

theorem unindented (h : ∀ x ∈ texts, Composed N x) : IsWoven N M (Code.unindented texts) := by
  have texts_eq : Code.texts (Code.unindented texts) = Code.texts (Code.lines texts) := by
    simp [Code.unindented, Code.lines, Code.texts]
  rw [IsWoven, texts_eq]
  exact lines h

theorem blank : IsWoven N M Code.blank := fixed [] (by decide)

theorem nest (h : IsWoven N M c) : IsWoven N M (Code.nest c) := by
  rw [IsWoven, texts_nest]
  exact h

theorem given (b : Bool) (h : IsWoven N M c) : IsWoven N M (Code.given b c) := by
  cases b with
  | false => exact nil
  | true => exact h

theorem apart (h : IsWoven N M c) : IsWoven N M (Code.apart c) := by
  rw [Code.apart]
  split
  · exact nil
  · exact blank.append h

theorem flatMap {α : Type} {as : List α} {f : α → Code} (h : ∀ a ∈ as, IsWoven N M (f a)) :
    IsWoven N M (as.flatMap f) := by
  induction as with
  | nil => exact nil
  | cons a as ih =>
    rw [List.flatMap_cons]
    exact (h a List.mem_cons_self).append (ih fun b hb => h b (List.mem_cons_of_mem a hb))

theorem spaced {pieces : List Code} (h : ∀ c ∈ pieces, IsWoven N M c) :
    IsWoven N M (Code.spaced pieces) := flatMap fun c hc => blank.append (h c hc)

theorem separated {pieces : List Code} (h : ∀ c ∈ pieces, IsWoven N M c) :
    IsWoven N M (Code.separated pieces) := by
  cases pieces with
  | nil => exact nil
  | cons c rest =>
    exact (h c List.mem_cons_self).append (spaced fun d hd => h d (List.mem_cons_of_mem c hd))

theorem getD {o : Option Code} (h : ∀ c ∈ o, IsWoven N M c) : IsWoven N M (o.getD []) := by
  cases o with
  | none => exact nil
  | some c => exact h c rfl

theorem enclosed {cs : List Char} (opening : Begun N x left) (h : IsWoven N M c)
    (closes : left.bind (begins cs) = some []) :
    IsWoven N M (Code.line x ++ c ++ Code.line (String.ofList cs)) := by
  rw [IsWoven, texts_append, texts_append]
  exact Woven.enclosed opening h closes

theorem bracesEnding (cs : List Char) (h : IsWoven N M c)
    (closes : begins ('\x7d' :: cs) ['\x7d'] = some []) :
    IsWoven N M (Code.bracesEnding (String.ofList cs) c) := by
  have closing : "\x7d" ++ String.ofList cs = String.ofList ('\x7d' :: cs) := by
    rw [← String.toList_inj]
    simp
  rw [Code.bracesEnding, closing]
  exact enclosed (.start ['\x7b']) h.nest closes

theorem braces (h : IsWoven N M c) : IsWoven N M (Code.braces c) :=
  bracesEnding [] h (by decide)

theorem block (header : Composed N x) (h : IsWoven N M c) : IsWoven N M (Code.block x c) :=
  (line header).append h.braces

theorem blockEnding (header : Composed N x) (h : IsWoven N M c) :
    IsWoven N M (Code.blockEnding x ";" c) :=
  (line header).append (bracesEnding [';'] h (by decide))

end Code.IsWoven

end Lines

end InteropGen
