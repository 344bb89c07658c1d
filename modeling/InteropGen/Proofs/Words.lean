import Mathlib.Data.List.Basic
import InteropGen.Schema.Basic
import InteropGen.Text.Identifier

set_option autoImplicit false

/-!
# Words in generated lines

Generated lines are put together of fixed text and of declared names.  The names are words, made of
the characters of identifiers alone, so every other character of a line has been put there by the
generator.
-/

namespace InteropGen

namespace Text

/-- A text of identifier characters and of the given marks. -/
def IsOver (marks text : String) : Prop :=
  ∀ c ∈ text.toList, isIdentifierPart c = true ∨ c ∈ marks.toList

-- The instance is named, since characters can also be decided over all together.
instance (marks text : String) : Decidable (IsOver marks text) := List.decidableBAll _ _

/-- A text of identifier characters alone. -/
abbrev IsWord (text : String) : Prop := IsOver "" text

def IsOneLine (text : String) : Prop := '\n' ∉ text.toList

instance (text : String) : Decidable (IsOneLine text) :=
  inferInstanceAs (Decidable ('\n' ∉ text.toList))

section Over

variable {marks marks' a b text : String}

theorem isOver_append : IsOver marks (a ++ b) ↔ IsOver marks a ∧ IsOver marks b := by
  simp only [IsOver, String.toList_append, List.mem_append, or_imp, forall_and]

theorem IsOver.mono (h : IsOver marks text) (sub : marks.toList ⊆ marks'.toList) :
    IsOver marks' text := fun c hc => (h c hc).imp id fun hm => sub hm

theorem IsWord.over (h : IsWord text) : IsOver marks text :=
  h.mono fun _ hc => absurd hc (by simp)

theorem IsOver.not_mem (h : IsOver marks text) {c : Char} (hc : isIdentifierPart c = false)
    (hm : c ∉ marks.toList) : c ∉ text.toList := by
  intro mem
  rcases h c mem with hp | hp
  · rw [hc] at hp
    cases hp
  · exact hm hp

theorem IsOver.isOneLine (h : IsOver marks text) (hm : '\n' ∉ marks.toList) : IsOneLine text :=
  h.not_mem (by decide) hm

theorem IsWord.isOneLine (h : IsWord text) : IsOneLine text := IsOver.isOneLine h (by decide)

theorem isWord_of_isIdentifier (h : isIdentifier text.toList = true) : IsWord text := by
  intro c hc
  left
  cases hl : text.toList with
  | nil =>
    rw [hl] at hc
    cases hc
  | cons d ds =>
    rw [hl, isIdentifier_cons, Bool.and_eq_true, List.all_eq_true] at h
    rw [hl, List.mem_cons] at hc
    rcases hc with rfl | hc
    · exact isIdentifierPart_of_start h.1
    · exact h.2 c hc

end Over

@[simp] theorem isOneLine_append {a b : String} :
    IsOneLine (a ++ b) ↔ IsOneLine a ∧ IsOneLine b := by
  simp only [IsOneLine, String.toList_append, List.mem_append, not_or]

theorem isOneLine_ofList {cs : List Char} (h : '\n' ∉ cs) : IsOneLine (String.ofList cs) := by
  rwa [IsOneLine, String.toList_ofList]

theorem IsOneLine.prefixed {text : String} {cs : List Char} (h : IsOneLine text) (front : '\n' ∉ cs) :
    IsOneLine (String.ofList cs ++ text) := isOneLine_append.2 ⟨isOneLine_ofList front, h⟩

theorem IsOneLine.suffixed {text : String} {cs : List Char} (h : IsOneLine text) (back : '\n' ∉ cs) :
    IsOneLine (text ++ String.ofList cs) := isOneLine_append.2 ⟨h, isOneLine_ofList back⟩

theorem isOver_intercalate {marks sep : String} {texts : List String} (hsep : IsOver marks sep)
    (h : ∀ text ∈ texts, IsOver marks text) : IsOver marks (sep.intercalate texts) := by
  induction texts with
  | nil => exact fun c hc => absurd hc (by simp)
  | cons a rest ih =>
    have ha := h a List.mem_cons_self
    have hrest := ih fun text ht => h text (List.mem_cons_of_mem a ht)
    cases rest with
    | nil => rwa [String.intercalate_singleton]
    | cons b rest =>
      rw [String.intercalate_cons_cons]
      exact isOver_append.2 ⟨isOver_append.2 ⟨ha, hsep⟩, hrest⟩

theorem isOneLine_intercalate {sep : String} {texts : List String} (hsep : IsOneLine sep)
    (h : ∀ text ∈ texts, IsOneLine text) : IsOneLine (sep.intercalate texts) := by
  induction texts with
  | nil => simp [IsOneLine]
  | cons a rest ih =>
    have ha := h a List.mem_cons_self
    have hrest := ih fun text ht => h text (List.mem_cons_of_mem a ht)
    cases rest with
    | nil => rwa [String.intercalate_singleton]
    | cons b rest => rw [String.intercalate_cons_cons, isOneLine_append, isOneLine_append]
                     exact ⟨⟨ha, hsep⟩, hrest⟩

/-- The first character that no identifier has. -/
def firstMark (cs : List Char) : Option Char := cs.find? fun c => !isIdentifierPart c

theorem firstMark_word {text : String} (h : IsWord text) (c : Char) (rest : List Char)
    (hc : isIdentifierPart c = false) : firstMark (text.toList ++ c :: rest) = some c := by
  have none : text.toList.find? (fun c => !isIdentifierPart c) = none := by
    rw [List.find?_eq_none]
    intro d hd
    rcases h d hd with hp | hp
    · simp [hp]
    · simp at hp
  rw [firstMark, List.find?_append, none, Option.none_or, List.find?_cons]
  simp [hc]

theorem not_prefix_of_firstMark {start line : List Char} {c : Char} (hs : firstMark start = some c)
    (hl : firstMark line ≠ some c) : ¬ start <+: line := by
  rintro ⟨rest, rfl⟩
  apply hl
  rw [firstMark, List.find?_append]
  rw [firstMark] at hs
  rw [hs, Option.some_or]

end Text

open Text

namespace ApiType

/-- All names that the type declares are identifiers. -/
structure HasIdentifiers (t : ApiType) : Prop where
  name : isIdentifier t.name.toList = true
  properties : ∀ p ∈ t.properties, isIdentifier p.name.toList = true
  methods : ∀ m ∈ t.methods, isIdentifier m.name.toList = true
  parameters : ∀ m ∈ t.methods, ∀ p ∈ m.parameters, isIdentifier p.name.toList = true
  events : ∀ e ∈ t.events, isIdentifier e.name.toList = true
  fields : ∀ f ∈ t.fields, isIdentifier f.name.toList = true
  variants : ∀ v ∈ t.variants, isIdentifier v.name.toList = true

end ApiType

def Schema.HasIdentifiers (s : Schema) : Prop := ∀ t ∈ s.types, t.HasIdentifiers

end InteropGen
