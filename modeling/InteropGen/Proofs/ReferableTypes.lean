import InteropGen.Proofs.Outlines
import InteropGen.Proofs.TypeTexts

set_option autoImplicit false

/-!
# Declared types that can be referred to

A type reference mentions at most one declared type, which look-up finds by its name.  In a valid
schema the name stands for that type alone, but nothing keeps it from being a keyword, which is read
as the built-in type, or a text that is no identifier and that no reference holds.
-/

namespace InteropGen

open Text

namespace TypeRef

/-- The declared type that is named, looking through `?` and `[]`. -/
def mentioned? : TypeRef → Option String
  | named name => some name
  | nullable inner => inner.mentioned?
  | array element => element.mentioned?
  | void | primitive _ | text | generic _ => none

theorem isWellFormed_of_mentioned {type : TypeRef} {name : String} (h : type.IsWellFormed)
    (mentions : type.mentioned? = some name) : (named name).IsWellFormed := by
  induction type with
  | named other =>
    cases mentions
    exact h
  | nullable inner ih => exact ih h.1 mentions
  | array element ih => exact ih h.1 mentions
  | void | primitive _ | text | generic _ => cases mentions

theorem parse_keyword {word : String} (h : IsKeyword word) :
    ∃ type, parse word = .ok type ∧ type.mentioned? = none := by
  rcases h with rfl | rfl | ⟨p, rfl⟩
  · exact ⟨void, parse_display_of_isWellFormed (t := void) trivial, rfl⟩
  · exact ⟨text, parse_display_of_isWellFormed (t := text) trivial, rfl⟩
  · refine ⟨primitive p, ?_, rfl⟩
    have read := parse_display_of_isWellFormed (t := primitive p) trivial
    rwa [display, displayChars, String.ofList_toList] at read

end TypeRef

namespace Shape

def declared? : Shape → Option ApiType
  | struct t | enum t | «class» t _ => some t
  | nullableValue inner => inner.declared?
  | array element => element.declared?
  | void | primitive _ | text _ => none

theorem declared_ofDeclared (t : ApiType) : (ofDeclared t).declared? = some t := by
  unfold ofDeclared
  split <;> rfl

theorem declared_of_nullableOf {type : TypeRef} {inner shape : Shape}
    (ok : nullableOf type inner = .ok shape) : shape.declared? = inner.declared? := by
  cases inner <;> cases ok <;> rfl

end Shape

variable {s : Schema} {t : ApiType}

namespace Schema

/-- Look-up by name is all that a shape takes from the schema. -/
theorem declared_of_shapeOf {type : TypeRef} {shape : Shape} (h : s.shapeOf type = .ok shape) :
    shape.declared? = type.mentioned?.bind s.get? := by
  induction type generalizing shape with
  | named name =>
    rw [shapeOf] at h
    split at h
    · rename_i u found
      cases h
      exact (Shape.declared_ofDeclared u).trans found.symm
    · cases h
  | nullable inner ih =>
    obtain ⟨shape', hshape, h⟩ := bind_eq_ok.1 h
    exact (Shape.declared_of_nullableOf h).trans (ih hshape)
  | array element ih =>
    obtain ⟨item, hitem, rfl⟩ := shapeOf_array h
    have found : item.declared? = element.mentioned?.bind s.get? := ih hitem
    exact found
  | void | primitive _ | text =>
    cases h
    rfl
  | generic spelling => cases h

theorem declared_eq_some_iff (unique : (s.types.map ApiType.name).Nodup) (ht : t ∈ s.types)
    {type : TypeRef} {shape : Shape} (h : s.shapeOf type = .ok shape) :
    shape.declared? = some t ↔ type.mentioned? = some t.name := by
  rw [declared_of_shapeOf h]
  constructor
  · intro found
    obtain ⟨name, mentions, found⟩ := Option.bind_eq_some_iff.1 found
    rw [mentions, name_of_get? found]
  · intro mentions
    rw [mentions, Option.bind_some, get?_of_mem unique ht]

end Schema

/-- The name can be written where a type is referred to. -/
def ApiType.IsReferable (t : ApiType) : Prop :=
  isIdentifier t.name.toList = true ∧ ¬ TypeRef.IsKeyword t.name

namespace ApiType

theorem isReferable_of_mentioned {text : String} {type : TypeRef}
    (read : TypeRef.parse text = .ok type) (mentions : type.mentioned? = some t.name) :
    t.IsReferable :=
  TypeRef.isWellFormed_of_mentioned (TypeRef.isWellFormed_of_parse read).1 mentions

theorem IsReferable.parse_name (h : t.IsReferable) :
    TypeRef.parse t.name = .ok (.named t.name) := by
  have read := TypeRef.parse_display_of_isWellFormed (t := .named t.name) h
  rwa [TypeRef.display, TypeRef.displayChars, String.ofList_toList] at read

end ApiType

namespace Schema

/-- A declared type of a valid schema is what look-up finds for its name, and for no other.  Its name
is read as a reference to it, and any text at all is read as a reference that mentions it, exactly
when the name is an identifier and no keyword; a keyword is read as a built-in type. -/
theorem referable_iff (valid : s.validate = .ok ()) (ht : t ∈ s.types) :
    s.shapeOf (.named t.name) = .ok (.ofDeclared t) ∧
      (∀ type shape, s.shapeOf type = .ok shape →
        (shape.declared? = some t ↔ type.mentioned? = some t.name)) ∧
      (TypeRef.parse t.name = .ok (.named t.name) ↔ t.IsReferable) ∧
      ((∃ text type, TypeRef.parse text = .ok type ∧ type.mentioned? = some t.name) ↔
        t.IsReferable) ∧
      (TypeRef.IsKeyword t.name →
        ∃ type, TypeRef.parse t.name = .ok type ∧ type.mentioned? = none) := by
  have unique := s.nodup_names_of_validate valid
  refine ⟨?_, fun _ _ h => declared_eq_some_iff unique ht h, ⟨fun read => ?_, ?_⟩,
    ⟨?_, fun referable => ?_⟩, TypeRef.parse_keyword⟩
  · rw [shapeOf, get?_of_mem unique ht]
  · exact ApiType.isReferable_of_mentioned read rfl
  · exact ApiType.IsReferable.parse_name
  · rintro ⟨text, type, read, mentions⟩
    exact ApiType.isReferable_of_mentioned read mentions
  · exact ⟨t.name, .named t.name, referable.parse_name, rfl⟩

/-- The first class can be referred to, the second is hidden by a built-in type, and the name of the
third is no type reference. -/
def shadowed : Schema where
  types := [{ name := "Panel" }, { name := "int" }, { name := "two words" }]

theorem referable_iff_shadowed :
    shadowed.validate = .ok () ∧ { name := "Panel" } ∈ shadowed.types ∧
      shadowed.shapeOf (.named "Panel") = .ok (.class { name := "Panel" } false) ∧
      TypeRef.parse "Panel" = .ok (.named "Panel") := by
  have valid : shadowed.validate = .ok () := by decide
  have mem : { name := "Panel" } ∈ shadowed.types := by decide
  obtain ⟨found, _, read, _⟩ := referable_iff valid mem
  have word : ¬ TypeRef.IsKeyword "Panel" := by
    rw [TypeRef.isKeyword_iff]
    decide
  exact ⟨valid, mem, found, read.2 ⟨by decide, word⟩⟩

/-- A valid schema can declare types that no reference finds. -/
theorem unreferable_shadowed :
    shadowed.validate = .ok () ∧
      ({ name := "int" } ∈ shadowed.types ∧ TypeRef.parse "int" = .ok (.primitive .int) ∧
        shadowed.shapeOf (.primitive .int) = .ok (.primitive .int)) ∧
      ({ name := "two words" } ∈ shadowed.types ∧
        TypeRef.parse "two words" = .error ⟨"two words", .notIdentifier⟩) := by
  decide

end Schema

end InteropGen
