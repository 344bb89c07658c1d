import InteropGen.Dialect.Declared
import InteropGen.Proofs.Success
import InteropGen.Proofs.Words

set_option autoImplicit false

/-!
# Spelled types

The shape of a type mentions declared types only, and a spelling is made of their names, of fixed
words and of a few marks.  So a spelling never holds a comma or a line feed, and no result is spelled
with a parenthesis.
-/

namespace InteropGen

open Text

namespace Shape

/-- All types that the shape mentions have the property. -/
def All (P : ApiType → Prop) : Shape → Prop
  | struct t => P t
  | enum t => P t
  | «class» t _ => P t
  | nullableValue inner => inner.All P
  | array element => element.All P
  | _ => True

theorem All.imp {P Q : ApiType → Prop} (imp : ∀ t, P t → Q t) {shape : Shape} (h : shape.All P) :
    shape.All Q := by
  induction shape with
  | struct t => exact imp t h
  | enum t => exact imp t h
  | «class» t _ => exact imp t h
  | nullableValue inner ih => exact ih h
  | array element ih => exact ih h
  | void => trivial
  | primitive _ => trivial
  | text _ => trivial

theorem all_nullableOf {P : ApiType → Prop} {type : TypeRef} {inner shape : Shape}
    (h : inner.All P) (ok : nullableOf type inner = .ok shape) : shape.All P := by
  cases inner <;> cases ok <;> exact h

end Shape

namespace Schema

variable {s : Schema} {dialect : Dialect} {position : Position} {type : TypeRef}

theorem shape_eq_ok {shape : Shape} :
    s.shape dialect type = .ok shape ↔ s.shapeOf type = .ok shape := mapError_eq_ok

theorem resolve_eq_ok {spelling : Spelling} :
    s.resolve dialect position type = .ok spelling ↔
      ∃ shape, s.shapeOf type = .ok shape ∧ shape.spell dialect position = .ok spelling := by
  rw [resolve, mapError_eq_ok, spell, bind_eq_ok]
  simp only [mapError_eq_ok]

theorem literal_eq_ok {literal : String} :
    s.literal dialect position type = .ok literal ↔
      ∃ spelling, s.resolve dialect position type = .ok spelling ∧ spelling.literal = literal :=
  map_eq_ok

theorem shapeOf_array {element : TypeRef} {shape : Shape}
    (h : s.shapeOf (.array element) = .ok shape) :
    ∃ item, s.shapeOf element = .ok item ∧ shape = .array item := by
  cases element with
  | array e => cases h
  | nullable e => cases h
  | void => cases h
  | primitive p => exact (map_eq_ok.1 h).imp fun _ h => ⟨h.1, h.2.symm⟩
  | text => exact (map_eq_ok.1 h).imp fun _ h => ⟨h.1, h.2.symm⟩
  | named name => exact (map_eq_ok.1 h).imp fun _ h => ⟨h.1, h.2.symm⟩
  | generic spelling => exact (map_eq_ok.1 h).imp fun _ h => ⟨h.1, h.2.symm⟩

theorem isArray_shapeOf {shape : Shape} (h : s.shapeOf type = .ok shape) :
    type.isArray = shape.isArray := by
  cases type with
  | array element =>
    obtain ⟨item, _, rfl⟩ := shapeOf_array h
    rfl
  | nullable inner =>
    obtain ⟨shape', _, h⟩ := bind_eq_ok.1 h
    cases shape' <;> cases h <;> rfl
  | named name =>
    unfold shapeOf at h
    split at h
    · cases h
      unfold Shape.ofDeclared
      split <;> rfl
    · cases h
  | void | primitive _ | text => cases h; rfl
  | generic spelling => cases h

theorem all_shapeOf {shape : Shape} (h : s.shapeOf type = .ok shape) :
    shape.All (· ∈ s.types) := by
  induction type generalizing shape with
  | void => cases h; trivial
  | primitive p => cases h; trivial
  | text => cases h; trivial
  | named name =>
    rw [shapeOf] at h
    split at h
    · rename_i t ht
      have mem := mem_of_get? ht
      cases h
      rw [Shape.ofDeclared]
      split <;> exact mem
    · cases h
  | nullable inner ih =>
    obtain ⟨shape', hshape, h⟩ := bind_eq_ok.1 h
    exact Shape.all_nullableOf (ih hshape) h
  | array element ih =>
    obtain ⟨item, hitem, rfl⟩ := shapeOf_array h
    have mentioned : item.All (· ∈ s.types) := ih hitem
    exact mentioned
  | generic spelling => cases h

end Schema

def spellingMarks : String := " *&?[]<>:()."

theorem isOver_primitive_managed (p : Primitive) : IsWord p.managed := by
  cases p <;> decide

theorem isOver_primitive_native (p : Primitive) : IsOver " *" p.native := by
  cases p <;> decide

section Spellings

variable {position : Position} {shape : Shape} {spelling : Spelling}

theorem IsWord.append_over {marks a b : String} (ha : IsWord a) (hb : IsOver marks b) :
    IsOver marks (a ++ b) := isOver_append.2 ⟨ha.over, hb⟩

theorem isOver_managed (h : shape.All fun t => IsWord t.name) :
    IsOver "?[]" (shape.managed position).literal := by
  induction shape generalizing position with
  | void => exact (by decide : IsOver "?[]" "void")
  | primitive p => exact (isOver_primitive_managed p).over
  | text isNullable => cases isNullable <;> cases position <;> decide
  | struct t => exact IsWord.over h
  | enum t => exact IsWord.over h
  | «class» t isNullable =>
    rw [Shape.managed]
    split
    · exact IsWord.append_over h (by decide)
    · exact IsWord.over h
  | nullableValue inner ih => exact isOver_append.2 ⟨ih h, by decide⟩
  | array element ih => exact isOver_append.2 ⟨ih h, by decide⟩

theorem isWord_binding_result (h : shape.All fun t => IsWord t.name)
    (ok : shape.binding .result = .ok spelling) : IsWord spelling.literal := by
  cases shape with
  | void => cases ok; decide
  | primitive p =>
    cases p with
    | bool => cases ok; decide
    | _ => cases ok; exact isOver_primitive_managed _
  | text isNullable => cases ok; decide
  | struct t => cases ok; exact h
  | enum t => cases ok; exact h
  | «class» t isNullable => cases ok; exact (by decide : IsWord "IntPtr")
  | nullableValue inner => cases ok
  | array element => cases ok

theorem isOver_binding (h : shape.All fun t => IsWord t.name)
    (ok : shape.binding position = .ok spelling) : IsOver "[](). " spelling.literal := by
  cases shape with
  | void => cases ok; decide
  | primitive p =>
    cases p with
    | bool => cases position <;> cases ok <;> decide
    | _ => cases ok; exact (isOver_primitive_managed _).over
  | text isNullable => cases position <;> cases ok <;> decide
  | struct t => cases ok; exact IsWord.over h
  | enum t => cases ok; exact IsWord.over h
  | «class» t isNullable => cases ok; exact (by decide : IsOver "[](). " "IntPtr")
  | nullableValue inner => cases ok
  | array element =>
    cases position with
    | declaration => cases ok
    | result => cases ok
    | argument =>
      obtain ⟨item, hitem, ok⟩ := bind_eq_ok.1 ok
      cases element with
      | «class» t isNullable =>
        cases hitem
        cases ok
        exact (by decide : IsOver "[](). " "IntPtr[]")
      | primitive p =>
        cases p with
        | bool => cases hitem
        | _ =>
          cases hitem
          cases ok
          exact IsWord.append_over (isOver_primitive_managed _) (by decide)
      | struct t => cases hitem; cases ok; exact IsWord.append_over h (by decide)
      | enum t => cases hitem; cases ok; exact IsWord.append_over h (by decide)
      | _ => cases hitem <;> cases ok

theorem isOver_flat (h : shape.All fun t => IsWord t.name)
    (ok : shape.flat position = .ok spelling) : IsOver " *" spelling.literal := by
  cases shape with
  | void => cases ok; decide
  | primitive p =>
    cases p with
    | bool => cases ok; decide
    | _ => cases ok; exact isOver_primitive_native _
  | text isNullable => cases position <;> cases ok <;> decide
  | struct t => cases ok; exact IsWord.over h
  | enum t => cases ok; exact IsWord.over h
  | «class» t isNullable =>
    cases position <;> cases ok
    · exact IsWord.over h
    · exact IsWord.append_over h (by decide)
    · exact IsWord.append_over h (by decide)
  | nullableValue inner => cases ok
  | array element =>
    cases position with
    | declaration => cases ok
    | result => cases ok
    | argument =>
      obtain ⟨item, hitem, ok⟩ := bind_eq_ok.1 ok
      have constant {name : String} (hn : IsOver " *" name) :
          IsOver " *" ("const " ++ name ++ "*") :=
        isOver_append.2 ⟨isOver_append.2 ⟨by decide, hn⟩, by decide⟩
      cases element with
      | «class» t isNullable => cases hitem; cases ok; exact IsWord.append_over h (by decide)
      | primitive p =>
        cases p with
        | bool => cases hitem
        | _ => cases hitem; cases ok; exact constant (isOver_primitive_native _)
      | struct t => cases hitem; cases ok; exact constant (IsWord.over h)
      | enum t => cases hitem; cases ok; exact constant (IsWord.over h)
      | _ => cases hitem <;> cases ok

theorem isOver_nativeElement (h : shape.All fun t => IsWord t.name)
    (ok : shape.nativeElement = .ok spelling) : IsOver " *" spelling.literal := by
  cases shape with
  | primitive p => cases ok; exact isOver_primitive_native p
  | text isNullable => cases ok; decide
  | struct t => cases ok; exact IsWord.over h
  | enum t => cases ok; exact IsWord.over h
  | «class» t isNullable => cases ok; exact IsWord.append_over h (by decide)
  | _ => cases ok

theorem isOver_native (h : shape.All fun t => IsWord t.name)
    (ok : shape.native position = .ok spelling) : IsOver " *&<>:" spelling.literal := by
  cases shape with
  | void => cases ok; decide
  | primitive p => cases ok; exact (isOver_primitive_native p).mono (by decide)
  | text isNullable => cases position <;> cases ok <;> decide
  | struct t =>
    cases position <;> cases ok
    · exact IsWord.over h
    · exact isOver_append.2 ⟨isOver_append.2 ⟨by decide, IsWord.over h⟩, by decide⟩
    · exact IsWord.over h
  | enum t => cases ok; exact IsWord.over h
  | «class» t isNullable =>
    cases position <;> cases isNullable <;> cases ok
    · exact IsWord.over h
    · exact IsWord.over h
    all_goals exact IsWord.append_over h (by decide)
  | nullableValue inner => cases ok
  | array element =>
    obtain ⟨item, hitem, ok⟩ := bind_eq_ok.1 ok
    have mentioned : element.All fun t => IsWord t.name := h
    have inner : IsOver " *&<>:" item.literal :=
      (isOver_nativeElement mentioned hitem).mono (by decide)
    cases position <;> cases ok
    · exact isOver_append.2 ⟨isOver_append.2 ⟨by decide, inner⟩, by decide⟩
    · exact isOver_append.2 ⟨isOver_append.2 ⟨by decide, inner⟩, by decide⟩

theorem isOver_spell {dialect : Dialect} (h : shape.All fun t => IsWord t.name)
    (ok : shape.spell dialect position = .ok spelling) :
    IsOver spellingMarks spelling.literal := by
  cases dialect with
  | managed =>
    cases ok
    exact (isOver_managed h).mono (by decide)
  | binding => exact (isOver_binding h ok).mono (by decide)
  | native => exact (isOver_native h ok).mono (by decide)
  | flat => exact (isOver_flat h ok).mono (by decide)

def Spelling.IncludesClean (spelling : Spelling) : Prop := ∀ i ∈ spelling.include, IsOneLine i

theorem includesClean_none {literal : String} : Spelling.IncludesClean ⟨literal, none⟩ :=
  fun _ h => nomatch h

theorem includesClean_some {literal file : String} (h : IsOneLine file) :
    Spelling.IncludesClean ⟨literal, some file⟩ := by
  intro i hi
  cases hi
  exact h

theorem isOneLine_header {t : ApiType} (h : IsWord t.name) : IsOneLine t.header :=
  h.isOneLine.suffixed (by decide)

theorem includesClean_flat (h : shape.All fun t => IsWord t.name)
    (ok : shape.flat position = .ok spelling) : spelling.IncludesClean := by
  cases shape with
  | primitive p => cases p <;> cases ok <;> exact includesClean_none
  | «class» t isNullable => cases ok; exact includesClean_some (isOneLine_header h)
  | nullableValue inner => cases ok
  | array element =>
    cases position with
    | declaration => cases ok
    | result => cases ok
    | argument =>
      obtain ⟨item, hitem, ok⟩ := bind_eq_ok.1 ok
      cases element with
      | «class» t isNullable =>
        cases hitem
        cases ok
        exact includesClean_some (isOneLine_header h)
      | primitive p => cases p <;> cases hitem <;> cases ok <;> exact includesClean_none
      | _ => cases hitem <;> cases ok <;> exact includesClean_none
  | _ => cases ok; exact includesClean_none

end Spellings

namespace Schema.HasIdentifiers

variable {s : Schema} {dialect : Dialect} {position : Position} {type : TypeRef}
  (names : s.HasIdentifiers)
include names

theorem isWord_name {t : ApiType} (ht : t ∈ s.types) : IsWord t.name :=
  isWord_of_isIdentifier (names t ht).name

theorem all_isWord {shape : Shape} (h : s.shapeOf type = .ok shape) :
    shape.All fun t => IsWord t.name :=
  (all_shapeOf h).imp fun _ ht => names.isWord_name ht

theorem isOver_resolve {spelling : Spelling} (h : s.resolve dialect position type = .ok spelling) :
    IsOver spellingMarks spelling.literal := by
  obtain ⟨shape, hshape, ok⟩ := resolve_eq_ok.1 h
  exact isOver_spell (names.all_isWord hshape) ok

theorem isWord_resolve_binding {spelling : Spelling}
    (h : s.resolve .binding .result type = .ok spelling) : IsWord spelling.literal := by
  obtain ⟨shape, hshape, ok⟩ := resolve_eq_ok.1 h
  exact isWord_binding_result (names.all_isWord hshape) ok

theorem isOver_resolve_flat {spelling : Spelling}
    (h : s.resolve .flat position type = .ok spelling) : IsOver " *" spelling.literal := by
  obtain ⟨shape, hshape, ok⟩ := resolve_eq_ok.1 h
  exact isOver_flat (names.all_isWord hshape) ok

theorem includesClean_resolve_flat {spelling : Spelling}
    (h : s.resolve .flat position type = .ok spelling) : spelling.IncludesClean := by
  obtain ⟨shape, hshape, ok⟩ := resolve_eq_ok.1 h
  exact includesClean_flat (names.all_isWord hshape) ok

end Schema.HasIdentifiers

end InteropGen
