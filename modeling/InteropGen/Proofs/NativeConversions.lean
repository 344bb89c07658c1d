import InteropGen.Native.Shim
import InteropGen.Proofs.SpelledTypes
import InteropGen.Proofs.WrittenTypes

set_option autoImplicit false

/-!
# Conversions at the native side

The shim chooses a conversion by the shape that an argument has at the boundary, while the class
body spells the parameter by itself.  The conversion is always the one that the spelling asks for:
`*name` for a reference to a class, a decoded text for `const string&`, a vector of the same items
for a constant reference to a vector, and the name alone for everything else.
-/

namespace InteropGen

open Text

variable {s : Schema}

namespace Shape

def isConverted : Shape → Bool
  | «class» _ false => true
  | text _ => true
  | array _ => true
  | _ => false

end Shape

namespace Shim

/-- The parameter `name` is followed by the parameter with its count. -/
def IsCounted (flat : List Declared) (name : String) : Prop :=
  ∃ before d after,
    flat = before ++ d :: .plain "int" (Declared.countName name) :: after ∧ d.name = name

/-- The argument is what the class body asks for, where it spells the parameter as `spelled`. -/
inductive Argument.Fits (s : Schema) (flat : List Declared) (p : Parameter) (spelled : String) :
    Argument → Prop where
  | reference (t : ApiType) (shape : s.shapeOf p.type = .ok (.class t false))
      (spelling : spelled = t.name ++ "&") : Fits s flat p spelled (.dereferenced p.name)
  | text (isNullable : Bool) (shape : s.shapeOf p.type = .ok (.text isNullable))
      (spelling : spelled = "const string&") : Fits s flat p spelled (.decoded p.name)
  | vector (element : Shape) (item : String) (shape : s.shapeOf p.type = .ok (.array element))
      (spelling : spelled = "const std::vector<" ++ item ++ ">&")
      (counted : IsCounted flat p.name) :
      Fits s flat p spelled (.gathered ("std::vector<" ++ item ++ ">") p.name)
  | value (shape : Shape) (native : Spelling) (shape_ok : s.shapeOf p.type = .ok shape)
      (unconverted : shape.isConverted = false)
      (native_ok : shape.native .argument = .ok native) (spelling : spelled = native.literal) :
      Fits s flat p spelled (.asIs p.name)

inductive ArgumentsFit (s : Schema) (flat : List Declared) :
    List Parameter → List Declared → List Argument → Prop where
  | nil : ArgumentsFit s flat [] [] []
  | cons {p : Parameter} {d : Declared} {a : Argument} {ps : List Parameter} {ds : List Declared}
      {as : List Argument} (name : d.name = p.name) (fits : a.Fits s flat p d.spelling.literal)
      (rest : ArgumentsFit s flat ps ds as) : ArgumentsFit s flat (p :: ps) (d :: ds) (a :: as)

/-- The answer is what the class body gives, where it spells the result as `spelled`. -/
inductive Answer.Fits (s : Schema) (type : TypeRef) (spelled : String) : Answer → Prop where
  | reference (t : ApiType) (shape : s.shapeOf type = .ok (.class t false))
      (spelling : spelled = t.name ++ "&") : Fits s type spelled .addressed
  | text (isNullable : Bool) (shape : s.shapeOf type = .ok (.text isNullable))
      (spelling : spelled = "string") : Fits s type spelled .encoded
  | nothing (shape : s.shapeOf type = .ok .void) (spelling : spelled = "void") :
      Fits s type spelled .dropped
  | value (shape : Shape) (native : Spelling) (shape_ok : s.shapeOf type = .ok shape)
      (kept : answerOf shape = .asIs) (native_ok : shape.native .result = .ok native)
      (spelling : spelled = native.literal) : Fits s type spelled .asIs

theorem IsCounted.append {flat : List Declared} {name : String} (h : IsCounted flat name)
    (ds : List Declared) : IsCounted (ds ++ flat) name := by
  obtain ⟨before, d, after, rfl, eq⟩ := h
  exact ⟨ds ++ before, d, after, (List.append_assoc _ _ _).symm, eq⟩

end Shim

section Texts

def IsReference (spelled : String) : Prop :=
  ∃ name : String, isIdentifier name.toList = true ∧ spelled = name ++ "&"

def IsVectorReference (spelled : String) : Prop :=
  ∃ item, spelled = "const std::vector<" ++ item ++ ">&"

theorem blank_not_mem_identifier {name : String} (h : isIdentifier name.toList = true) :
    ' ' ∉ name.toList := (isWord_of_isIdentifier h).not_mem (by decide) (by simp)

theorem amp_not_mem_identifier {name : String} (h : isIdentifier name.toList = true) :
    '&' ∉ name.toList := (isWord_of_isIdentifier h).not_mem (by decide) (by simp)

theorem not_reference_of_blank {spelled : String} (h : ' ' ∈ spelled.toList) :
    ¬IsReference spelled := by
  rintro ⟨name, identifier, rfl⟩
  rw [String.toList_append, List.mem_append] at h
  rcases h with h | h
  · exact blank_not_mem_identifier identifier h
  · exact absurd h (by decide)

theorem blank_mem_vectorReference {spelled : String} (h : IsVectorReference spelled) :
    ' ' ∈ spelled.toList := by
  obtain ⟨item, rfl⟩ := h
  simp

theorem amp_mem_reference {spelled : String} (h : IsReference spelled) : '&' ∈ spelled.toList := by
  obtain ⟨name, _, rfl⟩ := h
  simp

theorem amp_mem_vectorReference {spelled : String} (h : IsVectorReference spelled) :
    '&' ∈ spelled.toList := by
  obtain ⟨item, rfl⟩ := h
  simp

def Shape.HasNames (shape : Shape) : Prop :=
  shape.All fun t => isIdentifier t.name.toList = true ∧ t.name ≠ "void" ∧ t.name ≠ "string"

theorem TypeRef.HasNames.shapeOf {type : TypeRef} (names : type.HasNames) {shape : Shape}
    (h : s.shapeOf type = .ok shape) : shape.HasNames := by
  induction type generalizing shape with
  | void => cases h; trivial
  | primitive p => cases h; trivial
  | text => cases h; trivial
  | named name =>
    rw [Schema.shapeOf] at h
    split at h
    · rename_i t ht
      have eq := Schema.name_of_get? ht
      cases h
      rw [Shape.ofDeclared]
      rw [← eq] at names
      split <;> exact names
    · cases h
  | nullable inner ih =>
    obtain ⟨shape', hshape, h⟩ := bind_eq_ok.1 h
    exact Shape.all_nullableOf (ih names hshape) h
  | array element ih =>
    obtain ⟨item, hitem, rfl⟩ := Schema.shapeOf_array h
    have mentioned : item.HasNames := ih names hitem
    exact mentioned
  | generic spelling => cases h

/-- What is handed over as it is has a spelling of none of the three forms. -/
theorem unconverted_spelling {shape : Shape} {native : Spelling} (names : shape.HasNames)
    (unconverted : shape.isConverted = false) (ok : shape.native .argument = .ok native) :
    ¬IsReference native.literal ∧ native.literal ≠ "const string&" ∧
      ¬IsVectorReference native.literal := by
  have withoutAmp (h : '&' ∉ native.literal.toList) : ¬IsReference native.literal ∧
      native.literal ≠ "const string&" ∧ ¬IsVectorReference native.literal := by
    refine ⟨fun ref => h (amp_mem_reference ref), fun eq => h ?_,
      fun ref => h (amp_mem_vectorReference ref)⟩
    rw [eq]
    decide
  cases shape with
  | void =>
    cases ok
    exact withoutAmp (by decide)
  | primitive p =>
    cases ok
    exact withoutAmp ((isOver_primitive_native p).not_mem (by decide) (by decide))
  | enum t =>
    cases ok
    exact withoutAmp (amp_not_mem_identifier names.1)
  | struct t =>
    cases ok
    refine ⟨not_reference_of_blank (by simp), fun eq => names.2.2 ?_, ?_⟩
    · have inner : "const " ++ t.name ++ "&" = "const " ++ "string" ++ "&" := eq
      rwa [String.append_left_inj, String.append_right_inj] at inner
    · -- The name of a struct holds no colon.
      rintro ⟨item, eq⟩
      have colon : ':' ∈ ("const " ++ t.name ++ "&").toList := by
        rw [show "const " ++ t.name ++ "&" = _ from eq]
        simp
      have word := isWord_of_isIdentifier names.1
      simp only [String.toList_append, List.mem_append] at colon
      rcases colon with (colon | colon) | colon
      · exact absurd colon (by decide)
      · exact word.not_mem (by decide) (by simp) colon
      · exact absurd colon (by decide)
  | «class» t isNullable =>
    cases isNullable with
    | false => cases unconverted
    | true =>
      cases ok
      refine withoutAmp fun mem => ?_
      have split : '&' ∈ (t.name ++ "*").toList := mem
      rw [String.toList_append, List.mem_append] at split
      exact split.elim (amp_not_mem_identifier names.1) (by decide)
  | nullableValue inner => cases ok
  | text isNullable => cases unconverted
  | array element => cases unconverted

/-- How an argument is handed over can be read off the text of the native parameter. -/
structure Shim.Argument.ReadsAs (flat : List Declared) (name spelled : String) (a : Argument) :
    Prop where
  dereferenced : a = .dereferenced name ↔ IsReference spelled
  decoded : a = .decoded name ↔ spelled = "const string&"
  gathered : ∀ item, a = .gathered ("std::vector<" ++ item ++ ">") name ↔
    spelled = "const std::vector<" ++ item ++ ">&" ∧ IsCounted flat name
  asIs : a = .asIs name ↔
    ¬IsReference spelled ∧ spelled ≠ "const string&" ∧ ¬IsVectorReference spelled

structure Shim.Answer.ReadsAs (spelled : String) (answer : Answer) : Prop where
  addressed : answer = .addressed ↔ IsReference spelled
  encoded : answer = .encoded ↔ spelled = "string"
  dropped : answer = .dropped ↔ spelled = "void"
  asIs : answer = .asIs ↔ ¬IsReference spelled ∧ spelled ≠ "string" ∧ spelled ≠ "void"

theorem text_ne_vectorReference (item : String) :
    "const string&" ≠ "const std::vector<" ++ item ++ ">&" := by
  intro eq
  have := congrArg String.toList eq
  simp at this

theorem Shim.Argument.Fits.readsAs {flat : List Declared} {p : Parameter} {spelled : String}
    {a : Argument} (fits : a.Fits s flat p spelled) (names : p.type.HasNames) :
    a.ReadsAs flat p.name spelled := by
  cases fits with
  | reference t shape spelling =>
    have identifier := (names.shapeOf shape).1
    have reference : IsReference spelled := ⟨t.name, identifier, spelling⟩
    have noBlank : ' ' ∉ spelled.toList := fun mem => not_reference_of_blank mem reference
    have notText : spelled ≠ "const string&" := by
      rintro rfl
      exact noBlank (by decide)
    have notVector : ¬IsVectorReference spelled := fun h => noBlank (blank_mem_vectorReference h)
    exact {
      dereferenced := iff_of_true rfl reference
      decoded := iff_of_false (by simp) notText
      gathered := fun item => iff_of_false (by simp) fun h => notVector ⟨item, h.1⟩
      asIs := iff_of_false (by simp) fun h => h.1 reference }
  | text isNullable shape spelling =>
    have notReference : ¬IsReference spelled := by
      rw [spelling]
      exact not_reference_of_blank (by decide)
    exact {
      dereferenced := iff_of_false (by simp) notReference
      decoded := iff_of_true rfl spelling
      gathered := fun item => iff_of_false (by simp) fun h =>
        text_ne_vectorReference item (spelling.symm.trans h.1)
      asIs := iff_of_false (by simp) fun h => h.2.1 spelling }
  | vector element item shape spelling counted =>
    have vector : IsVectorReference spelled := ⟨item, spelling⟩
    exact {
      dereferenced := iff_of_false (by simp)
        (not_reference_of_blank (blank_mem_vectorReference vector))
      decoded := iff_of_false (by simp) fun eq =>
        text_ne_vectorReference item (eq.symm.trans spelling)
      gathered := by
        intro other
        rw [spelling, String.append_left_inj, String.append_right_inj]
        constructor
        · intro eq
          rw [Argument.gathered.injEq, String.append_left_inj, String.append_right_inj] at eq
          exact ⟨eq.1, counted⟩
        · rintro ⟨rfl, _⟩
          rfl
      asIs := iff_of_false (by simp) fun h => h.2.2 vector }
  | value shape native shape_ok unconverted native_ok spelling =>
    rw [spelling]
    obtain ⟨notReference, notText, notVector⟩ :=
      unconverted_spelling (names.shapeOf shape_ok) unconverted native_ok
    exact {
      dereferenced := iff_of_false (by simp) notReference
      decoded := iff_of_false (by simp) notText
      gathered := fun item => iff_of_false (by simp) fun h => notVector ⟨item, h.1⟩
      asIs := iff_of_true rfl ⟨notReference, notText, notVector⟩ }

theorem kept_spelling {shape : Shape} {native : Spelling} (names : shape.HasNames)
    (kept : Shim.answerOf shape = .asIs) (ok : shape.native .result = .ok native) :
    ¬IsReference native.literal ∧ native.literal ≠ "string" ∧ native.literal ≠ "void" := by
  have named {name : String} (h : isIdentifier name.toList = true ∧ name ≠ "void" ∧
      name ≠ "string") : ¬IsReference name ∧ name ≠ "string" ∧ name ≠ "void" :=
    ⟨fun ref => amp_not_mem_identifier h.1 (amp_mem_reference ref), h.2.2, h.2.1⟩
  cases shape with
  | void => cases kept
  | primitive p =>
    cases ok
    refine ⟨fun ref => (isOver_primitive_native p).not_mem (by decide) (by decide)
      (amp_mem_reference ref), ?_, ?_⟩ <;> cases p <;> decide
  | enum t =>
    cases ok
    exact named names
  | struct t =>
    cases ok
    exact named names
  | «class» t isNullable =>
    cases isNullable with
    | false => cases kept
    | true =>
      cases ok
      have star : '*' ∈ (t.name ++ "*").toList := by simp
      refine ⟨fun ref => ?_, ?_, ?_⟩
      · have amp : '&' ∈ (t.name ++ "*").toList := amp_mem_reference ref
        rw [String.toList_append, List.mem_append] at amp
        exact amp.elim (amp_not_mem_identifier names.1) (by decide)
      · intro eq
        rw [show t.name ++ "*" = _ from eq] at star
        exact absurd star (by decide)
      · intro eq
        rw [show t.name ++ "*" = _ from eq] at star
        exact absurd star (by decide)
  | nullableValue inner => cases ok
  | text isNullable => cases kept
  | array element =>
    obtain ⟨item, _, ok⟩ := bind_eq_ok.1 ok
    cases ok
    refine ⟨?_, ?_, ?_⟩
    · rintro ⟨name, identifier, eq⟩
      have angle : '<' ∈ (name ++ "&").toList := by
        rw [← eq]
        simp
      rw [String.toList_append, List.mem_append] at angle
      exact angle.elim ((isWord_of_isIdentifier identifier).not_mem (by decide) (by simp))
        (by decide)
    · intro eq
      have chars := congrArg String.toList eq
      simp at chars
    · intro eq
      have chars := congrArg String.toList eq
      simp at chars

theorem Shim.Answer.Fits.readsAs {type : TypeRef} {spelled : String} {answer : Answer}
    (fits : answer.Fits s type spelled) (names : type.HasNames) : answer.ReadsAs spelled := by
  cases fits with
  | reference t shape spelling =>
    have reference : IsReference spelled := ⟨t.name, (names.shapeOf shape).1, spelling⟩
    have amp := amp_mem_reference reference
    have notText : spelled ≠ "string" := by
      rintro rfl
      exact absurd amp (by decide)
    have notVoid : spelled ≠ "void" := by
      rintro rfl
      exact absurd amp (by decide)
    exact {
      addressed := iff_of_true rfl reference
      encoded := iff_of_false (by simp) notText
      dropped := iff_of_false (by simp) notVoid
      asIs := iff_of_false (by simp) fun h => h.1 reference }
  | text isNullable shape spelling =>
    subst spelling
    exact {
      addressed := iff_of_false (by simp) fun ref => absurd (amp_mem_reference ref) (by decide)
      encoded := iff_of_true rfl rfl
      dropped := iff_of_false (by simp) (by decide)
      asIs := iff_of_false (by simp) fun h => h.2.1 rfl }
  | nothing shape spelling =>
    subst spelling
    exact {
      addressed := iff_of_false (by simp) fun ref => absurd (amp_mem_reference ref) (by decide)
      encoded := iff_of_false (by simp) (by decide)
      dropped := iff_of_true rfl rfl
      asIs := iff_of_false (by simp) fun h => h.2.2 rfl }
  | value shape native shape_ok kept native_ok spelling =>
    rw [spelling]
    obtain ⟨notReference, notText, notVoid⟩ :=
      kept_spelling (names.shapeOf shape_ok) kept native_ok
    exact {
      addressed := iff_of_false (by simp) notReference
      encoded := iff_of_false (by simp) notText
      dropped := iff_of_false (by simp) notVoid
      asIs := iff_of_true rfl ⟨notReference, notText, notVoid⟩ }

end Texts

end InteropGen
