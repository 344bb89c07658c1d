import InteropGen.Proofs.BaseChains
import InteropGen.Proofs.ValueLayout

set_option autoImplicit false

/-!
# The schemas that pass the check

A schema passes exactly when its names differ, each type declares what its kind allows, values have
room, and no class is above itself.  Names and shapes come before the inheritance, so a cycle is
reported for the first class from which the bases never end.
-/

namespace InteropGen

/-- The type declares what its kind allows, and its values have room. -/
structure ApiType.IsWellShaped (t : ApiType) : Prop where
  classParts : t.isClass = true → t.fields = [] ∧ t.variants = []
  structParts : t.isStruct = true →
    t.properties = [] ∧ t.methods = [] ∧ t.events = [] ∧ t.variants = [] ∧ t.managedServer = false
  enumParts : t.isEnum = true →
    t.properties = [] ∧ t.methods = [] ∧ t.events = [] ∧ t.fields = [] ∧ t.managedServer = false
  flags : t.flags = true → t.isEnum = true
  values : t.isEnum = true →
    ∀ v ∈ Variants.expected t.flags none t.variants, fitsInt64 v.2 = true

/-- Names differ and each type has a shape that its kind allows. -/
structure Schema.IsWellShaped (s : Schema) : Prop where
  names : (s.types.map ApiType.name).Nodup
  shapes : ∀ t ∈ s.types, t.IsWellShaped

/-- Besides, no class is above itself. -/
structure Schema.IsWellFormed (s : Schema) : Prop extends s.IsWellShaped where
  acyclic : ∀ t ∈ s.classes, ¬ Relation.TransGen s.HasBase t t

section Wording

theorem head?_append {text rest : String} {c : Char} (h : text.toList.head? = some c) :
    (text ++ rest).toList.head? = some c := by
  rw [String.toList_append, List.head?_append, h]
  rfl

theorem SchemaError.ofViolation_eq_iff {v : Violation} {name : String} :
    ofViolation v = ofViolation (.inheritanceCycle name) ↔ v = .inheritanceCycle name := by
  refine ⟨fun h => ?_, congrArg ofViolation⟩
  have other {wording : String} {c : Char} (head : wording.toList.head? = some c) (apart : c ≠ 'I') :
      invalid wording ≠ ofViolation (.inheritanceCycle name) := by
    intro same
    have cycle : wording = "Inheritance cycle through " ++ name := invalid.inj same
    rw [cycle, head?_append rfl] at head
    exact apart (Option.some.inj head).symm
  cases v with
  | duplicateName _ => cases h
  | classShape _ => exact absurd h (other (head?_append (head?_append rfl)) (by decide))
  | structShape _ => exact absurd h (other (head?_append (head?_append rfl)) (by decide))
  | enumShape _ => exact absurd h (other (head?_append (head?_append rfl)) (by decide))
  | flagsOutsideEnum _ => exact absurd h (other (head?_append rfl) (by decide))
  | variantOverflow _ _ =>
    exact absurd h
      (other (head?_append (head?_append (head?_append (head?_append rfl)))) (by decide))
  | inheritanceCycle other =>
    exact congrArg Violation.inheritanceCycle ((String.append_right_inj _).1 (invalid.inj h))

end Wording

namespace ApiType

variable {t : ApiType}

theorem hasMembers_eq_false :
    t.hasMembers = false ↔ t.properties = [] ∧ t.methods = [] ∧ t.events = [] := by
  simp [hasMembers, and_assoc]

theorem shapeViolation?_eq_none : t.shapeViolation? = none ↔
    (t.isClass = true → t.fields = [] ∧ t.variants = []) ∧
      (t.isStruct = true → t.properties = [] ∧ t.methods = [] ∧ t.events = [] ∧ t.variants = [] ∧
        t.managedServer = false) ∧
      (t.isEnum = true → t.properties = [] ∧ t.methods = [] ∧ t.events = [] ∧ t.fields = [] ∧
        t.managedServer = false) := by
  cases kind : t.kind with
  | classType => simp [shapeViolation?, isClass, isStruct, isEnum, kind]
  | structType =>
    simp [shapeViolation?, isClass, isStruct, isEnum, kind, hasMembers_eq_false, and_assoc]
  | enumType =>
    simp [shapeViolation?, isClass, isStruct, isEnum, kind, hasMembers_eq_false, and_assoc]

theorem flagsViolation?_eq_none :
    t.flagsViolation? = none ↔ (t.flags = true → t.isEnum = true) := by
  rw [flagsViolation?]
  cases t.flags <;> cases t.isEnum <;> simp

theorem variantViolation?_eq_none : t.variantViolation? = none ↔
    (t.isEnum = true → ∀ v ∈ Variants.expected t.flags none t.variants, fitsInt64 v.2 = true) := by
  rw [← t.succeeds_variantValues_iff, variantViolation?]
  cases isEnum : t.isEnum with
  | false => simp
  | true =>
    rw [if_pos rfl]
    cases resolved : t.variantValues with
    | ok values => exact iff_of_true rfl fun _ => .ok values
    | error variant =>
      refine iff_of_false (by simp) fun room => ?_
      obtain ⟨_, resolved⟩ := room rfl
      cases resolved

theorem violation?_eq_none : t.violation? = none ↔ t.IsWellShaped := by
  rw [violation?, Option.or_eq_none_iff, Option.or_eq_none_iff, shapeViolation?_eq_none,
    flagsViolation?_eq_none, variantViolation?_eq_none]
  constructor
  · rintro ⟨⟨classParts, structParts, enumParts⟩, flags, values⟩
    exact ⟨classParts, structParts, enumParts, flags, values⟩
  · rintro ⟨classParts, structParts, enumParts, flags, values⟩
    exact ⟨⟨classParts, structParts, enumParts⟩, flags, values⟩

theorem violation?_ne_inheritanceCycle (name : String) :
    t.violation? ≠ some (.inheritanceCycle name) := by
  intro h
  rcases Option.or_eq_some_iff.1 h with h | ⟨_, h⟩
  · rw [shapeViolation?] at h
    split at h <;> split at h <;> cases h
  · rcases Option.or_eq_some_iff.1 h with h | ⟨_, h⟩
    · rw [flagsViolation?] at h
      split at h <;> cases h
    · rw [variantViolation?] at h
      split at h
      · split at h <;> cases h
      · cases h

end ApiType

namespace Schema

variable {s : Schema}

theorem isWellShaped_iff : s.IsWellShaped ↔
    firstRepeated [] (s.types.map ApiType.name) = none ∧
      s.types.findSome? ApiType.violation? = none := by
  rw [firstRepeated_eq_none, List.findSome?_eq_none_iff]
  constructor
  · rintro ⟨names, shapes⟩
    exact ⟨⟨names, fun _ _ => List.not_mem_nil⟩, fun t ht => ApiType.violation?_eq_none.2 (shapes t ht)⟩
  · rintro ⟨⟨names, _⟩, shapes⟩
    exact ⟨names, fun t ht => ApiType.violation?_eq_none.1 (shapes t ht)⟩

theorem cycleViolation?_eq_none :
    s.cycleViolation? = none ↔ ∀ t ∈ s.classes, ¬ Relation.TransGen s.HasBase t t := by
  rw [acyclic_iff, cycleViolation?, Option.map_eq_none_iff, List.find?_eq_none]
  exact forall₂_congr fun t _ => not_congr hasEndlessChain_iff

theorem violation?_eq_none : s.violation? = none ↔ s.IsWellFormed := by
  rw [violation?, Option.or_eq_none_iff, Option.or_eq_none_iff, Option.map_eq_none_iff,
    cycleViolation?_eq_none, ← and_assoc, ← isWellShaped_iff]
  exact ⟨fun h => ⟨h.1, h.2⟩, fun h => ⟨h.1, h.2⟩⟩

/-- A cycle is reported for the first class from which the bases never end. -/
theorem cycleViolation?_eq_some {name : String} :
    s.cycleViolation? = some (.inheritanceCycle name) ↔
      ∃ before t behind, s.classes = before ++ t :: behind ∧ t.name = name ∧ s.IsEndless t ∧
        ∀ u ∈ before, ¬ s.IsEndless u := by
  simp only [cycleViolation?, Option.map_eq_some_iff, List.find?_eq_some_iff_append,
    hasEndlessChain_iff, Violation.inheritanceCycle.injEq, Bool.not_eq_true',
    ← Bool.not_eq_true]
  constructor
  · rintro ⟨t, ⟨endless, before, behind, eq, first⟩, named⟩
    exact ⟨before, t, behind, eq, named, endless, first⟩
  · rintro ⟨before, t, behind, eq, named, endless, first⟩
    exact ⟨t, ⟨endless, before, behind, eq, first⟩, named⟩

/-- Names and shapes come first. -/
theorem violation?_eq_inheritanceCycle {name : String} :
    s.violation? = some (.inheritanceCycle name) ↔
      s.IsWellShaped ∧ s.cycleViolation? = some (.inheritanceCycle name) := by
  rw [isWellShaped_iff, violation?]
  constructor
  · intro h
    rcases Option.or_eq_some_iff.1 h with repeated | ⟨names, h⟩
    · obtain ⟨_, _, eq⟩ := Option.map_eq_some_iff.1 repeated
      cases eq
    · rcases Option.or_eq_some_iff.1 h with shape | ⟨shapes, h⟩
      · obtain ⟨t, _, violated⟩ := List.exists_of_findSome?_eq_some shape
        exact absurd violated (t.violation?_ne_inheritanceCycle name)
      · exact ⟨⟨Option.map_eq_none_iff.1 names, shapes⟩, h⟩
  · rintro ⟨⟨names, shapes⟩, cycle⟩
    rw [names, shapes, cycle]
    rfl

theorem validate_eq_error {e : SchemaError} :
    s.validate = .error e ↔ ∃ v, s.violation? = some v ∧ SchemaError.ofViolation v = e := by
  rw [validate]
  cases s.violation? <;> simp

theorem validate_eq_inheritanceCycle {name : String} :
    s.validate = .error (.ofViolation (.inheritanceCycle name)) ↔
      s.IsWellShaped ∧ s.cycleViolation? = some (.inheritanceCycle name) := by
  rw [validate_eq_error, ← violation?_eq_inheritanceCycle]
  simp only [SchemaError.ofViolation_eq_iff, exists_eq_right]

theorem validate_eq_ok : s.validate = .ok () ↔ s.IsWellFormed := by
  rw [← violation?_eq_none, validate]
  cases s.violation? <;> simp

/-- In a schema that passes, every chain of bases ends, also that of a type that is no class. -/
theorem IsWellFormed.not_isEndless (h : s.IsWellFormed) (t : ApiType) : ¬ s.IsEndless t := by
  intro endless
  obtain ⟨u, hu, cycle⟩ := exists_cycle endless
  exact h.acyclic u hu cycle

/-- The check passes well-formed schemas and no others.  It reports a cycle if that is all that is
wrong, for the first class from which the bases never end.  In a schema that passes, following the
bases finds the nearest managed server above a type, if there is one.  The search for a repetition ends
in every schema, and when names are unique it tells chains that end from others. -/
theorem validate_characterization (s : Schema) :
    (s.validate = .ok () ↔ s.IsWellFormed) ∧
      (∀ name, s.validate = .error (.invalid ("Inheritance cycle through " ++ name)) ↔
        s.IsWellShaped ∧ ∃ before t behind, s.classes = before ++ t :: behind ∧ t.name = name ∧
          s.IsEndless t ∧ ∀ u ∈ before, ¬ s.IsEndless u) ∧
      (s.validate = .ok () → ∀ t, s.Climbs (s.baseOf t) (s.serverBase t) ∧
        ∀ b, s.serverBase t = some b ↔ b.managedServer = true ∧ Relation.TransGen s.HasBase t b ∧
          ∀ u, Relation.TransGen s.HasBase t u → Relation.TransGen s.HasBase u b →
            u.managedServer = false) ∧
      (∀ t, ∃ found, s.Walks [t.name] (s.baseOf t) found) ∧
      ((s.types.map ApiType.name).Nodup → ∀ t ∈ s.types,
        s.Walks [t.name] (s.baseOf t) (s.hasEndlessChain t)) := by
  refine ⟨validate_eq_ok, fun name => ?_, fun valid t => ?_, fun t => ?_, fun unique t ht => ?_⟩
  · rw [← cycleViolation?_eq_some]
    exact validate_eq_inheritanceCycle
  · have ends := (validate_eq_ok.1 valid).not_isEndless t
    exact ⟨climbs_serverBase ends, fun b => serverBase_eq_some_iff ends⟩
  · exact exists_walks fun _ base => baseOf_mem base
  · exact walks_hasEndlessChain unique ht

def tower : Schema where
  types := [
    { name := "Leaf", base := some "Middle" },
    { name := "Middle", base := some "Root" },
    { name := "Root", base := some "Missing", managedServer := true }]

def ring : Schema where
  types := [
    { name := "Entry", base := some "Left" },
    { name := "Left", base := some "Right" },
    { name := "Right", base := some "Left" }]

theorem validate_characterization_examples :
    (tower.validate = .ok () ∧ tower.IsWellFormed ∧
        ∀ t, tower.Climbs (tower.baseOf t) (tower.serverBase t)) ∧
      ring.validate = .error (.invalid ("Inheritance cycle through " ++ "Entry")) ∧
      (ring.types.map ApiType.name).Nodup ∧
      ∀ t ∈ ring.types, ring.Walks [t.name] (ring.baseOf t) (ring.hasEndlessChain t) := by
  have valid : tower.validate = .ok () := by decide
  have unique : (ring.types.map ApiType.name).Nodup := by decide
  obtain ⟨formed, _, climbs, _⟩ := validate_characterization tower
  obtain ⟨_, _, _, _, walks⟩ := validate_characterization ring
  exact ⟨⟨valid, formed.1 valid, fun t => (climbs valid t).1⟩, by decide, unique, walks unique⟩

end Schema

end InteropGen
