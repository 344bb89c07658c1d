import InteropGen.Proofs.DeclaredValues
import InteropGen.Proofs.TextParity

set_option autoImplicit false

/-!
# Value types on both sides

The native and the managed file of value types declare the same enums and structs, with the same
layout: as they are built, and as they can be read back from the two texts.
-/

namespace InteropGen

open Text

variable {c : Config} {s : Schema} {t : ApiType} {dialect : Dialect} {n : NativeTypes}
  {m : ManagedTypes}

theorem beginsAsWord_of_isIdentifier {text : String} (h : isIdentifier text.toList = true) :
    BeginsAsWord text := by
  cases chars : text.toList with
  | nil =>
    rw [chars] at h
    cases h
  | cons c cs =>
    rw [chars, isIdentifier_cons, Bool.and_eq_true] at h
    exact beginsAsWord_iff.2 ⟨c, cs, chars, isIdentifierPart_of_start h.1⟩

theorem Variants.exists_variant_of_mem {flags : Bool} {previous : Option Int} {vs : List Variant}
    {v : String × Int} (h : v ∈ expected flags previous vs) : ∃ w ∈ vs, v.1 = w.name := by
  induction vs generalizing previous with
  | nil => cases h
  | cons w vs ih =>
    rw [expected] at h
    rcases List.mem_cons.1 h with rfl | h
    · exact ⟨w, List.mem_cons_self, rfl⟩
    · obtain ⟨x, hx, eq⟩ := ih h
      exact ⟨x, List.mem_cons_of_mem w hx, eq⟩

theorem ValueEnum.Declares.hasWords {e : ValueEnum} (h : e.Declares t) (names : t.HasIdentifiers) :
    e.HasWords := by
  refine ⟨h.name ▸ isWord_of_isIdentifier names.name, fun v hv => ?_⟩
  rw [h.values] at hv
  obtain ⟨w, hw, eq⟩ := Variants.exists_variant_of_mem hv
  have identifier := names.variants w hw
  rw [eq]
  exact ⟨isWord_of_isIdentifier identifier, beginsAsWord_of_isIdentifier identifier⟩

theorem Shape.IsValue.begins {shape : Shape} {spelling : Spelling} (value : shape.IsValue)
    (named : shape.All fun t => isIdentifier t.name.toList = true)
    (ok : shape.spell dialect .declaration = .ok spelling) :
    BeginsAsWord spelling.literal ∧ IsOneLine spelling.literal := by
  cases shape with
  | primitive p => cases dialect <;> cases p <;> cases ok <;> decide
  | struct t | enum t =>
    have literal : spelling.literal = t.name := by
      cases dialect <;> cases ok <;> rfl
    rw [literal]
    exact ⟨beginsAsWord_of_isIdentifier named, (isWord_of_isIdentifier named).isOneLine⟩
  | void | text _ | «class» _ _ | nullableValue _ | array _ => exact value.elim

theorem ValueStruct.Declares.hasWords {v : ValueStruct} (h : v.Declares s dialect t)
    (names : s.HasIdentifiers) (ht : t ∈ s.types) : v.HasWords := by
  refine ⟨h.name ▸ names.isWord_name ht, fun field hfield => ?_⟩
  obtain ⟨f, hf, declares⟩ := exists_left_of_forall₂ h.fields hfield
  obtain ⟨shape, hshape, value, spelled⟩ := declares.spelling
  have named := (Schema.all_shapeOf hshape).imp fun t ht => (names t ht).name
  obtain ⟨begins, oneLine⟩ := value.begins named spelled
  exact ⟨declares.name ▸ isWord_of_isIdentifier ((names t ht).fields f hf), oneLine, begins⟩

theorem SameLayout.hasWords (layout : SameLayout s n m) (names : s.HasIdentifiers) :
    (∀ e ∈ n.enums, e.HasWords) ∧ (∀ v ∈ n.structs, v.HasWords) ∧ ∀ v ∈ m.structs, v.HasWords := by
  obtain ⟨order, perm, _, native, managed⟩ := layout.structs
  have mem {t : ApiType} (ht : t ∈ order) : t ∈ s.types :=
    Schema.mem_types_of_structs (perm.subset ht)
  refine ⟨fun e he => ?_, fun v hv => ?_, fun v hv => ?_⟩
  · obtain ⟨t, ht, declares⟩ := exists_left_of_forall₂ layout.enums he
    exact declares.hasWords (names t (List.mem_filter.1 ht).1)
  · obtain ⟨t, ht, declares⟩ := exists_left_of_forall₂ native hv
    exact declares.hasWords names (mem ht)
  · obtain ⟨t, ht, declares⟩ := exists_left_of_forall₂ managed hv
    exact declares.hasWords names (mem ht)

theorem SameLayout.declarations (layout : SameLayout s n m) (names : s.HasIdentifiers)
    (lineNames : c.HasLineNames) :
    DeclarationStyle.native.declarations (c.generatedFile n.code) =
        n.enums.map (.ofEnum "int" "int64_t") ++ n.structs.map (.ofStruct false) ∧
      DeclarationStyle.managed.declarations (c.generatedFile (m.code c)) =
        m.enums.map (.ofEnum "int" "long") ++ m.structs.map (.ofStruct true) := by
  obtain ⟨enums, native, managed⟩ := layout.hasWords names
  constructor
  · refine NativeTypes.declarations_code (fun name hname => ?_) enums native
    rw [layout.classes] at hname
    obtain ⟨t, ht, rfl⟩ := List.mem_map.1 hname
    exact (names.isWord_name (Schema.mem_classes.1 ht).1).isOneLine
  · exact ManagedTypes.declarations_code lineNames.namespace (layout.sameEnums ▸ enums) managed

/-- In a valid schema the value types of the two sides fail alike, and if they do not, they have the
same layout.  With identifiers for names, that is also what the two files say. -/
theorem TypeArtifacts.same_layout (config : c.validate = .ok ()) (valid : s.validate = .ok ()) :
    (∀ e, NativeTypes.ofSchema s = .error e ↔ ManagedTypes.ofSchema s = .error e) ∧
      ∀ n m, NativeTypes.ofSchema s = .ok n → ManagedTypes.ofSchema s = .ok m →
        SameLayout s n m ∧
          (s.HasIdentifiers →
            DeclarationStyle.native.declarations (c.generatedFile n.code) =
              n.enums.map (.ofEnum "int" "int64_t") ++ n.structs.map (.ofStruct false) ∧
            DeclarationStyle.managed.declarations (c.generatedFile (m.code c)) =
              m.enums.map (.ofEnum "int" "long") ++ m.structs.map (.ofStruct true)) := by
  refine ⟨fun e => SameLayout.error_iff valid, fun n m native managed => ?_⟩
  have layout := SameLayout.of_ofSchema valid native managed
  exact ⟨layout, fun names => layout.declarations names (Config.hasLineNames_of_validate config)⟩

section Palette

def Schema.palette : Schema :=
  ⟨[{ name := "Pixel", kind := .structType,
      fields := [⟨"spot", .named "Spot"⟩, ⟨"lit", .primitive .bool⟩, ⟨"tone", .named "Tone"⟩] },
    { name := "Spot", kind := .structType, fields := [⟨"x", .primitive .uint⟩] },
    { name := "Tone", kind := .enumType, variants := [⟨"Dark", none⟩, ⟨"Light", some 4294967296⟩] },
    { name := "Sides", kind := .enumType, flags := true,
      variants := [⟨"Left", none⟩, ⟨"Right", none⟩] }]⟩

theorem Schema.hasIdentifiers_palette : palette.HasIdentifiers := by
  intro t ht
  simp only [palette, List.mem_cons, List.not_mem_nil, or_false] at ht
  rcases ht with rfl | rfl | rfl | rfl
  · exact ⟨by decide, by decide, by decide, by decide, by decide, by decide, by decide⟩
  · exact ⟨by decide, by decide, by decide, by decide, by decide, by decide, by decide⟩
  · exact ⟨by decide, by decide, by decide, by decide, by decide, by decide, by decide⟩
  · exact ⟨by decide, by decide, by decide, by decide, by decide, by decide, by decide⟩

theorem TypeArtifacts.same_layout_palette :
    Config.validate {} = .ok () ∧ Schema.palette.validate = .ok () ∧
      Schema.palette.HasIdentifiers ∧
      ∃ n m, NativeTypes.ofSchema Schema.palette = .ok n ∧
        ManagedTypes.ofSchema Schema.palette = .ok m ∧ SameLayout Schema.palette n m ∧
        DeclarationStyle.native.declarations (Config.generatedFile {} n.code) =
          [.enum "Tone" "int64_t" false [("Dark", "0"), ("Light", "4294967296")],
            .enum "Sides" "int" true [("Left", "1"), ("Right", "2")],
            .struct "Spot" [⟨"unsigned int", "x", false⟩],
            .struct "Pixel" [⟨"Spot", "spot", false⟩, ⟨"c_bool", "lit", false⟩,
              ⟨"Tone", "tone", false⟩]] ∧
        DeclarationStyle.managed.declarations (Config.generatedFile {} (m.code {})) =
          [.enum "Tone" "long" false [("Dark", "0"), ("Light", "4294967296")],
            .enum "Sides" "int" true [("Left", "1"), ("Right", "2")],
            .struct "Spot" [⟨"uint", "x", false⟩],
            .struct "Pixel" [⟨"Spot", "spot", false⟩, ⟨"bool", "lit", true⟩,
              ⟨"Tone", "tone", false⟩]] := by
  obtain ⟨_, agree⟩ := TypeArtifacts.same_layout (c := {}) (s := Schema.palette) rfl rfl
  obtain ⟨layout, texts⟩ := agree _ _ rfl rfl
  obtain ⟨native, managed⟩ := texts Schema.hasIdentifiers_palette
  exact ⟨rfl, rfl, Schema.hasIdentifiers_palette, _, _, rfl, rfl, layout, native, managed⟩

end Palette

def Schema.disguised : Schema :=
  ⟨[{ name := "c_bool", kind := .enumType },
    { name := "S", kind := .structType, fields := [⟨"x", .named "c_bool"⟩] }]⟩

theorem Schema.hasIdentifiers_disguised : disguised.HasIdentifiers := by
  intro t ht
  simp only [disguised, List.mem_cons, List.not_mem_nil, or_false] at ht
  rcases ht with rfl | rfl
  · exact ⟨by decide, by decide, by decide, by decide, by decide, by decide, by decide⟩
  · exact ⟨by decide, by decide, by decide, by decide, by decide, by decide, by decide⟩

/-- A field can be spelled like a boolean natively and have no mark on the managed side. -/
theorem TypeArtifacts.unmarked_disguised :
    Schema.disguised.validate = .ok () ∧ Schema.disguised.HasIdentifiers ∧
      ∃ n m, NativeTypes.ofSchema Schema.disguised = .ok n ∧
        ManagedTypes.ofSchema Schema.disguised = .ok m ∧
        .struct "S" [⟨"c_bool", "x", false⟩] ∈
          DeclarationStyle.native.declarations (Config.generatedFile {} n.code) ∧
        .struct "S" [⟨"c_bool", "x", false⟩] ∈
          DeclarationStyle.managed.declarations (Config.generatedFile {} (m.code {})) ∧
        ¬ List.Forall₂ (fun v w => List.Forall₂
          (fun a b => b.isBool = true ↔ a.spelling.literal = "c_bool") v.fields w.fields)
          n.structs m.structs := by
  have layout := SameLayout.of_ofSchema (s := Schema.disguised) rfl rfl rfl
  obtain ⟨native, managed⟩ := layout.declarations (c := {}) Schema.hasIdentifiers_disguised
    Config.hasLineNames_default
  refine ⟨rfl, Schema.hasIdentifiers_disguised, _, _, rfl, rfl, ?_, ?_, ?_⟩
  · rw [native]
    decide
  · rw [managed]
    decide
  · rintro (_ | ⟨fields, _⟩)
    obtain _ | ⟨alike, _⟩ := fields
    cases alike.2 rfl

end InteropGen
