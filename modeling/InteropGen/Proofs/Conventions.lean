import InteropGen.Proofs.ManagedConvention
import InteropGen.Proofs.NativeConvention
import InteropGen.Proofs.PlannedPaths
import InteropGen.Proofs.RespeltPlans

set_option autoImplicit false

/-!
# The calling convention of a plan

Each side states the convention in its own way: managed files in attributes above the declarations,
shims and fragments through macros, and the support header in what these macros stand for.  Nothing
else in a plan depends on it.
-/

namespace InteropGen

open Text CallingConvention

namespace Config

variable {c : Config} {dir : Path} {name : String} {code : Code}

@[simp] theorem path_generated : (c.generated dir name code).path = dir.child name := rfl

@[simp] theorem path_scaffold : (c.scaffold dir name code).path = dir.child name := rfl

@[simp] theorem content_generated :
    (c.generated dir name code).content = c.generatedFile code := rfl

end Config

namespace PlannedFile

def EndsIn (ending : String) (f : PlannedFile) : Prop := ending.toList <:+ f.path.chars

/-- What the file declares for the other side carries the convention. -/
structure CarriesConvention (c : Config) (f : PlannedFile) : Prop where
  managed : c.HasLineNames → IsOneLine c.managed.nativeModule → f.EndsIn ".cs" →
    c.Attributes f.content
  functions : f.EndsIn ".Api.h" → ∀ line ∈ openers (trimmedLines f.content), DeclaresCall line
  pointers : f.EndsIn ".inc" → ∀ line ∈ trimmedLines f.content, DeclaresPointer line →
    callbackMark <:+: line

variable {c : Config} {f : PlannedFile} {dir : Path} {name stem ending other : String} {code : Code}

theorem endsIn_generated : (c.generated dir (stem ++ ending) code).EndsIn ending := by
  rw [EndsIn, Config.path_generated]
  refine List.IsSuffix.trans ?_ (Path.suffix_child _ _)
  rw [String.toList_append]
  exact List.suffix_append _ _

theorem not_endsIn (path : f.path = dir.child (stem ++ ending)) (noSlash : '/' ∉ other.toList)
    (apart : ¬ other.toList <:+ ending.toList ∧ ¬ ending.toList <:+ other.toList) :
    ¬ f.EndsIn other := by
  intro h
  rw [EndsIn, path] at h
  have inside := Path.suffix_of_suffix_child noSlash h
  rw [String.toList_append] at inside
  exact (List.suffix_or_suffix_of_suffix inside (List.suffix_append _ _)).elim apart.1 apart.2

/-- The name of a shim has one more dot than that of a header. -/
theorem not_endsIn_shim (path : f.path = dir.child (stem ++ ".h")) (noDot : '.' ∉ stem.toList) :
    ¬ f.EndsIn ".Api.h" := by
  intro h
  rw [EndsIn, path] at h
  have inside := Path.suffix_of_suffix_child (by decide) h
  have split : ".Api.h".toList = ".Api".toList ++ ".h".toList := by decide
  rw [String.toList_append, split] at inside
  obtain ⟨front, eq⟩ := inside
  rw [← List.append_assoc, List.append_cancel_right_eq] at eq
  exact noDot (eq ▸ List.mem_append_right front (by decide))

namespace CarriesConvention

theorem of_managed (named : name = stem ++ ".cs") (h : c.HasLineNames →
    IsOneLine c.managed.nativeModule → c.Attributes (c.generatedFile code)) :
    (c.generated dir name code).CarriesConvention c := by
  have path : (c.generated dir name code).path = dir.child (stem ++ ".cs") :=
    congrArg dir.child named
  exact
    { managed := fun lineNames oneLine _ => Config.content_generated ▸ h lineNames oneLine
      functions := fun ends => absurd ends (not_endsIn path (by decide) (by decide))
      pointers := fun ends => absurd ends (not_endsIn path (by decide) (by decide)) }

theorem of_shim (h : ∀ line ∈ openers (trimmedLines (c.generatedFile code)), DeclaresCall line) :
    (c.generated dir (stem ++ ".Api.h") code).CarriesConvention c where
  managed _ _ ends := absurd ends (not_endsIn Config.path_generated (by decide) (by decide))
  functions _ := Config.content_generated ▸ h
  pointers ends := absurd ends (not_endsIn Config.path_generated (by decide) (by decide))

theorem of_fragment (h : ∀ line ∈ trimmedLines (c.generatedFile code),
    DeclaresPointer line → callbackMark <:+: line) :
    (c.generated dir (stem ++ ".inc") code).CarriesConvention c where
  managed _ _ ends := absurd ends (not_endsIn Config.path_generated (by decide) (by decide))
  functions ends := absurd ends (not_endsIn Config.path_generated (by decide) (by decide))
  pointers _ := Config.content_generated ▸ h

theorem of_header (path : f.path = dir.child (stem ++ ".h")) (noDot : '.' ∉ stem.toList) :
    f.CarriesConvention c where
  managed _ _ ends := absurd ends (not_endsIn path (by decide) (by decide))
  functions ends := absurd ends (not_endsIn_shim path noDot)
  pointers ends := absurd ends (not_endsIn path (by decide) (by decide))

theorem of_source (path : f.path = dir.child (stem ++ ".cpp")) : f.CarriesConvention c where
  managed _ _ ends := absurd ends (not_endsIn path (by decide) (by decide))
  functions ends := absurd ends (not_endsIn path (by decide) (by decide))
  pointers ends := absurd ends (not_endsIn path (by decide) (by decide))

end CarriesConvention

end PlannedFile

section Files

variable {c : Config} {s : Schema} {t : ApiType} (names : s.HasIdentifiers)
include names

theorem Shim.each_declaresCall (ht : t ∈ s.types) {exports : ExportTable}
    (exports_ok : ExportTable.build s t = .ok exports) {shim : Shim}
    (h : ofClass s t exports = .ok shim) :
    ∀ line ∈ openers (trimmedLines (c.generatedFile shim.code)), DeclaresCall line := by
  obtain ⟨type, readable⟩ := isReadable_ofClass names ht exports_ok h
  have header : IsOneLine shim.type.header := type ▸ isOneLine_header (names.isWord_name ht)
  rw [openers_generatedFile header readable]
  exact List.forall_mem_map.2 fun f hf => declaresCall (readable f hf)

theorem Fragment.each_carries (ht : t ∈ s.types) {slots : Option SlotTable}
    (slots_ok : t.slotTable = .ok slots) {f : Fragment} (parts : f.Parts s t slots) :
    f.code.Each CarriesCallback := by
  refine carries_code (isReadable_of_parts names ht slots_ok parts) fun n hn => ?_
  obtain ⟨m, _, ok⟩ := exists_left_of_forall₂
    ((NativeMember.ofMembers_stepwise (s := s) (t := t)).forall₂ parts.members_ok) hn
  exact NativeMember.isLine_ofMember names (names t ht) ok

omit names in
/-- In the text of a fragment, each type of function pointers is declared with the macro. -/
theorem Config.callback_of_carries {body : Code} (h : body.Each CarriesCallback) :
    ∀ line ∈ trimmedLines (c.generatedFile body),
      DeclaresPointer line → callbackMark <:+: line := by
  rw [trimmedLines_generatedFile fun x hx => (h x hx).oneLine]
  refine List.forall_mem_append.2 ⟨List.forall_mem_append.2 ⟨fun x hx declared => ?_, ?_⟩,
    List.forall_mem_singleton.2 (by decide)⟩
  · obtain ⟨rest, rfl⟩ := mem_shownLines_header hx
    obtain ⟨_, eq⟩ := declared.1
    cases eq
  · exact List.forall_mem_map.2 fun x hx => (h x hx).carries

theorem ClassArtifacts.carriesConvention (ht : t ∈ s.types) {k : ClassArtifacts}
    (built : build s t = .ok k) : ∀ f ∈ k.files c s, f.CarriesConvention c := by
  obtain ⟨slots, exports, parts⟩ := parts_of_build built
  have noDot : '.' ∉ k.type.name.toList := by
    rw [parts.type_eq]
    exact (names.isWord_name ht).not_mem (by decide) (by simp)
  have wrapper := Wrapper.parts_of_ofClass parts.wrapper_ok
  have fragment := Fragment.each_carries names ht parts.slots_ok
    (Fragment.parts_of_ofClass parts.fragment_ok)
  simp only [files, List.forall_mem_cons]
  exact ⟨.of_shim (Shim.each_declaresCall names ht parts.exports_ok parts.shim_ok),
    .of_fragment (Config.callback_of_carries fragment),
    .of_managed rfl fun lineNames oneLine => Wrapper.attributes_generatedFile lineNames oneLine
      names ht parts.exports_ok parts.slots_ok wrapper,
    .of_header Config.path_scaffold noDot, .of_source Config.path_scaffold, by simp⟩

theorem TypeArtifacts.carriesConvention (valid : s.validate = .ok ()) {a : TypeArtifacts}
    (built : build s = .ok a) : ∀ f ∈ a.files c, f.CarriesConvention c := by
  have layout := TypeArtifacts.sameLayout_of_build valid built
  obtain ⟨enums, _, structs⟩ := layout.hasWords names
  have managed (lineNames : c.HasLineNames) : (a.managed.code c).Each IsAside :=
    ManagedTypes.aside_code lineNames.namespace (layout.sameEnums ▸ enums) structs
  have support := congrArg c.apiDir.child (by decide : "ApiSupport.h" = "ApiSupport" ++ ".h")
  have types := congrArg c.apiDir.child (by decide : "ApiTypes.h" = "ApiTypes" ++ ".h")
  have values : "NativeTypes.cs" = "NativeTypes" ++ ".cs" := by decide
  simp only [files, List.forall_mem_cons]
  exact ⟨.of_header support (by decide), .of_header types (by decide),
    .of_managed values fun lineNames _ => Config.attributes_of_aside (managed lineNames),
    .of_managed rfl fun lineNames _ => Config.attributes_of_aside (ObjectBase.aside_code lineNames),
    by simp⟩

end Files

namespace Plan

variable {c : Config} {s : Schema} {files : List PlannedFile}

/-- With identifiers for names, whatever a planned file declares for the other side carries the
convention, which the support header defines.  If moreover the names and the header do not hold the
words of the convention, exchanging them in every file turns the plan for the one convention into
the plan for the other. -/
theorem convention_applied (valid : s.validate = .ok ()) (names : s.HasIdentifiers)
    (plan : build c s = .ok files) :
    (∀ f ∈ files, f.CarriesConvention c) ∧
      (∃ f ∈ files, f.path = c.apiDir.child "ApiSupport.h" ∧
        (NativeSupport.platformBranch c.native.convention).map String.toList <:+:
          trimmedLines f.content) ∧
      (cdecl.IsUnmentioned c s → ∃ plain, build (c.calling cdecl) s = .ok plain ∧
        build (c.calling stdcall) s = .ok (plain.map (·.respell cdecl stdcall))) := by
  obtain ⟨a, ha, rfl⟩ := map_eq_ok.1 plan
  obtain ⟨schema, htypes, hclasses⟩ := Artifacts.parts_of_build ha
  refine ⟨?_, ?_, fun unmentioned => ?_⟩
  · have aggregate := congrArg c.native.dir.child (by decide : "Api.cpp" = "Api" ++ ".cpp")
    refine List.forall_mem_append.2 ⟨List.forall_mem_append.2
      ⟨TypeArtifacts.carriesConvention names valid htypes, fun f hf => ?_⟩,
      List.forall_mem_singleton.2 (.of_source aggregate)⟩
    obtain ⟨k, hk, mem⟩ := List.mem_flatMap.1 hf
    obtain ⟨t, ht, built⟩ := exists_left_of_forall₂ hclasses hk
    exact ClassArtifacts.carriesConvention names (Schema.mem_classes.1 ht).1 built f (schema ▸ mem)
  · have mem : c.generated c.apiDir "ApiSupport.h" (NativeSupport.code c) ∈ a.files c :=
      List.mem_append_left _ (List.mem_append_left _ List.mem_cons_self)
    exact ⟨_, mem, rfl, NativeSupport.infix_platformBranch⟩
  · have plain : build (c.calling cdecl) s = .ok (a.files (c.calling cdecl)) := by
      rw [build, ha]
      rfl
    refine ⟨_, plain, ?_⟩
    rw [build_stdcall unmentioned valid, plain]
    rfl

theorem isUnmentioned_drawing : cdecl.IsUnmentioned {} Schema.drawing where
  names := by
    simp only [Schema.Named, Schema.drawing, List.forall_mem_cons]
    refine ⟨?_, ?_, ?_, by simp⟩
    all_goals exact
      { name := by decide +kernel
        properties := by decide +kernel
        methods := by decide +kernel
        parameters := by decide +kernel
        events := by decide +kernel
        fields := by decide +kernel
        variants := by decide +kernel
        functions := by decide +kernel
        slots := by decide +kernel
        staticProperties := by decide +kernel
        staticMethods := by decide +kernel }
  settings := ⟨by decide +kernel, by decide +kernel, by decide +kernel⟩
  header := by decide +kernel

theorem convention_applied_drawing :
    Schema.drawing.validate = .ok () ∧ Schema.drawing.HasIdentifiers ∧
      Config.HasLineNames {} ∧ IsOneLine (Config.managed {}).nativeModule ∧
      cdecl.IsUnmentioned {} Schema.drawing ∧
      ∃ files, build {} Schema.drawing = .ok files ∧ (∀ f ∈ files, f.CarriesConvention {}) ∧
        ∃ plain, build (Config.calling {} cdecl) Schema.drawing = .ok plain ∧
          build (Config.calling {} stdcall) Schema.drawing =
            .ok (plain.map (·.respell cdecl stdcall)) := by
  obtain ⟨files, plan⟩ := build_drawing {}
  obtain ⟨carries, _, respelt⟩ := convention_applied rfl Schema.hasIdentifiers_drawing plan
  exact ⟨rfl, Schema.hasIdentifiers_drawing, Config.hasLineNames_default, by decide,
    isUnmentioned_drawing, files, plan, carries, respelt isUnmentioned_drawing⟩

end Plan

section Counterexamples

def ApiType.underscored : ApiType where
  name := "A_"
  methods := [{ name := "cdecl" }]

def Schema.underscored : Schema := ⟨[.underscored]⟩

/-- A text in which the native word occurs gets longer when it is respelt. -/
theorem CallingConvention.respell_ne {text : String}
    (occurs : cdecl.native.toList <:+: text.toList) :
    CallingConvention.respell cdecl stdcall text ≠ text := by
  intro same
  have chars : respellChars cdecl stdcall text.toList = text.toList := by
    have whole := congrArg String.toList same
    rwa [respell, String.toList_ofList] at whole
  have native : cdecl.native.toList.length < stdcall.native.toList.length := by decide
  have managed : cdecl.managed.toList.length < stdcall.managed.toList.length := by decide
  have length := congrArg List.length chars
  rw [respellChars] at length
  by_cases word : cdecl.managed.toList <:+: text.toList
  · have longer := length_lt_replaceWord (by decide) managed word
    have outer {cs : List Char} : cs.length ≤ (replaceWord _ _ cs).length :=
      length_le_replaceWord (by decide) (Nat.le_of_lt native)
    exact Nat.not_lt.2 (outer.trans (Nat.le_of_eq length)) longer
  · rw [replaceWord_of_absent word] at length
    have longer := length_lt_replaceWord (by decide) native occurs
    omega

/-- Inside the name of the native module, the wrapper shows an import without an attribute. -/
theorem Wrapper.not_attributed_splitModule (w : Wrapper) :
    ¬ Attributed DeclaresImport (Import.libraryAttribute .splitModule).toList
      (trimmedLines (Config.splitModule.generatedFile (w.code .splitModule))) := by
  intro imports
  have module_eq : Config.splitModule.managed.nativeModule =
    "A" ++ "\n" ++ "public static extern void B();" ++ "\n" ++ "C" := by decide
  let first := "private const string NativeModuleName = \"".toList ++ "A".toList
  obtain ⟨n, before, after, eq⟩ :=
    Config.pieces_infix_fileLines (c := .splitModule) w.mem_texts_moduleName
  have oneLine : '\n' ∉ List.replicate n ' ' ++ first := by
    rw [List.mem_append, not_or]
    exact ⟨fun mem => absurd (List.eq_of_mem_replicate mem) (by decide), by decide⟩
  have shown : trimLeft (List.replicate n ' ' ++ first) = first :=
    (trimLeft_replicate n).trans (by decide)
  have cut : pieces '\n' "public static extern void B();".toList =
    ["public static extern void B();".toList] := pieces_of_not_mem (by decide)
  rw [Imports.toList_moduleName module_eq, ← List.append_assoc, pieces_append_sep,
    pieces_append_sep, pieces_of_not_mem oneLine, cut] at eq
  rw [trimmedLines, ← eq, List.append_assoc, List.map_append, List.append_assoc,
    List.singleton_append, List.map_cons, shown] at imports
  have above := imports.above (by decide)
  revert above
  decide

theorem Schema.eachName_underscored : Schema.underscored.EachName cdecl.IsAbsent :=
  List.forall_mem_singleton.2
    { name := by decide +kernel
      properties := by decide
      methods := by decide +kernel
      parameters := by decide
      events := by decide
      fields := by decide
      variants := by decide }

/-- The shim of the class holds the word in both plans. -/
theorem Plan.respell_underscored {plain files : List PlannedFile}
    (plan : build (Config.calling {} cdecl) Schema.underscored = .ok plain)
    (plan' : build (Config.calling {} stdcall) Schema.underscored = .ok files) :
    files ≠ plain.map (·.respell cdecl stdcall) := by
  obtain ⟨a, ha, rfl⟩ := map_eq_ok.1 plan
  obtain ⟨a', ha', rfl⟩ := map_eq_ok.1 plan'
  cases ha.symm.trans ha'
  obtain ⟨schema, _, classes⟩ := Artifacts.parts_of_build ha
  have single : Schema.underscored.classes = [.underscored] := rfl
  rw [single] at classes
  obtain ⟨k, rest, built, _, list⟩ := List.forall₂_cons_left_iff.1 classes
  have shown : "NATIVE_API void NATIVE_API_CALL A__cdecl(A_* obj)" ∈ k.shim.code.texts := by
    cases built
    decide
  have occurs : cdecl.native.toList <:+: (Config.generatedFile {} k.shim.code).toList := by
    refine List.IsInfix.trans ?_ (Config.text_infix_generatedFile shown)
    decide +kernel
  intro same
  simp only [Artifacts.files, TypeArtifacts.files, list, List.flatMap_cons, ClassArtifacts.files,
    List.nil_append, List.cons_append, List.map_cons, List.cons.injEq] at same
  have shim := congrArg PlannedFile.content same.2.2.2.2.1
  simp only [PlannedFile.content_respell, Config.content_generated,
    Config.generatedFile_calling] at shim
  exact respell_ne occurs shim.symm

theorem Schema.hasIdentifiers_underscored : Schema.underscored.HasIdentifiers :=
  List.forall_mem_singleton.2
    ⟨by decide, by decide, by decide, by decide, by decide, by decide, by decide⟩

theorem Schema.hasIdentifiers_lone : Schema.lone.HasIdentifiers :=
  List.forall_mem_singleton.2
    ⟨by decide, by decide, by decide, by decide, by decide, by decide, by decide⟩

/-- A name of the native module with line feeds brings in imports without an attribute, and a word of
the convention can stand in a composed name though it stands in no declared one. -/
theorem Plan.convention_missed :
    (Config.splitModule.validate = .ok () ∧ Schema.lone.validate = .ok () ∧
      Schema.lone.HasIdentifiers ∧
      ∃ files, build .splitModule Schema.lone = .ok files ∧ ∃ f ∈ files, f.EndsIn ".cs" ∧
        ¬ Attributed DeclaresImport (Import.libraryAttribute .splitModule).toList
          (trimmedLines f.content)) ∧
    (Config.validate {} = .ok () ∧ Schema.underscored.validate = .ok () ∧
      Schema.underscored.HasIdentifiers ∧ Schema.underscored.EachName cdecl.IsAbsent ∧
      Config.Named cdecl.IsAbsent {} ∧ cdecl.IsAbsent (Config.output {}).header ∧
      ∃ plain files, build (Config.calling {} cdecl) Schema.underscored = .ok plain ∧
        build (Config.calling {} stdcall) Schema.underscored = .ok files ∧
        files ≠ plain.map (·.respell cdecl stdcall)) := by
  constructor
  · obtain ⟨files, plan⟩ : ∃ files, build .splitModule Schema.lone = .ok files := ⟨_, rfl⟩
    obtain ⟨k, built, planned⟩ := class_of_build plan (by decide : .lone ∈ Schema.lone.classes)
    refine ⟨rfl, rfl, Schema.hasIdentifiers_lone, files, plan, _,
      planned _ (List.mem_cons_of_mem _ (List.mem_cons_of_mem _ List.mem_cons_self)),
      PlannedFile.endsIn_generated, ?_⟩
    rw [Config.content_generated]
    exact k.wrapper.not_attributed_splitModule
  · obtain ⟨plain, plan⟩ : ∃ files, build (Config.calling {} cdecl) Schema.underscored = .ok files :=
      ⟨_, rfl⟩
    obtain ⟨files, plan'⟩ :
        ∃ files, build (Config.calling {} stdcall) Schema.underscored = .ok files := ⟨_, rfl⟩
    exact ⟨rfl, rfl, Schema.hasIdentifiers_underscored, Schema.eachName_underscored,
      ⟨by decide +kernel, by decide +kernel, by decide +kernel⟩, by decide +kernel, plain, files,
      plan, plan', respell_underscored plan plan'⟩

end Counterexamples

end InteropGen
