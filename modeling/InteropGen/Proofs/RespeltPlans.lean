import InteropGen.Proofs.ConventionChange
import InteropGen.Proofs.WovenPlans

set_option autoImplicit false

/-!
# Respelt plans

The plan for the one convention, with the words of that convention replaced in every file, is the
plan for the other one.  A word that stood in a name would be replaced there as well, so none may:
in no name of the schema, however it is composed, in no name of the configuration, and nowhere in
the header.
-/

namespace InteropGen

open Text CallingConvention

/-- No name and no header line holds a word of the convention. -/
structure CallingConvention.IsUnmentioned (a : CallingConvention) (c : Config) (s : Schema) :
    Prop where
  names : s.Named a.IsAbsent
  settings : c.Named a.IsAbsent
  header : a.IsAbsent c.output.header

/-- The file with both words of the one convention replaced by those of the other. -/
def PlannedFile.respell (a b : CallingConvention) (f : PlannedFile) : PlannedFile :=
  { f with content := CallingConvention.respell a b f.content }

@[simp] theorem PlannedFile.content_respell (a b : CallingConvention) (f : PlannedFile) :
    (f.respell a b).content = CallingConvention.respell a b f.content := rfl

section Absent

variable {x path : String} {M : String → Prop} {texts : List String} {c : Config}

theorem managed_mem_reservedWords : cdecl.managed.toList ∈ reservedWords := by decide

theorem native_mem_reservedWords : cdecl.native.toList ∈ reservedWords := by decide

theorem Composed.isAbsent (h : Composed cdecl.IsAbsent x) : cdecl.IsAbsent x where
  managed := h.avoids _ managed_mem_reservedWords fun _ absent => absent.managed
  native := h.avoids _ native_mem_reservedWords fun _ absent => absent.native

/-- If the words stand in no marked line and in no name, they stand in no line. -/
theorem Woven.isAbsent (h : Woven cdecl.IsAbsent M texts) (marked : ∀ x, M x → cdecl.IsAbsent x) :
    ∀ x ∈ texts, cdecl.IsAbsent x := by
  intro x hx
  constructor
  · rcases h.avoids _ managed_mem_reservedWords (fun _ absent => absent.managed) x hx with
      absent | mark
    · exact absent
    · exact (marked x mark).managed
  · rcases h.avoids _ native_mem_reservedWords (fun _ absent => absent.native) x hx with
      absent | mark
    · exact absent
    · exact (marked x mark).native

theorem isAbsent_includeLine (h : cdecl.IsAbsent path) :
    cdecl.IsAbsent (Code.includeLine path) := by
  have around {word : List Char} (starts : beginsNowhere word "#include \"".toList = true)
      (ends : separates word "\"".toList = true) (absent : Avoids word path) (ne : word ≠ []) :
      Avoids word (Code.includeLine path) := by
    have empty : Avoids word "" := fun occurs => ne (List.infix_nil.1 occurs)
    have closed := avoids_start starts (avoids_between ends absent empty)
    simpa [Code.includeLine, String.append_assoc] using closed
  constructor
  · exact around (by decide) (by decide) h.managed (by decide)
  · exact around (by decide) (by decide) h.native (by decide)

theorem isAbsent_platformIncludes : ∀ x ∈ platformIncludes, cdecl.IsAbsent x := by
  simp only [platformIncludes, NativeSupport.libraries, NativeSupport.libraryLine, List.map_cons,
    List.map_nil, List.forall_mem_cons, isAbsent_iff, managed, native, String.toList_append]
  repeat rw [String.toList_ofList]
  decide +kernel

theorem isAbsent_includesOf {paths : List String} (h : IncludesOf cdecl.IsAbsent paths x) :
    cdecl.IsAbsent x := by
  rcases h with ⟨path, _, composed, rfl⟩ | platform
  · exact isAbsent_includeLine composed.isAbsent
  · exact isAbsent_platformIncludes x platform

theorem isAbsent_conventionLine (h : ConventionLine (c.calling stdcall) x) : cdecl.IsAbsent x := by
  have attributes : cdecl.IsAbsent
        ("[DllImport(NativeModuleName, CallingConvention = " ++ stdcall.managed ++ ")]") ∧
      cdecl.IsAbsent ("[UnmanagedFunctionPointer(" ++ stdcall.managed ++ ")]") := by
    simp only [isAbsent_iff, managed, native, String.toList_append]
    repeat rw [String.toList_ofList]
    decide +kernel
  rcases h with rfl | rfl
  · exact attributes.1
  · exact attributes.2

theorem isAbsent_supportLine (h : NativeSupport.SupportLine stdcall.native x) :
    cdecl.IsAbsent x := by
  have macros : ∀ x ∈ NativeSupport.conventionMacros stdcall.native, cdecl.IsAbsent x := by
    simp only [NativeSupport.conventionMacros, List.forall_mem_cons, isAbsent_iff, managed, native,
      String.toList_append]
    repeat rw [String.toList_ofList]
    decide +kernel
  rcases h with platform | macro_
  · exact isAbsent_platformIncludes x platform
  · exact macros x macro_

theorem prefix_of_mem_endedLines {line : List Char} {ps : List (List Char)}
    (h : line ∈ endedLines ps) : ∃ p ∈ ps, line <+: p := by
  induction ps with
  | nil => cases h
  | cons p ps ih =>
    cases ps with
    | nil =>
      rw [endedLines] at h
      split at h
      · cases h
      · exact ⟨p, List.mem_cons_self, List.mem_singleton.1 h ▸ List.prefix_refl _⟩
    | cons q ps =>
      rw [endedLines] at h
      · rcases List.mem_cons.1 h with rfl | h
        · refine ⟨p, List.mem_cons_self, ?_⟩
          rw [dropReturn]
          split
          · exact List.dropLast_prefix p
          · exact List.prefix_refl p
        · obtain ⟨r, hr, front⟩ := ih h
          exact ⟨r, List.mem_cons_of_mem p hr, front⟩
      · exact List.cons_ne_nil q ps

theorem isAbsent_header (h : cdecl.IsAbsent c.output.header) :
    ∀ x ∈ c.header.texts, cdecl.IsAbsent x := by
  intro x hx
  rw [Config.header, Code.texts_lines] at hx
  obtain ⟨text, htext, rfl⟩ := List.mem_map.1 hx
  obtain ⟨line, hline, rfl⟩ := List.mem_map.1 htext
  obtain ⟨piece, hpiece, front⟩ := prefix_of_mem_endedLines hline
  have inside : (String.ofList line).toList <:+: c.output.header.toList := by
    rw [String.toList_ofList]
    exact front.isInfix.trans (infix_of_mem_pieces hpiece)
  have absent : cdecl.IsAbsent (String.ofList line) :=
    ⟨h.managed.of_infix inside, h.native.of_infix inside⟩
  rw [Config.commentLine]
  split
  · decide
  · exact ((Composed.name absent).prefixed ['/', '/', ' '] (by decide)).isAbsent

end Absent

section Files

@[simp] theorem Config.apiDir_calling (c : Config) (a : CallingConvention) :
    (c.calling a).apiDir = c.apiDir := rfl

@[simp] theorem Config.nativeDir_calling (c : Config) (a : CallingConvention) :
    (c.calling a).native.dir = c.native.dir := rfl

@[simp] theorem Config.managed_calling (c : Config) (a : CallingConvention) :
    (c.calling a).managed = c.managed := rfl

@[simp] theorem Config.generatedFile_calling (c : Config) (a : CallingConvention) (code : Code) :
    (c.calling a).generatedFile code = c.generatedFile code := rfl

@[simp] theorem ManagedTypes.code_calling (m : ManagedTypes) (c : Config) (a : CallingConvention) :
    m.code (c.calling a) = m.code c := rfl

@[simp] theorem ObjectBase.code_calling (c : Config) (a : CallingConvention) :
    ObjectBase.code (c.calling a) = ObjectBase.code c := rfl

theorem Config.Named.calling {N : String → Prop} {c : Config} (h : c.Named N)
    (a : CallingConvention) : (c.calling a).Named N :=
  ⟨h.namespaceName, h.nativeModule, h.objectClass⟩

variable {c : Config} {s : Schema} {t : ApiType} {code code' : Code} {M : String → Prop}
  {dir : Path} {name : String}

theorem respell_generated (dir : Path) (name : String) (header : cdecl.IsAbsent c.output.header)
    (h : code.Corresponds (Respelt cdecl stdcall) code')
    (absent : ∀ x ∈ code'.texts, cdecl.IsAbsent x) :
    ((c.calling cdecl).generated dir name code).respell cdecl stdcall =
      (c.calling stdcall).generated dir name code' := by
  have whole : (c.header ++ code).Corresponds (Respelt cdecl stdcall) (c.header ++ code') :=
    (Code.Corresponds.same respelt_same _).append h
  have lines : ∀ x ∈ (c.header ++ code').texts, cdecl.IsAbsent x := by
    rw [Code.texts_append]
    exact List.forall_mem_append.2 ⟨isAbsent_header header, absent⟩
  simp only [PlannedFile.respell, Config.generated, Config.generatedFile_calling]
  exact congrArg (PlannedFile.mk (dir.child name) .generated) (whole.respell_render lines)

/-- A file of woven code that does not depend on the convention stays as it is. -/
theorem respell_generated_woven (header : cdecl.IsAbsent c.output.header)
    (woven : code.IsWoven cdecl.IsAbsent M) (marked : ∀ x, M x → cdecl.IsAbsent x) :
    ((c.calling cdecl).generated dir name code).respell cdecl stdcall =
      (c.calling stdcall).generated dir name code :=
  respell_generated dir name header (.same respelt_same code) (Woven.isAbsent woven marked)

theorem respell_scaffold_woven (woven : code.IsWoven cdecl.IsAbsent M)
    (marked : ∀ x, M x → cdecl.IsAbsent x) :
    ((c.calling cdecl).scaffold dir name code).respell cdecl stdcall =
      (c.calling stdcall).scaffold dir name code :=
  congrArg (PlannedFile.mk (dir.child name) .scaffold) <|
    (Code.Corresponds.same respelt_same code).respell_render (c := c) (Woven.isAbsent woven marked)

variable (unmentioned : cdecl.IsUnmentioned c s)
include unmentioned

theorem ClassArtifacts.respell_files (ht : t ∈ s.types) {k : ClassArtifacts}
    (built : build s t = .ok k) :
    (k.files (c.calling cdecl) s).map (·.respell cdecl stdcall) =
      k.files (c.calling stdcall) s := by
  have woven := ClassArtifacts.isWoven_of_build unmentioned.names ht built
  have wrapper := ClassArtifacts.isWoven_wrapper (c := c.calling stdcall) unmentioned.names
    (unmentioned.settings.calling stdcall) ht built
  have header := unmentioned.header
  have includes {paths : List String} : ∀ x, IncludesOf cdecl.IsAbsent paths x →
      cdecl.IsAbsent x := fun _ => isAbsent_includesOf
  have unmarked : ∀ x, False → cdecl.IsAbsent x := fun _ h => h.elim
  have wrapper_eq := respell_generated c.managed.dir (k.type.name ++ ".cs") header
    (Wrapper.corresponds_code k.wrapper) (Woven.isAbsent wrapper fun _ => isAbsent_conventionLine)
  simp only [files, Config.apiDir_calling, Config.nativeDir_calling, Config.managed_calling,
    List.map_cons, List.map_nil, wrapper_eq, respell_generated_woven header woven.shim includes,
    respell_generated_woven header (woven.fragment _) unmarked,
    respell_scaffold_woven woven.header includes, respell_scaffold_woven woven.source includes]

theorem TypeArtifacts.respell_files (valid : s.validate = .ok ()) {a : TypeArtifacts}
    (built : build s = .ok a) :
    (a.files (c.calling cdecl)).map (·.respell cdecl stdcall) = a.files (c.calling stdcall) := by
  have layout := TypeArtifacts.sameLayout_of_build valid built
  have header := unmentioned.header
  have support : (NativeSupport.code (c.calling stdcall)).IsWoven cdecl.IsAbsent
      (NativeSupport.SupportLine stdcall.native) :=
    NativeSupport.isWoven_code (c := c.calling stdcall)
  have managed : (a.managed.code c).IsWoven cdecl.IsAbsent fun _ => False :=
    layout.isWoven_managed unmentioned.names unmentioned.settings
  have objectBase : (ObjectBase.code c).IsWoven cdecl.IsAbsent fun _ => False :=
    ObjectBase.isWoven_code unmentioned.settings
  have unmarked : ∀ x, False → cdecl.IsAbsent x := fun _ h => h.elim
  have support_eq := respell_generated c.apiDir "ApiSupport.h" header
    NativeSupport.corresponds_code (Woven.isAbsent support fun _ => isAbsent_supportLine)
  have native := layout.isWoven_native unmentioned.names
  have includes {paths : List String} : ∀ x, IncludesOf cdecl.IsAbsent paths x →
      cdecl.IsAbsent x := fun _ => isAbsent_includesOf
  simp only [files, Config.apiDir_calling, Config.managed_calling, ManagedTypes.code_calling,
    ObjectBase.code_calling, List.map_cons, List.map_nil, support_eq,
    respell_generated_woven header native includes, respell_generated_woven header managed unmarked,
    respell_generated_woven header objectBase unmarked]

/-- Respelling every file of the plan for the one convention gives the plan for the other, and there
is the one plan only if there is the other. -/
theorem Plan.build_stdcall (valid : s.validate = .ok ()) :
    build (c.calling stdcall) s =
      (build (c.calling cdecl) s).map (List.map (·.respell cdecl stdcall)) := by
  rw [build, build]
  cases ha : Artifacts.build s with
  | error failure => rfl
  | ok a =>
    obtain ⟨schema, htypes, hclasses⟩ := Artifacts.parts_of_build ha
    have classes : ∀ k ∈ a.classes, (k.files (c.calling cdecl) s).map (·.respell cdecl stdcall) =
        k.files (c.calling stdcall) s := by
      intro k hk
      obtain ⟨t, ht, built⟩ := exists_left_of_forall₂ hclasses hk
      exact ClassArtifacts.respell_files unmentioned (Schema.mem_classes.1 ht).1 built
    have aggregate : ((c.calling cdecl).generated c.native.dir "Api.cpp" (aggregateCode s)).respell
        cdecl stdcall = (c.calling stdcall).generated c.native.dir "Api.cpp" (aggregateCode s) :=
      respell_generated_woven unmentioned.header (isWoven_aggregate unmentioned.names)
        fun _ => isAbsent_includesOf
    have files : (a.files (c.calling cdecl)).map (·.respell cdecl stdcall) =
        a.files (c.calling stdcall) := by
      rw [Artifacts.files, Artifacts.files, List.map_append, List.map_append, schema,
        TypeArtifacts.respell_files unmentioned valid htypes, List.map_flatMap,
        List.flatMap_congr classes]
      exact congrArg (_ ++ ·) (congrArg (· :: []) aggregate)
    exact congrArg Except.ok files.symm

end Files

end InteropGen
