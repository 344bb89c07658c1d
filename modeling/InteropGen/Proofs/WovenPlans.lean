import InteropGen.Proofs.Dress
import InteropGen.Proofs.WovenFragments
import InteropGen.Proofs.WovenWrappers

set_option autoImplicit false

/-!
# Plans are woven

All code of a plan is woven.  With names that hold no brackets, it follows that every planned file is
well bracketed.
-/

namespace InteropGen

open Text

variable {N : String → Prop} {c : Config} {s : Schema} {t : ApiType}

structure ClassArtifacts.IsWoven (N : String → Prop) (s : Schema) (a : ClassArtifacts) : Prop where
  shim : a.shim.code.IsWoven N (IncludesOf N a.shim.includePaths)
  fragment : ∀ M, a.fragment.code.IsWoven N M
  header : (Scaffold.header s a.type).IsWoven N (IncludesOf N (Scaffold.headerPaths s a.type))
  source : (Scaffold.sourceCode a.type a.definitions).IsWoven N (IncludesOf N [a.type.header])

theorem ClassArtifacts.isWoven_of_build (names : s.Named N) (ht : t ∈ s.types)
    {a : ClassArtifacts} (h : build s t = .ok a) : a.IsWoven N s := by
  obtain ⟨slots, exports, parts⟩ := parts_of_build h
  obtain rfl := parts.type_eq
  exact
    { shim := Shim.isWoven_ofClass names ht parts.exports_ok parts.shim_ok
      fragment := fun _ => Fragment.isWoven_of_parts names ht parts.slots_ok
        (Fragment.parts_of_ofClass parts.fragment_ok)
      header := Scaffold.isWoven_header names ht
      source := Scaffold.isWoven_source names ht parts.definitions_ok }

theorem ClassArtifacts.isWoven_wrapper (names : s.Named N) (config : c.Named N) (ht : t ∈ s.types)
    {a : ClassArtifacts} (h : build s t = .ok a) :
    (a.wrapper.code c).IsWoven N (ConventionLine c) := by
  obtain ⟨slots, exports, parts⟩ := parts_of_build h
  exact Wrapper.isWoven_ofClass names config ht parts.exports_ok parts.slots_ok parts.wrapper_ok

theorem TypeArtifacts.sameLayout_of_build (valid : s.validate = .ok ()) {a : TypeArtifacts}
    (h : build s = .ok a) : SameLayout s a.native a.managed := by
  obtain ⟨native, hnative, h⟩ := bind_eq_ok.1 h
  obtain ⟨managed, hmanaged, h⟩ := bind_eq_ok.1 h
  cases h
  exact SameLayout.of_ofSchema valid hnative hmanaged

theorem Artifacts.parts_of_build {a : Artifacts} (h : build s = .ok a) :
    a.schema = s ∧ TypeArtifacts.build s = .ok a.types ∧
      List.Forall₂ (fun t k => ClassArtifacts.build s t = .ok k) s.classes a.classes := by
  obtain ⟨types, htypes, h⟩ := bind_eq_ok.1 h
  obtain ⟨classes, hclasses, h⟩ := bind_eq_ok.1 h
  cases h
  exact ⟨rfl, htypes, (ClassArtifacts.buildAll_stepwise s).forall₂ hclasses⟩

/-- Below its heading, a planned file holds woven code. -/
theorem Plan.exists_woven (valid : s.validate = .ok ()) (names : s.Named N) (config : c.Named N)
    {files : List PlannedFile} (plan : build c s = .ok files) :
    ∀ f ∈ files, ∃ code M, f.content = c.heading f.kind ++ code.render c.indentUnit ∧
      Code.IsWoven N M code := by
  obtain ⟨a, ha, rfl⟩ := map_eq_ok.1 plan
  obtain ⟨schema, htypes, hclasses⟩ := Artifacts.parts_of_build ha
  have layout := TypeArtifacts.sameLayout_of_build valid htypes
  have objectBase : (ObjectBase.code c).IsWoven N fun _ => False := ObjectBase.isWoven_code config
  have managed : (a.types.managed.code c).IsWoven N fun _ => False :=
    layout.isWoven_managed names config
  have generated {code : Code} {M : String → Prop} (h : code.IsWoven N M) (dir : Path)
      (name : String) : ∃ code' M', (c.generated dir name code).content =
        c.heading .generated ++ code'.render c.indentUnit ∧ Code.IsWoven N M' code' :=
    ⟨code, M, c.generatedFile_eq code, h⟩
  have scaffold {code : Code} {M : String → Prop} (h : code.IsWoven N M) (dir : Path)
      (name : String) : ∃ code' M', (c.scaffold dir name code).content =
        c.heading .scaffold ++ code'.render c.indentUnit ∧ Code.IsWoven N M' code' :=
    ⟨code, M, c.scaffoldFile_eq code, h⟩
  refine List.forall_mem_append.2 ⟨List.forall_mem_append.2 ⟨?_, fun f hf => ?_⟩,
    List.forall_mem_singleton.2 (generated (schema ▸ isWoven_aggregate names) _ _)⟩
  · simp only [TypeArtifacts.files, List.forall_mem_cons]
    exact ⟨generated NativeSupport.isWoven_code _ _, generated (layout.isWoven_native names) _ _,
      generated managed _ _, generated objectBase _ _, by simp⟩
  · obtain ⟨k, hk, mem⟩ := List.mem_flatMap.1 hf
    obtain ⟨t, ht, built⟩ := exists_left_of_forall₂ hclasses hk
    have hs := (Schema.mem_classes.1 ht).1
    have woven := ClassArtifacts.isWoven_of_build names hs built
    have wrapper := ClassArtifacts.isWoven_wrapper names config hs built
    have each : ∀ f ∈ k.files c s, ∃ code M,
        f.content = c.heading f.kind ++ code.render c.indentUnit ∧ Code.IsWoven N M code := by
      simp only [ClassArtifacts.files, List.forall_mem_cons]
      exact ⟨generated woven.shim _ _, generated (woven.fragment fun _ => False) _ _,
        generated wrapper _ _, scaffold woven.header _ _, scaffold woven.source _ _, by simp⟩
    exact each f (schema ▸ mem)

section Brackets

theorem ApiType.EachName.named_of_isBare (own : t.EachName IsBare) : t.Named IsBare where
  toEachName := own
  functions m hm := by
    simp only [qualify, isBare_append]
    exact ⟨⟨own.name, by decide⟩, own.methods m hm⟩
  slots _ m hm := isBare_append.2 ⟨own.name, own.methods m hm⟩
  staticProperties _ p hp _ := by
    simp only [isBare_append]
    exact ⟨⟨own.name, by decide⟩, own.properties p hp⟩
  staticMethods _ m hm _ := by
    simp only [isBare_append]
    exact ⟨⟨own.name, by decide⟩, own.methods m hm⟩

/-- If no name holds a bracket, the brackets of every planned file are well nested below its
heading. -/
theorem Plan.isNested_body (valid : s.validate = .ok ()) (names : s.EachName IsBare)
    (config : c.Named IsBare) {files : List PlannedFile} (plan : build c s = .ok files) :
    ∀ f ∈ files, ∃ body, f.content = c.heading f.kind ++ body ∧ IsNested body := by
  intro f hf
  obtain ⟨code, M, content, woven⟩ :=
    exists_woven valid (fun t ht => (names t ht).named_of_isBare) config plan f hf
  refine ⟨_, content, ?_⟩
  rw [IsNested, Code.unclosed_render]
  exact woven.nested (fun _ bare => bare) []

theorem Schema.eachName_drawing : Schema.drawing.EachName IsBare := by
  simp only [EachName, drawing, List.forall_mem_cons]
  refine ⟨?_, ?_, ?_, by simp⟩
  all_goals exact ⟨by decide, by decide, by decide, by decide, by decide, by decide, by decide⟩

theorem Plan.isNested_body_drawing :
    Schema.drawing.validate = .ok () ∧ Schema.drawing.EachName IsBare ∧
      Config.Named IsBare {} ∧ ∃ files, build {} Schema.drawing = .ok files ∧
        ∀ f ∈ files, ∃ body, f.content = Config.heading {} f.kind ++ body ∧ IsNested body := by
  obtain ⟨files, plan⟩ := build_drawing {}
  have config : Config.Named IsBare {} := ⟨by decide, by decide, by decide⟩
  exact ⟨rfl, Schema.eachName_drawing, config, files, plan,
    isNested_body rfl Schema.eachName_drawing config plan⟩

end Brackets

end InteropGen
