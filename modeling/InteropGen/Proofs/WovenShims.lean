import InteropGen.Generation.Plan
import InteropGen.Proofs.ComposedNames
import InteropGen.Proofs.MentionedHeaders

set_option autoImplicit false

/-!
# Shims are woven

A shim is composed of the declared names and fixed text, but for the lines that include other files.
It includes the header of its class, those of the classes that it mentions, and the support header.
-/

namespace InteropGen

-- The fixed texts are checked character by character, and some are long.
set_option maxRecDepth 1024

open Text

def platformIncludes : List String :=
  "#include <objbase.h>" :: NativeSupport.libraries.map NativeSupport.libraryLine

/-- The line includes one of the given files, whose path is composed, or a header of the platform. -/
def IncludesOf (N : String → Prop) (paths : List String) (x : String) : Prop :=
  (∃ path ∈ paths, Composed N path ∧ x = Code.includeLine path) ∨ x ∈ platformIncludes

variable {N M : String → Prop} {s : Schema} {t : ApiType} {paths : List String}

section Includes

theorem isNested_includeLine {path : String} (h : IsNested path) :
    IsNested (Code.includeLine path) := .between rfl h rfl

theorem woven_includes (some : List String) (composed : ∀ p ∈ some, Composed N p)
    (sub : some ⊆ paths) :
    Code.IsWoven N (IncludesOf N paths) (Code.lines (some.map Code.includeLine)) := by
  refine .marked fun x hx => ?_
  obtain ⟨path, hpath, rfl⟩ := List.mem_map.1 hx
  have composed := composed path hpath
  exact ⟨.inl ⟨path, sub hpath, composed, rfl⟩, fun bare => isNested_includeLine (composed.nested bare)⟩

theorem woven_include {path : String} (composed : Composed N path) (mem : path ∈ paths) :
    Code.IsWoven N (IncludesOf N paths) (Code.line (Code.includeLine path)) :=
  woven_includes [path] (List.forall_mem_singleton.2 composed)
    (List.cons_subset.2 ⟨mem, List.nil_subset _⟩)

theorem isNested_platformIncludes : ∀ x ∈ platformIncludes, IsNested x := by
  have bare : ∀ x ∈ NativeSupport.libraries, IsBare x := by decide
  have line {name : String} (h : IsBare name) : IsNested (NativeSupport.libraryLine name) :=
    .between rfl h.isNested rfl
  exact List.forall_mem_cons.2 ⟨by decide, List.forall_mem_map.2 fun x hx => line (bare x hx)⟩

theorem woven_platformIncludes (lines : List String) (sub : lines ⊆ platformIncludes)
    (mark : ∀ x ∈ platformIncludes, M x) : Code.IsWoven N M (Code.lines lines) :=
  .marked fun x hx => ⟨mark x (sub hx), fun _ => isNested_platformIncludes x (sub hx)⟩

end Includes

section Shims

namespace Shim

theorem composed_self (own : t.Named N) : Composed N (self t).text :=
  composed_declared ((Composed.name own.name).suffixed ['*'] (by decide))
    (.fixed ['o', 'b', 'j'] (by decide))

theorem composed_selfOf (own : t.Named N) (isStatic : Bool) :
    ∀ d ∈ selfOf t isStatic, Composed N d.text := by
  cases isStatic with
  | true => exact fun d hd => absurd hd List.not_mem_nil
  | false => exact List.forall_mem_singleton.2 (composed_self own)

theorem composed_argument (names : s.Named N) {p : Parameter} (hp : Composed N p.name)
    {a : Argument} (h : argumentOf s p = .ok a) : Composed N a.text := by
  obtain ⟨shape, _, h⟩ := bind_eq_ok.1 h
  split at h
  · cases h
    exact ((Begun.start _).name hp _).closed (by decide)
  · cases h
    exact hp.prefixed ['*'] (by decide)
  · obtain ⟨vector, hvector, h⟩ := bind_eq_ok.1 h
    cases h
    have vector_ok : Composed N vector := names.composed_literal hvector
    exact ((((Begun.first vector_ok _).name hp _).name hp _).name hp _).closed (by decide)
  · cases h
    exact hp

theorem composed_answer {call : String} (h : Composed N call) (answer : Answer) :
    Composed N (answer.statement call) := by
  cases answer with
  | dropped => exact h.suffixed [';'] (by decide)
  | asIs => exact ((Begun.start _).name h _).closed (by decide)
  | addressed => exact ((Begun.start _).name h _).closed (by decide)
  | encoded => exact ((Begun.start _).name h _).closed (by decide)

theorem composed_snapshot {vector : String} (h : Composed N vector) :
    Composed N (snapshot vector) := ((Begun.start _).name h _).closed (by decide)

structure Function.IsComposed (N : String → Prop) (f : Function) : Prop where
  name : Composed N f.name
  result : Composed N f.result.literal
  parameters : ∀ d ∈ f.parameters, Composed N d.text
  statement : Composed N f.body.statement

variable {name : String} {f : Function} (names : s.Named N) (own : t.Named N)
  (hname : Composed N name)
include names own hname

theorem isComposed_memberFunction {m : Member} (hm : m ∈ t.members)
    (h : memberFunction s t name m = .ok f) : f.IsComposed N := by
  obtain ⟨parameters, hparameters, h⟩ := bind_eq_ok.1 h
  obtain ⟨result, hresult, h⟩ := bind_eq_ok.1 h
  obtain ⟨arguments, harguments, h⟩ := bind_eq_ok.1 h
  obtain ⟨answer, _, h⟩ := bind_eq_ok.1 h
  cases h
  have argumentTexts : Composed N (", ".intercalate (arguments.map Argument.text)) := by
    refine .intercalate fun text ht => ?_
    obtain ⟨a, ha, rfl⟩ := List.mem_map.1 ht
    obtain ⟨p, hp, ok⟩ := exists_left_of_forall₂ ((argumentsOf_stepwise s).forall₂ harguments) ha
    exact composed_argument names (own.composed_parameters hm p hp) ok
  have member := own.composed_signature hm
  refine ⟨hname, names.composed_resolve hresult, List.forall_mem_append.2 ⟨composed_selfOf own _,
    names.composed_declareFlat (own.composed_parameters hm) hparameters⟩, composed_answer ?_ answer⟩
  cases (t.signature m).isStatic with
  | false => exact (((Begun.start _).name member _).name argumentTexts _).closed (by decide)
  | true =>
    exact (((Begun.first (.name own.name) _).name member _).name argumentTexts _).closed (by decide)

theorem isComposed_arrayFunction {i : Nat} (hp : t.property i ∈ t.properties) {step : ArrayStep}
    (h : arrayFunction s t name i step = .ok f) : f.IsComposed N := by
  simp only [arrayFunction] at h
  split at h
  · obtain ⟨vector, hvector, h⟩ := bind_eq_ok.1 h
    have vector_ok : Composed N vector := names.composed_literal hvector
    have snapshot_ok := composed_snapshot vector_ok
    have self_ok := composed_selfOf own (t.property i).isStatic
    have array : Composed N (Declared.plain "void*" "array").text :=
      composed_declared (.fixed ['v', 'o', 'i', 'd', '*'] (by decide))
        (.fixed ['a', 'r', 'r', 'a', 'y'] (by decide))
    have index : Composed N (Declared.plain "int" "index").text :=
      composed_declared (.fixed ['i', 'n', 't'] (by decide))
        (.fixed ['i', 'n', 'd', 'e', 'x'] (by decide))
    have property := Composed.name (own.properties _ hp)
    cases step with
    | openArray =>
      cases h
      refine ⟨hname, (.fixed _ (by decide) : Composed N "void*"), self_ok, ?_⟩
      cases (t.property i).isStatic with
      | false =>
        have line : Composed N ("return new " ++ vector ++ "(" ++ "obj->" ++ "Get" ++
            (t.property i).name ++ "());") :=
          (((((Begun.start _).name vector_ok _).more _).more _).name property _).closed (by decide)
        exact line
      | true =>
        have line : Composed N ("return new " ++ vector ++ "(" ++ (t.name ++ "::") ++ "Get" ++
            (t.property i).name ++ "());") := by
          have scope : Composed N (t.name ++ "::") :=
            (Composed.name own.name).suffixed [':', ':'] (by decide)
          exact ((((Begun.start _).name vector_ok _).name scope _).name property _).closed
            (by decide)
        exact line
    | countItems =>
      cases h
      exact ⟨hname, (.fixed _ (by decide) : Composed N "int"),
        List.forall_mem_append.2 ⟨self_ok, List.forall_mem_singleton.2 array⟩,
        ((Begun.start _).name snapshot_ok _).closed (by decide)⟩
    | itemAt =>
      obtain ⟨result, hresult, h⟩ := bind_eq_ok.1 h
      obtain ⟨answer, _, h⟩ := bind_eq_ok.1 h
      cases h
      exact ⟨hname, names.composed_resolve hresult, List.forall_mem_append.2
        ⟨self_ok, List.forall_mem_cons.2 ⟨array, List.forall_mem_singleton.2 index⟩⟩,
        composed_answer (((Begun.start _).name snapshot_ok _).closed (by decide)) answer⟩
    | closeArray =>
      cases h
      exact ⟨hname, (.fixed _ (by decide) : Composed N "void"),
        List.forall_mem_append.2 ⟨self_ok, List.forall_mem_singleton.2 array⟩,
        ((Begun.start _).name snapshot_ok _).closed (by decide)⟩
  · cases h

omit hname in
theorem isComposed_functionOf {kind : ExportKind} (mem : kind ∈ s.exportKinds t)
    (h : functionOf s t (t.exportOf kind) = .ok f) : f.IsComposed N := by
  have hname := own.composed_nameOf mem
  have type := Composed.name own.name
  have void : Composed N "void" := .fixed _ (by decide)
  have callback {type : String} (composed : Composed N type) :
      ∀ d ∈ [Declared.plain type "callback"], Composed N d.text :=
    List.forall_mem_singleton.2
      (composed_declared composed (.fixed ['c', 'a', 'l', 'l', 'b', 'a', 'c', 'k'] (by decide)))
  cases kind with
  | member m =>
    exact isComposed_memberFunction names own hname (Schema.mem_exportKinds_member.1 mem).1 h
  | arrayAccess i step =>
    have hm := (Schema.mem_exportKinds_arrayAccess.1 mem).1
    exact isComposed_arrayFunction names own hname (exists_property_of_getter hm) h
  | create =>
    cases h
    exact ⟨hname, type.suffixed ['*'] (by decide), by simp,
      ((Begun.start _).name type _).closed (by decide)⟩
  | destroy =>
    cases h
    exact ⟨hname, void, List.forall_mem_singleton.2 (composed_self own),
      (.fixed _ (by decide) : Composed N "delete obj;")⟩
  | setEventCallback =>
    cases h
    have parameter : Composed N (t.name ++ "::" ++ t.name ++ "EventCallbackType") :=
      ((Begun.first type _).name type _).closed (by decide)
    exact ⟨hname, void, callback parameter, type.suffixed _ (by decide)⟩
  | setTrampolineLocator =>
    cases h
    have parameter : Composed N (t.name ++ "::Managed::TTrampolineLocatorCallback") :=
      type.suffixed _ (by decide)
    exact ⟨hname, void, callback parameter, type.suffixed _ (by decide)⟩
  | setManagedHandle =>
    cases h
    have handle : Composed N (Declared.plain "void*" "handle").text :=
      composed_declared (.fixed ['v', 'o', 'i', 'd', '*'] (by decide))
        (.fixed ['h', 'a', 'n', 'd', 'l', 'e'] (by decide))
    exact ⟨hname, void,
      List.forall_mem_cons.2 ⟨composed_self own, List.forall_mem_singleton.2 handle⟩,
      (.fixed _ (by decide) : Composed N "obj->SetManagedHandle(handle);")⟩

omit hname names own in
theorem Function.IsComposed.isWoven (h : f.IsComposed N) : f.code.IsWoven N M := by
  have signature : Composed N f.signatureLine :=
    ((((Begun.start _).name h.result _).name h.name _).name (composed_join h.parameters) _).closed
      (by decide)
  exact .append .blank (.block signature (.line h.statement))

end Shim

def Shim.includePaths (shim : Shim) : List String :=
  ("../" ++ shim.type.header) :: "ApiSupport.h" :: shim.includes.entries.map ("../" ++ ·)

theorem composed_header {u : ApiType} (hu : N u.name) : Composed N u.header :=
  (Composed.name hu).suffixed _ (by decide)

theorem Shim.isWoven_ofClass (names : s.Named N) (ht : t ∈ s.types) {exports : ExportTable}
    (exports_ok : ExportTable.build s t = .ok exports) {shim : Shim}
    (h : ofClass s t exports = .ok shim) : shim.code.IsWoven N (IncludesOf N shim.includePaths) := by
  have headers := exists_class_of_includes exports_ok h
  obtain ⟨functions, _, rfl⟩ := map_eq_ok.1 h
  have upward {u : ApiType} (hu : u ∈ s.types) : Composed N ("../" ++ u.header) :=
    (composed_header (names u hu).name).prefixed ['.', '.', '/'] (by decide)
  have paths : ∀ path ∈ includePaths ⟨t, functions⟩, Composed N path := by
    refine List.forall_mem_cons.2 ⟨upward ht, List.forall_mem_cons.2
      ⟨.fixed _ (by decide), fun path hpath => ?_⟩⟩
    obtain ⟨header, hheader, rfl⟩ := List.mem_map.1 hpath
    obtain ⟨u, hu, rfl⟩ := headers header hheader
    exact upward (Schema.mem_classes.1 hu).1
  have preamble : Code.lines (preamble ⟨t, functions⟩) =
      Code.lines ["#pragma once", ""] ++
        Code.lines ((includePaths ⟨t, functions⟩).map Code.includeLine) := by
    simp [Shim.preamble, includePaths, Code.lines]
  have pragma : ∀ x ∈ ["#pragma once", ""], Composed N x := by
    simp only [List.forall_mem_cons]
    exact ⟨.fixed _ (by decide), .fixed _ (by decide), by simp⟩
  rw [code, preamble]
  refine .append (.append (.lines pragma) (woven_includes _ paths (List.Subset.refl _)))
    (.flatMap fun f hf => Function.IsComposed.isWoven ?_)
  obtain ⟨kind, mem, ok⟩ := exists_kind exports_ok h hf
  exact isComposed_functionOf names (names t ht) mem ok

end Shims

end InteropGen
