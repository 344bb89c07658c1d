import InteropGen.Generation.Plan
import InteropGen.Proofs.ValueLayout
import InteropGen.Proofs.WovenShims

set_option autoImplicit false

/-!
# Files that are there once are woven

The value types are composed of the declared names and fixed text on both sides.  The support header
and the managed object base depend on the configuration alone.  Of the lines of the support header,
those that include other files and those that define the calling convention are marked.
-/

namespace InteropGen

-- The fixed texts are checked character by character, and some are long.
set_option maxRecDepth 1024

open Text

/-- `N` holds of the names that the configuration gives to managed code. -/
structure Config.Named (N : String → Prop) (c : Config) : Prop where
  namespaceName : N c.managed.namespace
  nativeModule : N c.managed.nativeModule
  objectClass : N c.managed.objectClass

variable {N M : String → Prop} {c : Config} {s : Schema} {t : ApiType} {paths : List String}

section Values

structure ValueEnum.IsComposed (N : String → Prop) (e : ValueEnum) : Prop where
  name : Composed N e.name
  values : ∀ v ∈ e.values, Composed N v.1

structure ValueStruct.IsComposed (N : String → Prop) (v : ValueStruct) : Prop where
  name : Composed N v.name
  fields : ∀ f ∈ v.fields, Composed N f.spelling.literal ∧ Composed N f.name

theorem Variants.exists_of_mem_expected {flags : Bool} {previous : Option Int} {vs : List Variant} :
    ∀ value ∈ expected flags previous vs, ∃ v ∈ vs, value.1 = v.name := by
  induction vs generalizing previous with
  | nil => exact fun value h => absurd h List.not_mem_nil
  | cons v vs ih =>
    refine List.forall_mem_cons.2 ⟨⟨v, List.mem_cons_self, rfl⟩, fun value h => ?_⟩
    obtain ⟨w, hw, eq⟩ := ih value h
    exact ⟨w, List.mem_cons_of_mem v hw, eq⟩

theorem ValueEnum.Declares.isComposed {e : ValueEnum} (own : t.Named N) (h : e.Declares t) :
    e.IsComposed N := by
  refine ⟨h.name ▸ .name own.name, fun value mem => ?_⟩
  rw [h.values] at mem
  obtain ⟨v, hv, eq⟩ := Variants.exists_of_mem_expected value mem
  exact eq ▸ .name (own.variants v hv)

theorem ValueStruct.Declares.isComposed {dialect : Dialect} {v : ValueStruct} (names : s.Named N)
    (ht : t ∈ s.types) (h : v.Declares s dialect t) : v.IsComposed N := by
  refine ⟨h.name ▸ .name (names t ht).name, fun field hfield => ?_⟩
  obtain ⟨f, hf, declares⟩ := exists_left_of_forall₂ h.fields hfield
  obtain ⟨shape, hshape, _, spelled⟩ := declares.spelling
  exact ⟨composed_spell (names.all_named hshape) spelled,
    declares.name ▸ .name ((names t ht).fields f hf)⟩

theorem ValueEnum.IsComposed.lines {e : ValueEnum} (h : e.IsComposed N) :
    Code.IsWoven N M (Code.lines e.lines) := by
  refine .lines fun x hx => ?_
  obtain ⟨⟨name, value⟩, mem, rfl⟩ := List.mem_map.1 hx
  exact ((Begun.first (h.values _ mem) _).name (.number value) _).closed (by decide)

namespace SameLayout

variable {n : NativeTypes} {m : ManagedTypes} (layout : SameLayout s n m) (names : s.Named N)
include layout names

theorem isComposed_enums : ∀ e ∈ n.enums, e.IsComposed N := by
  intro e he
  obtain ⟨t, ht, declares⟩ := exists_left_of_forall₂ layout.enums he
  exact declares.isComposed (names t (List.mem_filter.1 ht).1)

theorem isComposed_structs :
    (∀ v ∈ n.structs, v.IsComposed N) ∧ ∀ v ∈ m.structs, v.IsComposed N := by
  obtain ⟨order, perm, _, native, managed⟩ := layout.structs
  have all {dialect : Dialect} {vs : List ValueStruct}
      (h : List.Forall₂ (ValueStruct.Declares s dialect) order vs) :
      ∀ v ∈ vs, v.IsComposed N := by
    intro v hv
    obtain ⟨t, ht, declares⟩ := exists_left_of_forall₂ h hv
    exact declares.isComposed names (Schema.mem_types_of_structs (perm.subset ht))
  exact ⟨all native, all managed⟩

theorem isWoven_native : n.code.IsWoven N (IncludesOf N ["ApiSupport.h"]) := by
  have classes : ∀ x ∈ n.classes.map NativeTypes.classLine, Composed N x := by
    intro x hx
    obtain ⟨name, hname, rfl⟩ := List.mem_map.1 hx
    rw [layout.classes] at hname
    obtain ⟨t, ht, rfl⟩ := List.mem_map.1 hname
    exact ((Begun.start _).name (.name (names t (Schema.mem_classes.1 ht).1).name) _).closed
      (by decide)
  have enumCode : ∀ e ∈ n.enums, Code.IsWoven N (IncludesOf N ["ApiSupport.h"])
      (NativeTypes.enumCode e) := by
    intro e he
    have composed := layout.isComposed_enums names e he
    have headline : Composed N
        ("enum class " ++ e.name ++ " : " ++ (if e.isWide then "int64_t" else "int")) := by
      split
      · exact (((Begun.start _).name composed.name _).last (.fixed _ (by decide)) (by decide))
      · exact (((Begun.start _).name composed.name _).last (.fixed _ (by decide)) (by decide))
    exact .append (.append .blank (.blockEnding headline composed.lines))
      (.given _ (.line (((Begun.start _).name composed.name _).closed (by decide))))
  have structCode : ∀ v ∈ n.structs, Code.IsWoven N (IncludesOf N ["ApiSupport.h"])
      (NativeTypes.structCode v) := by
    intro v hv
    have composed := (layout.isComposed_structs names).1 v hv
    refine .append .blank (.blockEnding ((Begun.start _).last composed.name (by decide))
      (.lines fun x hx => ?_))
    obtain ⟨f, hf, rfl⟩ := List.mem_map.1 hx
    obtain ⟨spelling, name⟩ := composed.fields f hf
    exact (((Begun.first spelling _).name name _).closed (by decide))
  exact .append (.append (.append (.append (.append (.fixed _ (by decide)) .blank)
    (woven_include (.fixed _ (by decide)) List.mem_cons_self))
    (.apart (.lines classes))) (.flatMap enumCode)) (.flatMap structCode)

theorem isWoven_managed (config : c.Named N) : (m.code c).IsWoven N M := by
  have enumCode : ∀ e ∈ m.enums, Code.IsWoven N M (ManagedTypes.enumCode e) := by
    intro e he
    have composed := layout.isComposed_enums names e (layout.sameEnums ▸ he)
    have headline : Composed N
        ("public enum " ++ e.name ++ " : " ++ (if e.isWide then "long" else "int")) := by
      split
      · exact (((Begun.start _).name composed.name _).last (.fixed _ (by decide)) (by decide))
      · exact (((Begun.start _).name composed.name _).last (.fixed _ (by decide)) (by decide))
    exact .append (.given _ (.fixed _ (by decide))) (.block headline composed.lines)
  have structCode : ∀ v ∈ m.structs, Code.IsWoven N M (ManagedTypes.structCode v) := by
    intro v hv
    have composed := (layout.isComposed_structs names).2 v hv
    refine .append (.fixed _ (by decide)) (.block ((Begun.start _).last composed.name (by decide))
      (.flatMap fun f hf => ?_))
    obtain ⟨spelling, name⟩ := composed.fields f hf
    exact .append (.given _ (.fixed _ (by decide)))
      (.line ((((Begun.start _).name spelling _).name name _).closed (by decide)))
  have pieces : ∀ code ∈ m.enums.map ManagedTypes.enumCode ++ m.structs.map ManagedTypes.structCode,
      Code.IsWoven N M code :=
    List.forall_mem_append.2 ⟨List.forall_mem_map.2 enumCode, List.forall_mem_map.2 structCode⟩
  exact .append (.cons (.fixed _ (by decide)) (.cons (.fixed _ (by decide))
    (.cons (.fixed _ (by decide)) .nil)))
    (.block ((Begun.start _).last (.name config.namespaceName) (by decide)) (.separated pieces))

end SameLayout

end Values

theorem isWoven_aggregate (names : s.Named N) :
    (aggregateCode s).IsWoven N
      (IncludesOf N (s.classes.map fun t => "Api/" ++ t.name ++ ".Api.h")) := by
  have paths : aggregateCode s = Code.lines ((s.classes.map fun t =>
      "Api/" ++ t.name ++ ".Api.h").map Code.includeLine) := by
    rw [List.map_map]
    rfl
  rw [paths]
  refine woven_includes _ (fun path hpath => ?_) (List.Subset.refl _)
  obtain ⟨t, ht, rfl⟩ := List.mem_map.1 hpath
  exact ((Begun.start _).name (.name (names t (Schema.mem_classes.1 ht).1).name) _).closed
    (by decide)

namespace NativeSupport

def conventionMacros (convention : String) : List String :=
  ["#define NATIVE_API_CALL " ++ convention, "#define NATIVE_CALLBACK_CALL " ++ convention]

theorem isWoven_exceptionCode {name constructor text : String} (named : Composed N name)
    (made : Composed N constructor) (message : Composed N text) :
    (exceptionCode name constructor text).IsWoven N M := by
  have headline : Composed N ("class " ++ name ++ " : public std::logic_error") :=
    ((Begun.start _).name named _).closed (by decide)
  have initial : Composed N ("    : std::logic_error(" ++ text ++ ")") :=
    ((Begun.start _).name message _).closed (by decide)
  exact .blockEnding headline (.append (.fixed _ (by decide))
    (.nest (.append (.cons made (.cons initial .nil)) (.braces .nil))))

theorem composed_binaryOperator {sign : String} (h : Composed N sign) :
    Composed N (binaryOperator sign) :=
  (((((Begun.start _).name h _).more _).name h _)).closed (by decide)

theorem composed_flagsMacro : ∀ x ∈ flagsMacro, Composed N x := by
  simp only [flagsMacro, List.forall_mem_cons]
  exact ⟨.fixed _ (by decide), composed_binaryOperator (.fixed _ (by decide)),
    composed_binaryOperator (.fixed _ (by decide)), composed_binaryOperator (.fixed _ (by decide)),
    ((Begun.start _).more _).closed (by decide), .fixed _ (by decide),
    .fixed _ (by decide), by simp⟩

theorem isWoven_allocation : allocation.IsWoven N M :=
  .block (.fixed _ (by decide)) <|
    .cons (.fixed _ (by decide)) <| .cons (.fixed _ (by decide)) <|
    .cons (.fixed _ (by decide)) <| .cons (.fixed _ (by decide)) <|
    .cons (.fixed _ (by decide)) <| .cons (.fixed _ (by decide)) <|
    .cons (.fixed _ (by decide)) <| .cons (.fixed _ (by decide)) <|
    .cons (.fixed _ (by decide)) <| .cons (.fixed _ (by decide)) .nil

theorem isWoven_conversion : conversion.IsWoven N M :=
  .block (.fixed _ (by decide)) (.fixed _ (by decide))

theorem isWoven_release : release.IsWoven N M :=
  .block (.fixed _ (by decide)) <|
    .cons (.fixed _ (by decide)) <| .cons (.fixed _ (by decide)) <|
    .cons (.fixed _ (by decide)) <| .cons (.fixed _ (by decide)) <|
    .cons (.fixed _ (by decide)) .nil

/-- The line includes a header of the platform, or defines how the given convention is written. -/
def SupportLine (convention : String) (x : String) : Prop :=
  x ∈ platformIncludes ∨ x ∈ conventionMacros convention

theorem isWoven_exportMacros (convention : CallingConvention) :
    Code.IsWoven N (SupportLine convention.native) (Code.lines (exportMacros convention.native)) := by
  have spelled : IsNested convention.native := by cases convention <;> decide
  have macros : ∀ x ∈ conventionMacros convention.native, IsNested x :=
    List.forall_mem_cons.2 ⟨.behind rfl spelled, List.forall_mem_singleton.2 (.behind rfl spelled)⟩
  have branch : Code.IsWoven N (SupportLine convention.native)
      (Code.lines (conventionMacros convention.native)) :=
    .marked fun x hx => ⟨.inr hx, fun _ => macros x hx⟩
  have objbase : Code.IsWoven N (SupportLine convention.native) (Code.line "#include <objbase.h>") :=
    woven_platformIncludes ["#include <objbase.h>"]
      (List.cons_subset.2 ⟨List.mem_cons_self, List.nil_subset _⟩) fun _ mem => .inl mem
  exact .append (.append (.append (.append (.fixed _ (by decide)) objbase)
    (.fixed _ (by decide))) branch)
    (.cons (.fixed _ (by decide)) <| .cons (.fixed _ (by decide)) <|
      .cons (.fixed _ (by decide)) <| .cons (.fixed _ (by decide)) <|
      .cons (.fixed _ (by decide)) .nil)

theorem isWoven_code : (code c).IsWoven N (SupportLine c.native.convention.native) := by
  have libraries : Code.IsWoven N (SupportLine c.native.convention.native)
      (Code.lines (libraries.map libraryLine)) :=
    woven_platformIncludes _ (List.subset_cons_self _ _) fun _ mem => .inl mem
  have locator : locatorException.IsWoven N (SupportLine c.native.convention.native) :=
    isWoven_exceptionCode (.fixed _ (by decide)) (.fixed _ (by decide))
      (.fixed _ (by decide))
  have slot : slotException.IsWoven N (SupportLine c.native.convention.native) :=
    isWoven_exceptionCode (.fixed _ (by decide)) (.fixed _ (by decide))
      (.fixed _ (by decide))
  have pieces : ∀ code ∈ [locatorException, slotException, allocation, conversion, release],
      code.IsWoven N (SupportLine c.native.convention.native) := by
    simp only [List.forall_mem_cons]
    exact ⟨locator, slot, isWoven_allocation, isWoven_conversion, isWoven_release, by simp⟩
  exact .append (.append (.append (.append (.append (.append (.append (.append
    (.cons (.fixed _ (by decide)) (.cons (.fixed _ (by decide)) .nil)) libraries) .blank)
    (isWoven_exportMacros _)) .blank)
    (.cons (.fixed _ (by decide)) (.cons (.fixed _ (by decide)) .nil))) (.spaced pieces)) .blank)
    (.unindented composed_flagsMacro)

end NativeSupport

namespace ObjectBase

variable {name : String} (h : Composed N name)

include h in
theorem isWoven_setter : (setter name).IsWoven N M := by
  have stored : Composed N ("    instances[value] = new WeakReference<" ++ name ++ ">(this);") :=
    ((Begun.start _).name h _).closed (by decide)
  exact .block (.fixed _ (by decide)) <|
    .cons (.fixed _ (by decide)) <| .cons (.fixed _ (by decide)) <|
    .cons (.fixed _ (by decide)) <| .cons (.fixed _ (by decide)) <| .cons stored .nil

include h in
theorem isWoven_lookup : (lookup name).IsWoven N M := by
  have headline : Composed N
      ("public static T? GetFromNativePointer<T>(IntPtr pointer, Func<IntPtr, T>? create) " ++
        "where T : " ++ name) := ((Begun.start _).more _).last h (by decide)
  have found : Composed N ("if (instances.TryGetValue(pointer, out var weak) && " ++
      "weak.TryGetTarget(out var existing))") :=
    ((Begun.start _).more _).closed (by decide)
  exact .block headline <|
    .cons (.fixed _ (by decide)) <| .cons (.fixed _ (by decide)) <| .cons found <|
    .cons (.fixed _ (by decide)) <| .cons (.fixed _ (by decide)) .nil

theorem isWoven_release : release.IsWoven N M :=
  .block (.fixed _ (by decide)) <|
    .cons (.fixed _ (by decide)) <| .cons (.fixed _ (by decide)) .nil

theorem isWoven_dispose : dispose.IsWoven N M :=
  .block (.fixed _ (by decide)) <|
    .cons (.fixed _ (by decide)) <| .cons (.fixed _ (by decide)) <|
    .cons (.fixed _ (by decide)) <| .cons (.fixed _ (by decide)) <|
    .cons (.fixed _ (by decide)) .nil

include h in
theorem isWoven_members : ∀ code ∈ members name, code.IsWoven N M := by
  have instances : Composed N
      ("static readonly ConcurrentDictionary<IntPtr, WeakReference<" ++ name ++
        ">> instances = new();") := ((Begun.start _).name h _).closed (by decide)
  have plain : Composed N ("protected " ++ name ++ "()") :=
    ((Begun.start _).name h _).closed (by decide)
  have wrapping : Composed N ("protected " ++ name ++ "(IntPtr nativePointer)") :=
    ((Begun.start _).name h _).closed (by decide)
  simp only [members, List.forall_mem_cons]
  exact ⟨.line instances, .fixed _ (by decide), .block plain .nil,
    .block wrapping (.fixed _ (by decide)),
    .cons (.fixed _ (by decide)) (.cons (.fixed _ (by decide)) .nil),
    .fixed _ (by decide), .fixed _ (by decide), isWoven_setter h, isWoven_lookup h,
    isWoven_release, .block (.fixed _ (by decide)) .nil, isWoven_dispose, by simp⟩

theorem isWoven_eventArguments : eventArguments.IsWoven N M := by
  refine .block (.fixed _ (by decide)) (.separated ?_)
  simp only [List.forall_mem_cons]
  exact ⟨.block (.fixed _ (by decide)) (.fixed _ (by decide)), .fixed _ (by decide),
    .fixed _ (by decide), by simp⟩

theorem isWoven_eventHandler : eventHandler.IsWoven N M :=
  .line (((Begun.start _).more _).closed (by decide))

theorem isWoven_code (config : c.Named N) : (code c).IsWoven N M := by
  have name := Composed.name config.objectClass
  have headline : Composed N ("internal abstract class " ++ c.managed.objectClass ++
      " : IDisposable") := ((Begun.start _).name name _).closed (by decide)
  refine .append (.cons (.fixed _ (by decide)) <| .cons (.fixed _ (by decide)) <|
    .cons (.fixed _ (by decide)) <| .cons (.fixed _ (by decide)) <|
    .cons (.fixed _ (by decide)) .nil)
    (.block ((Begun.start _).last (.name config.namespaceName) (by decide)) (.separated ?_))
  simp only [List.forall_mem_cons]
  exact ⟨.block headline (.separated (isWoven_members name)), isWoven_eventArguments,
    isWoven_eventHandler, by simp⟩

end ObjectBase

end InteropGen
