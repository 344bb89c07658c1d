import Mathlib.Logic.Relation
import InteropGen.Proofs.HandleOwnership
import InteropGen.Proofs.IncludedFiles
import InteropGen.Proofs.Outlines
import InteropGen.Proofs.PlannedPaths
import InteropGen.Proofs.WovenPlans

set_option autoImplicit false

/-!
# Includes stay inside the plan

From the directory of a native file, every path that it includes leads to a planned file.  Among the
files of classes, a header includes the header of the base only, and since the bases of a class form
a chain that ends, no header comes back to itself.
-/

namespace InteropGen

open Text

namespace Path

variable {p : Path} {names : List String} {name : String}

def enter (names : List String) (piece : String) : List String :=
  if piece = ".." then names.dropLast else if isStep piece then names ++ [piece] else names

/-- The names that a written path leads to, from the directory with the given names. -/
def resolve (names : List String) (target : String) : List String :=
  (Path.mk target).pieces.foldl enter names

/-- From the directory of a file at `p`, the written path leads to the place `q`. -/
def LeadsTo (p : Path) (target : String) (q : Path) : Prop :=
  q.isAbsolute = p.isAbsolute ∧ q.names = resolve p.names.dropLast target

instance (p : Path) (target : String) (q : Path) : Decidable (p.LeadsTo target q) :=
  inferInstanceAs (Decidable (_ ∧ _))

theorem resolve_entry (h : IsEntryName name) : resolve names name = names ++ [name] := by
  have pieces : (Path.mk name).pieces = [name] := pieces_name h
  rw [resolve, pieces, List.foldl_cons, List.foldl_nil, enter, if_neg h.notUp, if_pos h.isStep]

theorem resolve_step {first : List Char} (noSlash : '/' ∉ first) (target : String) :
    resolve names (String.ofList (first ++ ['/']) ++ target) =
      resolve (enter names (String.ofList first)) target := by
  have chars : (String.ofList (first ++ ['/']) ++ target).toList =
      first ++ '/' :: target.toList := by simp
  have pieces : (Path.mk (String.ofList (first ++ ['/']) ++ target)).pieces =
      String.ofList first :: (Path.mk target).pieces := by
    rw [pieces_ofChars chars, pieces_append_sep, pieces_of_not_mem noSlash]
    rfl
  rw [resolve, pieces, List.foldl_cons]
  rfl

theorem resolve_up (target : String) :
    resolve (names ++ [name]) ("../" ++ target) = resolve names target := by
  have step : resolve (names ++ [name]) ("../" ++ target) =
      resolve (enter (names ++ [name]) "..") target :=
    resolve_step (by decide : '/' ∉ ['.', '.']) target
  rw [step, enter, if_pos rfl, List.dropLast_concat]

theorem resolve_down (target : String) :
    resolve names ("Api/" ++ target) = resolve (names ++ ["Api"]) target :=
  resolve_step (by decide : '/' ∉ ['A', 'p', 'i']) target

end Path

open InteropGen.Path

namespace FileRole

variable {c : Config} {r r' : FileRole}
  (named : isName (r.stem c).toList = true) (named' : isName (r'.stem c).toList = true)

include named in
theorem names_path : (r.path c).names = (r.folder.path c).names ++ [r.fileName c] :=
  names_child (isEntryName_fileName named)

theorem isEntryName_api : IsEntryName "Api" := ⟨by decide, by decide, by decide⟩

theorem names_api : (Folder.api.path c).names = (Folder.native.path c).names ++ ["Api"] :=
  names_child isEntryName_api

theorem isAbsolute_api : (Folder.api.path c).isAbsolute = (Folder.native.path c).isAbsolute :=
  isAbsolute_child isEntryName_api

include named named' in
theorem leadsTo_iff {target : String} (absolute : (r'.folder.path c).isAbsolute =
      (r.folder.path c).isAbsolute) :
    (r.path c).LeadsTo target (r'.path c) ↔
      (r'.folder.path c).names ++ [r'.fileName c] = resolve (r.folder.path c).names target := by
  have same : (r'.path c).isAbsolute = (r.path c).isAbsolute := by
    rw [path, path, isAbsolute_child (isEntryName_fileName named'),
      isAbsolute_child (isEntryName_fileName named), absolute]
  rw [LeadsTo, names_path named, names_path named', List.dropLast_concat, and_iff_right same]

def reference (c : Config) (r r' : FileRole) : String :=
  match r.folder, r'.folder with
  | .native, .api => "Api/" ++ r'.fileName c
  | .api, .native => "../" ++ r'.fileName c
  | _, _ => r'.fileName c

include named named' in
theorem leadsTo_reference (native : r.folder ≠ .managed) (native' : r'.folder ≠ .managed) :
    (r.path c).LeadsTo (reference c r r') (r'.path c) := by
  have entry := isEntryName_fileName named'
  unfold reference
  cases here : r.folder <;> cases there : r'.folder
  case native.api =>
    rw [leadsTo_iff named named' (by rw [here, there, isAbsolute_api]), resolve_down,
      resolve_entry entry, here, there, names_api]
  case api.native =>
    rw [leadsTo_iff named named' (by rw [here, there, isAbsolute_api]), here, there, names_api,
      resolve_up, resolve_entry entry]
  case native.native | api.api =>
    rw [leadsTo_iff named named' (by rw [here, there]), resolve_entry entry, here, there]
  all_goals contradiction

theorem fileName_fixed (c : Config) :
    fileName c aggregate = "Api.cpp" ∧ fileName c support = "ApiSupport.h" ∧
      fileName c types = "ApiTypes.h" ∧ fileName c managedTypes = "NativeTypes.cs" := by
  simp [fileName, stem, ending]

theorem classOf?_of_scaffold (h : r.kind = .scaffold) : r.classOf? = some (r.stem c) := by
  cases r <;> first | rfl | cases h

theorem folder_of_scaffold (h : r.kind = .scaffold) : r.folder = .native := by
  cases r <;> first | rfl | cases h

section Includes

variable {s : Schema}

inductive Includes (s : Schema) : FileRole → FileRole → Prop
  | types : Includes s types support
  | aggregate {t : ApiType} (ht : t ∈ s.classes) : Includes s aggregate (shim t.name)
  | support {t : ApiType} (ht : t ∈ s.classes) : Includes s (shim t.name) support
  | mentioned {t u : ApiType} (ht : t ∈ s.classes) (hu : u ∈ s.classes) :
      Includes s (shim t.name) (header u.name)
  | values {t : ApiType} (ht : t ∈ s.classes) : Includes s (header t.name) types
  | base {t b : ApiType} (ht : t ∈ s.classes) (base : s.baseOf t = some b) :
      Includes s (header t.name) (header b.name)
  | fragment {t : ApiType} (ht : t ∈ s.classes) : Includes s (header t.name) (fragment t.name)
  | header {t : ApiType} (ht : t ∈ s.classes) : Includes s (source t.name) (header t.name)

/-- How many classes a scaffold has below it, down to the last base. -/
def height (s : Schema) : FileRole → Nat
  | header name => (s.get? name).elim 0 fun t => (s.lineage t).length
  | source name => (s.get? name).elim 0 fun t => (s.lineage t).length + 1
  | _ => 0

namespace Includes

theorem native (h : Includes s r r') : r.folder ≠ .managed ∧ r'.folder ≠ .managed := by
  cases h <;> simp [folder]

theorem mem (h : Includes s r r') : r' ∈ ofClasses (s.classes.map ApiType.name) := by
  have owned {t : ApiType} (ht : t ∈ s.classes) : t.name ∈ s.classes.map ApiType.name :=
    List.mem_map_of_mem ht
  refine mem_ofClasses.2 fun name hname => ?_
  cases h with
  | types | support _ | values _ => cases hname
  | aggregate ht | fragment ht | header ht =>
    cases hname
    exact owned ht
  | mentioned _ hu =>
    cases hname
    exact owned hu
  | base _ isBase =>
    cases hname
    exact owned (Schema.mem_classes.2 ⟨Schema.baseOf_mem isBase, Schema.baseOf_isClass isBase⟩)

theorem isName_stems (named : ∀ t ∈ s.types, isName t.name.toList = true)
    (h : Includes s r r') :
    isName (r.stem c).toList = true ∧ isName (r'.stem c).toList = true := by
  have own {t : ApiType} (ht : t ∈ s.classes) : isName t.name.toList = true :=
    named t (Schema.mem_classes.1 ht).1
  have unit : isName "Api".toList = true := by decide
  have support : isName "ApiSupport".toList = true := by decide
  have types : isName "ApiTypes".toList = true := by decide
  cases h with
  | types => exact ⟨types, support⟩
  | aggregate ht => exact ⟨unit, own ht⟩
  | support ht => exact ⟨own ht, support⟩
  | mentioned ht hu => exact ⟨own ht, own hu⟩
  | values ht => exact ⟨own ht, types⟩
  | base ht isBase => exact ⟨own ht, named _ (Schema.baseOf_mem isBase)⟩
  | fragment ht | header ht => exact ⟨own ht, own ht⟩

theorem isQuotable_reference (named : ∀ t ∈ s.types, isName t.name.toList = true)
    (h : Includes s r r') : IsQuotable (reference c r r') := by
  obtain ⟨_, stem⟩ := h.isName_stems (c := c) named
  have noQuote := not_mem_of_isName stem (by decide : isNamePart '"' = false)
  have oneLine := not_mem_of_isName stem (by decide : isNamePart '\n' = false)
  have endings : '"' ∉ r'.ending.toList ∧ '\n' ∉ r'.ending.toList := by
    cases r' <;> simp [ending]
  have name : IsQuotable (r'.fileName c) := by
    simp only [IsQuotable, IsOneLine, fileName, String.toList_append, List.mem_append, not_or]
    exact ⟨⟨noQuote, endings.1⟩, oneLine, endings.2⟩
  have behind {start : String} (h : IsQuotable start) : IsQuotable (start ++ r'.fileName c) := by
    simp only [IsQuotable, IsOneLine, String.toList_append, List.mem_append, not_or] at h name ⊢
    exact ⟨⟨h.1, name.1⟩, h.2, name.2⟩
  unfold reference
  split
  · exact behind ⟨by decide, by decide⟩
  · exact behind ⟨by decide, by decide⟩
  · exact name

/-- From scaffold to scaffold, includes lead down to the last base. -/
theorem height_lt (valid : s.validate = .ok ()) (h : Includes s r r')
    (scaffold : r.kind = .scaffold) (scaffold' : r'.kind = .scaffold) :
    height s r' < height s r := by
  have found {t : ApiType} (ht : t ∈ s.types) : s.get? t.name = some t :=
    Schema.get?_of_mem (s.nodup_names_of_validate valid) ht
  cases h with
  | types | aggregate _ | support _ | mentioned _ _ => cases scaffold
  | values _ | fragment _ => cases scaffold'
  | @base t b ht isBase =>
    have whole := s.isLineage_lineage valid ht
    have hb := Schema.baseOf_mem isBase
    have rest := s.isLineage_lineage valid
      (Schema.mem_classes.2 ⟨hb, Schema.baseOf_isClass isBase⟩)
    have lineage : s.lineage t = t :: s.lineage b := whole.unique (.step isBase rest)
    rw [height, height, found hb, found (Schema.mem_classes.1 ht).1]
    change (s.lineage b).length < (s.lineage t).length
    rw [lineage]
    exact Nat.lt_succ_self _
  | header ht =>
    rw [height, height, found (Schema.mem_classes.1 ht).1]
    exact Nat.lt_succ_self _

end Includes

def IncludesAlong (c : Config) (s : Schema) (r : FileRole) (paths : List String) : Prop :=
  ∀ path ∈ paths, ∃ r', Includes s r r' ∧ path = reference c r r'

theorem IncludesAlong.quotable {paths : List String}
    (named : ∀ t ∈ s.types, isName t.name.toList = true) (h : IncludesAlong c s r paths) :
    ∀ path ∈ paths, IsQuotable path := by
  intro path hpath
  obtain ⟨r', includes, rfl⟩ := h path hpath
  exact includes.isQuotable_reference named

end Includes

end FileRole

section Texts

variable {c : Config} {s : Schema} {t : ApiType}

theorem avoids_behind {x y : String} (absent : '#' ∉ x.toList) (hy : Avoids includeWord y) :
    Avoids includeWord (x ++ y) := fun occurs => by
  rw [String.toList_append] at occurs
  exact hy (infix_of_infix_append absent occurs)

/-- The word of an include line does not run over the seam between a type and its member. -/
theorem ApiType.EachName.named_of_isName (own : t.EachName (Avoids includeWord))
    (named : isName t.name.toList = true) : t.Named (Avoids includeWord) := by
  have absent : '#' ∉ t.name.toList := not_mem_of_isName named (by decide)
  have seam {text : String} (h : '#' ∉ text.toList) : '#' ∉ (t.name ++ text).toList := by
    rw [String.toList_append, List.mem_append, not_or]
    exact ⟨absent, h⟩
  exact
    { own with
      functions := fun m hm => avoids_behind (seam (by decide)) (own.methods m hm)
      slots := fun _ m hm => avoids_behind absent (own.methods m hm)
      staticProperties := fun _ p hp _ => avoids_behind (seam (by decide)) (own.properties p hp)
      staticMethods := fun _ m hm _ => avoids_behind (seam (by decide)) (own.methods m hm) }

namespace FileRole

variable {r : FileRole} {paths : List String} {code : Code}

/-- Woven code that is meant to include files along a role includes nothing else. -/
theorem IncludesAlong.of_woven (named : ∀ t ∈ s.types, isName t.name.toList = true)
    (along : IncludesAlong c s r paths)
    (woven : code.IsWoven (Avoids includeWord) (IncludesOf (Avoids includeWord) paths)) :
    IncludesAlong c s r (includedPaths (c.generatedFile code)) ∧
      IncludesAlong c s r (includedPaths (c.scaffoldFile code)) := by
  have only := woven.includesOnly (fun _ avoids => avoids) (along.quotable named)
  exact ⟨fun path found => along path (includedPaths_generatedFile only found),
    fun path found => along path (includedPaths_render only found)⟩

theorem includesAlong_types : IncludesAlong c s types ["ApiSupport.h"] :=
  List.forall_mem_singleton.2 ⟨_, .types, rfl⟩

theorem includesAlong_aggregate :
    IncludesAlong c s aggregate (s.classes.map fun t => "Api/" ++ t.name ++ ".Api.h") := by
  intro path hpath
  obtain ⟨t, ht, rfl⟩ := List.mem_map.1 hpath
  exact ⟨_, .aggregate ht, String.append_assoc⟩

theorem includesAlong_shim (ht : t ∈ s.classes) {shim : Shim} (own : shim.type = t)
    (headers : ∀ header ∈ shim.includes.entries, ∃ u ∈ s.classes, header = u.header) :
    IncludesAlong c s (.shim t.name) shim.includePaths := by
  refine List.forall_mem_cons.2 ⟨⟨_, .mentioned ht ht, own ▸ rfl⟩,
    List.forall_mem_cons.2 ⟨⟨_, .support ht, rfl⟩, fun path hpath => ?_⟩⟩
  obtain ⟨header, hheader, rfl⟩ := List.mem_map.1 hpath
  obtain ⟨u, hu, rfl⟩ := headers header hheader
  exact ⟨_, .mentioned ht hu, rfl⟩

theorem includesAlong_header (ht : t ∈ s.classes) :
    IncludesAlong c s (.header t.name) (Scaffold.headerPaths s t) := by
  refine List.forall_mem_append.2 ⟨List.forall_mem_cons.2 ⟨⟨_, .values ht, rfl⟩, ?_⟩,
    List.forall_mem_singleton.2 ⟨_, .fragment ht, String.append_assoc⟩⟩
  intro path hpath
  obtain ⟨b, hb, rfl⟩ := Option.map_eq_some_iff.1 (Option.mem_toList.1 hpath)
  exact ⟨_, .base ht hb, rfl⟩

theorem includesAlong_source (ht : t ∈ s.classes) :
    IncludesAlong c s (.source t.name) [t.header] :=
  List.forall_mem_singleton.2 ⟨_, .header ht, rfl⟩

end FileRole

theorem NativeSupport.includedPaths_code : includedPaths (c.generatedFile (code c)) = [] := by
  have defined : ∀ convention : CallingConvention, ∀ x ∈ conventionMacros convention.native,
      Avoids includeWord x := by
    intro convention
    cases convention <;> decide +kernel
  have woven : (code c).IsWoven (Avoids includeWord) (SupportLine c.native.convention.native) :=
    isWoven_code
  have only : ∀ x ∈ (code c).texts, IncludesOnly [] x := by
    intro x hx
    rcases woven.avoids includeWord (by decide) (fun _ h => h) x hx with
      absent | platform | convention
    · exact includesOnly_of_avoids absent
    · exact includesOnly_of_includesOf (List.forall_mem_nil _)
        (.inr platform : IncludesOf (Avoids includeWord) [] x)
    · exact includesOnly_of_avoids (defined _ x convention)
  exact List.subset_nil.1 (includedPaths_generatedFile only)

end Texts

namespace PlannedFile

def IsNative (f : PlannedFile) : Prop := ¬ ['.', 'c', 's'] <:+ f.path.chars

instance (f : PlannedFile) : Decidable f.IsNative :=
  inferInstanceAs (Decidable ¬ ['.', 'c', 's'] <:+ f.path.chars)

/-- The text of the one file includes the other. -/
def Includes (f g : PlannedFile) : Prop :=
  ∃ target ∈ includedPaths f.content, f.path.LeadsTo target g.path

/-- The file stands where its role puts it, and includes what its role includes. -/
structure HasRole (c : Config) (s : Schema) (f : PlannedFile) (r : FileRole) : Prop where
  mem : r ∈ FileRole.ofClasses (s.classes.map ApiType.name)
  path : f.path = r.path c
  kind : f.kind = r.kind
  includes : r.folder ≠ .managed → r.IncludesAlong c s (includedPaths f.content)

variable {c : Config} {s : Schema} {f g : PlannedFile} {r r' : FileRole}

theorem HasRole.native (role : f.HasRole c s r) (native : f.IsNative) : r.folder ≠ .managed := by
  intro managed
  have ending : r.ending = ".cs" := by cases r <;> simp_all [FileRole.folder, FileRole.ending]
  refine native ?_
  rw [role.path, FileRole.path]
  refine List.IsSuffix.trans ?_ (suffix_child _ _)
  rw [FileRole.fileName, ending, String.toList_append]
  exact List.suffix_append _ _

section Config

variable {code : Code} {dir : Path} {name : String}
  (mem : r ∈ FileRole.ofClasses (s.classes.map ApiType.name)) (place : r.folder.path c = dir)
  (own : r.fileName c = name)

include mem place own

theorem HasRole.generated (kind : r.kind = .generated)
    (includes : r.folder ≠ .managed → r.IncludesAlong c s (includedPaths (c.generatedFile code))) :
    (c.generated dir name code).HasRole c s r :=
  ⟨mem, by rw [FileRole.path, place, own, Config.generated], kind.symm, includes⟩

theorem HasRole.scaffold (kind : r.kind = .scaffold)
    (includes : r.IncludesAlong c s (includedPaths (c.scaffoldFile code))) :
    (c.scaffold dir name code).HasRole c s r :=
  ⟨mem, by rw [FileRole.path, place, own, Config.scaffold], kind.symm, fun _ => includes⟩

end Config

variable (named : ∀ t ∈ s.types, isName t.name.toList = true)
include named

/-- A scaffold that is included is the one that the text of its role names. -/
theorem HasRole.includes_of_scaffold (role : f.HasRole c s r) (role' : g.HasRole c s r')
    (scaffold : f.kind = .scaffold) (scaffold' : g.kind = .scaffold) (includes : f.Includes g) :
    FileRole.Includes s r r' := by
  obtain ⟨target, found, leads⟩ := includes
  have kind := role.kind.symm.trans scaffold
  have kind' := role'.kind.symm.trans scaffold'
  have stem' : isName (r'.stem c).toList = true := by
    obtain ⟨t, ht, name⟩ := List.mem_map.1
      (FileRole.mem_ofClasses.1 role'.mem _ (FileRole.classOf?_of_scaffold kind'))
    exact name ▸ named t (Schema.mem_classes.1 ht).1
  have native : r.folder ≠ .managed := by
    rw [FileRole.folder_of_scaffold kind]
    decide
  obtain ⟨r'', along, rfl⟩ := role.includes native target found
  obtain ⟨stem, stem''⟩ := along.isName_stems (c := c) named
  have leads' := FileRole.leadsTo_reference stem stem'' along.native.1 along.native.2
  rw [role.path, role'.path] at leads
  have meets : (r''.path c).Meets [] (r'.path c) :=
    .inl (same_iff.2 ⟨leads'.1.trans leads.1.symm, leads'.2.trans leads.2.symm⟩)
  have key := (FileRole.meets_iff stem'' stem').1 meets
  rcases FileRole.key_eq_iff.1 key with rfl | clash | clash
  · exact along
  · -- Only the unit of compilation shares its file with a scaffold, and nothing includes it.
    cases clash with
    | aggregate => cases along
    | base | values | object => cases kind'
  · cases clash <;> cases kind'

end PlannedFile

theorem ClassArtifacts.exists_role {c : Config} {s : Schema} {t : ApiType}
    (named : ∀ t ∈ s.types, isName t.name.toList = true) (joined : s.Named (Avoids includeWord))
    (ht : t ∈ s.classes) {k : ClassArtifacts} (built : build s t = .ok k) :
    ∀ f ∈ k.files c s, ∃ r, f.HasRole c s r := by
  have woven := ClassArtifacts.isWoven_of_build joined (Schema.mem_classes.1 ht).1 built
  obtain ⟨slots, exports, parts⟩ := ClassArtifacts.parts_of_build built
  obtain rfl := parts.type_eq
  have owned {r : FileRole} (h : r.classOf? = some k.type.name) :
      r ∈ FileRole.ofClasses (s.classes.map ApiType.name) := by
    refine FileRole.mem_ofClasses.2 fun name hname => ?_
    cases h.symm.trans hname
    exact List.mem_map_of_mem ht
  have own : k.shim.type = k.type := by
    obtain ⟨_, _, shim⟩ := map_eq_ok.1 parts.shim_ok
    rw [← shim]
  have mentioned := Shim.exists_class_of_includes parts.exports_ok parts.shim_ok
  have shim := (FileRole.includesAlong_shim (c := c) ht own mentioned).of_woven named woven.shim
  have fragment : FileRole.IncludesAlong c s (.fragment k.type.name) [] := List.forall_mem_nil _
  have fragment := fragment.of_woven named (woven.fragment _)
  have header := (FileRole.includesAlong_header (c := c) ht).of_woven named woven.header
  have source := (FileRole.includesAlong_source (c := c) ht).of_woven named woven.source
  have managed {paths : List String} : (FileRole.wrapper k.type.name).folder ≠ .managed →
      (FileRole.wrapper k.type.name).IncludesAlong c s paths := fun native => absurd rfl native
  simp only [files, List.forall_mem_cons]
  exact ⟨⟨.shim _, .generated (owned rfl) rfl rfl rfl fun _ => shim.1⟩,
    ⟨.fragment _, .generated (owned rfl) rfl rfl rfl fun _ => fragment.1⟩,
    ⟨.wrapper _, .generated (owned rfl) rfl rfl rfl managed⟩,
    ⟨.header _, .scaffold (owned rfl) rfl rfl rfl header.2⟩,
    ⟨.source _, .scaffold (owned rfl) rfl rfl rfl source.2⟩, by simp⟩

namespace Plan

variable {c : Config} {s : Schema} {files : List PlannedFile}

theorem exists_role (valid : s.validate = .ok ())
    (named : ∀ t ∈ s.types, isName t.name.toList = true) (names : s.EachName (Avoids includeWord))
    (plan : build c s = .ok files) : ∀ f ∈ files, ∃ r, f.HasRole c s r := by
  obtain ⟨a, ha, rfl⟩ := map_eq_ok.1 plan
  obtain ⟨schema, htypes, hclasses⟩ := Artifacts.parts_of_build ha
  have joined : s.Named (Avoids includeWord) :=
    fun t ht => (names t ht).named_of_isName (named t ht)
  have layout := TypeArtifacts.sameLayout_of_build valid htypes
  have fixed {r : FileRole} (h : r.classOf? = none) :
      r ∈ FileRole.ofClasses (s.classes.map ApiType.name) :=
    FileRole.mem_ofClasses.2 (by simp [h])
  have managed (r : FileRole) (h : r.folder = .managed) {paths : List String} :
      r.folder ≠ .managed → r.IncludesAlong c s paths := fun native => absurd h native
  have aggregate : FileRole.IncludesAlong c s .aggregate
      (includedPaths (c.generatedFile (aggregateCode a.schema))) := by
    rw [schema]
    exact (FileRole.includesAlong_aggregate.of_woven named (isWoven_aggregate joined)).1
  obtain ⟨unitName, supportName, typesName, valuesName⟩ := FileRole.fileName_fixed c
  refine List.forall_mem_append.2 ⟨List.forall_mem_append.2 ⟨?_, fun f hf => ?_⟩,
    List.forall_mem_singleton.2
      ⟨.aggregate, .generated (fixed rfl) rfl unitName rfl fun _ => aggregate⟩⟩
  · have types :=
      (FileRole.includesAlong_types (c := c)).of_woven named (layout.isWoven_native joined)
    simp only [TypeArtifacts.files, List.forall_mem_cons]
    refine ⟨⟨.support, .generated (fixed rfl) rfl supportName rfl fun _ path found => ?_⟩,
      ⟨.types, .generated (fixed rfl) rfl typesName rfl fun _ => types.1⟩,
      ⟨.managedTypes, .generated (fixed rfl) rfl valuesName rfl (managed _ rfl)⟩,
      ⟨.objectBase, .generated (fixed rfl) rfl rfl rfl (managed _ rfl)⟩, by simp⟩
    rw [NativeSupport.includedPaths_code] at found
    cases found
  · obtain ⟨k, hk, mem⟩ := List.mem_flatMap.1 hf
    obtain ⟨t, ht, built⟩ := exists_left_of_forall₂ hclasses hk
    exact ClassArtifacts.exists_role named joined ht built f (schema ▸ mem)

def ScaffoldIncludes (files : List PlannedFile) (f g : PlannedFile) : Prop :=
  f ∈ files ∧ g ∈ files ∧ f.kind = .scaffold ∧ g.kind = .scaffold ∧ f.Includes g

/-- Along includes of scaffolds, the height falls. -/
theorem height_lt_of_transGen (valid : s.validate = .ok ())
    (named : ∀ t ∈ s.types, isName t.name.toList = true)
    (roles : ∀ f ∈ files, ∃ r, f.HasRole c s r) {f g : PlannedFile}
    (chain : Relation.TransGen (ScaffoldIncludes files) f g) {r r' : FileRole}
    (role : f.HasRole c s r) (role' : g.HasRole c s r') : r'.height s < r.height s := by
  have step {f g : PlannedFile} {r r' : FileRole} (h : ScaffoldIncludes files f g)
      (role : f.HasRole c s r) (role' : g.HasRole c s r') : r'.height s < r.height s := by
    obtain ⟨_, _, scaffold, scaffold', includes⟩ := h
    exact (role.includes_of_scaffold named role' scaffold scaffold' includes).height_lt valid
      (role.kind.symm.trans scaffold) (role'.kind.symm.trans scaffold')
  induction chain generalizing r' with
  | single h => exact step h role role'
  | tail _ h ih =>
    obtain ⟨r'', role''⟩ := roles _ h.1
    exact Nat.lt_trans (step h role'' role') (ih role'')

/-- If no declared name holds the word of an include line, every quoted include of a native file
leads to a file of the plan, and no scaffold includes itself through others. -/
theorem includes_closed (valid : s.validate = .ok ())
    (named : ∀ t ∈ s.types, isName t.name.toList = true) (names : s.EachName (Avoids includeWord))
    (plan : build c s = .ok files) :
    (∀ f ∈ files, f.IsNative → ∀ target ∈ includedPaths f.content,
      ∃ g ∈ files, f.path.LeadsTo target g.path) ∧
    ∀ f, ¬ Relation.TransGen (ScaffoldIncludes files) f f := by
  have roles := exists_role valid named names plan
  refine ⟨fun f hf native target found => ?_, fun f chain => ?_⟩
  · obtain ⟨r, role⟩ := roles f hf
    obtain ⟨r', along, rfl⟩ := role.includes (role.native native) target found
    have planned : (r'.path c, r'.kind) ∈ files.map fun f => (f.path, f.kind) := by
      rw [roles_of_build plan]
      exact List.mem_map_of_mem along.mem
    obtain ⟨g, hg, place⟩ := List.mem_map.1 planned
    have path : g.path = r'.path c := congrArg Prod.fst place
    obtain ⟨stem, stem'⟩ := along.isName_stems (c := c) named
    refine ⟨g, hg, ?_⟩
    rw [role.path, path]
    exact FileRole.leadsTo_reference stem stem' along.native.1 along.native.2
  · obtain ⟨_, h, _⟩ := Relation.TransGen.head'_iff.1 chain
    obtain ⟨r, role⟩ := roles f h.1
    exact Nat.lt_irrefl _ (height_lt_of_transGen valid named roles chain role role)

/-- Every include of this plan leads to a file of it. -/
theorem includes_closed_drawing :
    Schema.drawing.validate = .ok () ∧
      (∀ t ∈ Schema.drawing.types, isName t.name.toList = true) ∧
      Schema.drawing.EachName (Avoids includeWord) ∧
      ∃ files, build {} Schema.drawing = .ok files ∧
        (∀ f ∈ files, f.IsNative → ∀ target ∈ includedPaths f.content,
          ∃ g ∈ files, f.path.LeadsTo target g.path) ∧
        ∀ f, ¬ Relation.TransGen (ScaffoldIncludes files) f f := by
  obtain ⟨files, plan⟩ := build_drawing {}
  have named : ∀ t ∈ Schema.drawing.types, isName t.name.toList = true := by decide
  have names : Schema.drawing.EachName (Avoids includeWord) := by
    simp only [Schema.EachName, Schema.drawing, List.forall_mem_cons]
    refine ⟨?_, ?_, ?_, by simp⟩
    all_goals exact ⟨by decide +kernel, by decide +kernel, by decide +kernel, by decide +kernel,
      by decide +kernel, by decide +kernel, by decide +kernel⟩
  exact ⟨rfl, named, names, files, plan, includes_closed rfl named names plan⟩

end Plan

def ApiType.straying : ApiType where
  name := "W"
  methods := [{ name := "a();\n#include \"stray.h\"\nvoid b" }]

def Schema.straying : Schema := ⟨[.straying]⟩

/-- The shim of this plan includes a file that is not planned. -/
theorem Plan.exists_stray_include :
    Schema.straying.validate = .ok () ∧
      (∀ t ∈ Schema.straying.types, isIdentifier t.name.toList = true) ∧
      ∃ files, build {} Schema.straying = .ok files ∧
        ∃ f ∈ files, f.path = ⟨"native/Api/W.Api.h"⟩ ∧ f.IsNative ∧
          ∃ target ∈ includedPaths f.content, ∀ g ∈ files, ¬ f.path.LeadsTo target g.path := by
  obtain ⟨files, plan⟩ : ∃ files, build {} Schema.straying = .ok files := ⟨_, rfl⟩
  obtain ⟨a, built, planned⟩ :=
    class_of_build plan (by decide : .straying ∈ Schema.straying.classes)
  have parts : a.type = .straying ∧
      "NATIVE_API void NATIVE_API_CALL W_a();\n#include \"stray.h\"\nvoid b(W* obj)" ∈
        a.shim.code.texts := by
    cases built
    exact ⟨rfl, by decide⟩
  obtain ⟨type, shown⟩ := parts
  have text : "NATIVE_API void NATIVE_API_CALL W_a();\n#include \"stray.h\"\nvoid b(W* obj)".toList =
      "NATIVE_API void NATIVE_API_CALL W_a();".toList ++
        '\n' :: ("#include \"stray.h\"".toList ++ '\n' :: "void b(W* obj)".toList) := by
    repeat rw [String.toList_ofList]
    rfl
  have line := Config.mem_fileLines_of_text (c := {}) shown text (by decide)
  have included : "stray.h" ∈ includedPaths (Config.generatedFile {} a.shim.code) :=
    List.mem_filterMap.2 ⟨_, List.mem_map_of_mem line, by decide⟩
  have planned_shim : Config.generated {} (Config.apiDir {}) (a.type.name ++ ".Api.h") a.shim.code ∈
      files := planned _ List.mem_cons_self
  rw [type] at planned_shim
  obtain ⟨f, mem, path, content⟩ : ∃ f ∈ files, f.path = ⟨"native/Api/W.Api.h"⟩ ∧
      f.content = Config.generatedFile {} a.shim.code := by
    unfold Config.generated at planned_shim
    refine ⟨_, planned_shim, ?_, ?_⟩
    · dsimp only
      decide
    · dsimp only
  have native : ¬ ['.', 'c', 's'] <:+ (Path.mk "native/Api/W.Api.h").chars := by decide +kernel
  have away : ∀ r ∈ FileRole.ofClasses ["W"],
      ¬ (Path.mk "native/Api/W.Api.h").LeadsTo "stray.h" (r.path {}) := by decide +kernel
  refine ⟨rfl, by decide, files, plan, f, mem, path, ?_, "stray.h", content ▸ included,
    fun g hg => ?_⟩
  · rw [PlannedFile.IsNative, path]
    exact native
  · have place := List.mem_map_of_mem (f := fun f => (f.path, f.kind)) hg
    rw [roles_of_build plan] at place
    obtain ⟨r, hr, role⟩ := List.mem_map.1 place
    have path_g : r.path {} = g.path := congrArg Prod.fst role
    rw [path, ← path_g]
    exact away r hr

end InteropGen
