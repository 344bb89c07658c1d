import InteropGen.Proofs.ClassLocality
import InteropGen.Proofs.PlannedPaths

set_option autoImplicit false

/-!
# What a change of the schema rewrites

Two plans for one configuration share the files of every class that is declared alike in both
schemas, among types of the same outlines.  Of the files that are there once, the support header and
the object base are always shared, the value types as long as the schemas differ in members only,
and the unit of compilation as long as the classes have the same names.
-/

namespace InteropGen

variable {c : Config} {s s₁ s₂ : Schema} {files files₁ files₂ : List PlannedFile}

namespace ApiType

def bare (t : ApiType) : ApiType := { t with properties := [], methods := [], events := [] }

theorem isFaithful_bare : IsFaithful bare := ⟨fun _ => rfl, fun _ => rfl⟩

/-- What makes no difference between a type and the type without its members. -/
theorem eq_of_bare {β : Type} (g : ApiType → β) {t u : ApiType} (same : t.bare = u.bare)
    (blind : ∀ t, g t.bare = g t := by exact fun _ => rfl) : g t = g u := eq_of_blind blind same

end ApiType

namespace Schema

variable (same : s₁.types.map ApiType.bare = s₂.types.map ApiType.bare)

theorem map_bare_filter (s : Schema) {p : ApiType → Bool} (blind : ∀ t, p t.bare = p t) :
    (s.types.filter p).map ApiType.bare = (s.types.map ApiType.bare).filter p := by
  have eq : p ∘ ApiType.bare = p := funext blind
  rw [List.filter_map, eq]

section Same

include same

theorem map_bare_filter_eq {p : ApiType → Bool} (blind : ∀ t, p t.bare = p t) :
    (s₁.types.filter p).map ApiType.bare = (s₂.types.filter p).map ApiType.bare := by
  rw [map_bare_filter s₁ blind, map_bare_filter s₂ blind, same]

theorem agree_placeField {bound : Nat} {path : List String} {ordered₁ ordered₂ : List ApiType}
    {t₁ t₂ : ApiType} (name : t₁.name = t₂.name) (f : Field)
    (ordered : ordered₁.map ApiType.bare = ordered₂.map ApiType.bare)
    (inner : ∀ u₁ u₂ : ApiType, u₁.bare = u₂.bare →
      Agree (InvImage Eq (List.map ApiType.bare)) (s₁.place bound path ordered₁ u₁)
        (s₂.place bound path ordered₂ u₂)) :
    Agree (InvImage Eq (List.map ApiType.bare)) (s₁.placeField bound path t₁ ordered₁ f)
      (s₂.placeField bound path t₂ ordered₂ f) := by
  have through := SameThrough.of_map_eq ApiType.isFaithful_bare same
  have failure : fieldFailure t₁ f = fieldFailure t₂ f := by
    rw [fieldFailure, fieldFailure, name]
  rw [placeField, placeField, failure]
  refine (through.agree_shape .flat f.type).bind fun a b related => ?_
  -- The map keeps the constructor, so the shapes are of the same kind.
  cases a with
  | struct u₁ =>
    cases b with
    | struct u₂ => exact inner u₁ u₂ (Shape.struct.inj related)
    | _ => cases related
  | primitive _ | enum _ =>
    cases b with
    | primitive _ | enum _ => exact .ok ordered
    | struct _ | void | text _ | «class» _ _ | nullableValue _ | array _ => cases related
  | void | text _ | «class» _ _ | nullableValue _ | array _ =>
    cases b with
    | void | text _ | «class» _ _ | nullableValue _ | array _ => exact .error _
    | struct _ | primitive _ | enum _ => cases related

theorem agree_place (bound : Nat) (path : List String) {ordered₁ ordered₂ : List ApiType}
    (ordered : ordered₁.map ApiType.bare = ordered₂.map ApiType.bare) {t₁ t₂ : ApiType}
    (type : t₁.bare = t₂.bare) :
    Agree (InvImage Eq (List.map ApiType.bare)) (s₁.place bound path ordered₁ t₁)
      (s₂.place bound path ordered₂ t₂) := by
  induction bound generalizing path ordered₁ ordered₂ t₁ t₂ with
  | zero =>
    rw [place, place, recursionFailure, recursionFailure, ApiType.eq_of_bare ApiType.name type]
    exact .error _
  | succ bound ih =>
    have name := ApiType.eq_of_bare ApiType.name type
    have placed : (ordered₁.any fun t => t.name = t₂.name) =
        ordered₂.any fun t => t.name = t₂.name := by
      have eq := congrArg (List.any · fun t => t.name = t₂.name) ordered
      simp only [List.any_map] at eq
      exact eq
    have failure : recursionFailure t₁ = recursionFailure t₂ := by
      rw [recursionFailure, recursionFailure, name]
    rw [place_succ, place_succ, failure, name, ApiType.eq_of_bare ApiType.fields type, placed]
    split
    · exact .ok ordered
    · split
      · exact .error _
      · refine Agree.map (R := InvImage Eq (List.map ApiType.bare)) ?_ fun o₁ o₂ reached => ?_
        · refine Agree.foldlM (T := Eq) (List.forall₂_refl _) ?_ ordered
          rintro o₁ o₂ f _ reached rfl
          exact agree_placeField same name f reached fun _ _ => ih _ reached
        · rw [InvImage, List.map_append, List.map_append, reached, List.map_singleton,
            List.map_singleton, type]

/-- The structs are placed in the same order. -/
theorem agree_structOrder :
    Agree (InvImage Eq (List.map ApiType.bare)) s₁.structOrder s₂.structOrder := by
  have size : s₁.types.length = s₂.types.length := by simpa using congrArg List.length same
  have structs : List.Forall₂ Eq (s₁.structs.map ApiType.bare) (s₂.structs.map ApiType.bare) := by
    rw [List.forall₂_eq_eq_eq]
    exact map_bare_filter_eq same fun _ => rfl
  rw [List.forall₂_map_left_iff, List.forall₂_map_right_iff] at structs
  rw [structOrder, structOrder, size]
  exact .foldlM structs (fun _ _ _ _ ordered type => agree_place same _ [] ordered type) rfl

end Same

end Schema

theorem ValueStruct.ofTypes_map_bare (s : Schema) (dialect : Dialect) (ts : List ApiType) :
    ofTypes s dialect (ts.map ApiType.bare) = ofTypes s dialect ts := by
  induction ts with
  | nil => rfl
  | cons t ts ih =>
    rw [List.map_cons, ofTypes, ofTypes, ih]
    rfl

theorem ValueEnum.ofTypes_map_bare (ts : List ApiType) :
    ofTypes (ts.map ApiType.bare) = ofTypes ts := by
  induction ts with
  | nil => rfl
  | cons t ts ih =>
    rw [List.map_cons, ofTypes, ofTypes, ih]
    rfl

section Members

variable (same : s₁.types.map ApiType.bare = s₂.types.map ApiType.bare)
include same

theorem ValueStruct.ofTypes_eq (dialect : Dialect) {order₁ order₂ : List ApiType}
    (order : order₁.map ApiType.bare = order₂.map ApiType.bare) :
    ofTypes s₁ dialect order₁ = ofTypes s₂ dialect order₂ := by
  have through := Schema.SameThrough.of_map_eq ApiType.isFaithful_bare same
  have field (f : Field) : fieldOf s₁ dialect f = fieldOf s₂ dialect f := by
    rw [fieldOf, fieldOf, through.resolve_eq]
    refine through.bind_shape_eq (fun shape => ?_) dialect f.type
    cases shape <;> rfl
  have fields := (fieldsOf_stepwise s₁ dialect).congr (fieldsOf_stepwise s₂ dialect) field
  have each (t : ApiType) : ofType s₁ dialect t = ofType s₂ dialect t := by
    rw [ofType, ofType, fields]
  rw [← ofTypes_map_bare s₁, ← ofTypes_map_bare s₂, order,
    (ofTypes_stepwise s₁ dialect).congr (ofTypes_stepwise s₂ dialect) each]

theorem ValueEnum.ofTypes_eq : ofTypes s₁.enums = ofTypes s₂.enums := by
  have enums := Schema.map_bare_filter_eq same (p := ApiType.isEnum) fun _ => rfl
  rw [← ofTypes_map_bare s₁.enums, ← ofTypes_map_bare s₂.enums, Schema.enums, Schema.enums, enums]

theorem TypeArtifacts.build_eq : build s₁ = build s₂ := by
  have classes : s₁.classes.map ApiType.name = s₂.classes.map ApiType.name := by
    have eq := congrArg (List.map ApiType.name)
      (Schema.map_bare_filter_eq same (p := ApiType.isClass) fun _ => rfl)
    rwa [List.map_map, List.map_map] at eq
  have order := Schema.agree_structOrder same
  have native : NativeTypes.ofSchema s₁ = NativeTypes.ofSchema s₂ := by
    rw [NativeTypes.ofSchema, NativeTypes.ofSchema, ValueEnum.ofTypes_eq same, classes]
    refine (Agree.bind_self fun enums => order.bind fun order₁ order₂ ordered => ?_).eq
    rw [ValueStruct.ofTypes_eq same .flat ordered]
    exact .refl _
  have managed : ManagedTypes.ofSchema s₁ = ManagedTypes.ofSchema s₂ := by
    rw [ManagedTypes.ofSchema, ManagedTypes.ofSchema, ValueEnum.ofTypes_eq same]
    refine (order.bind fun order₁ order₂ ordered => Agree.bind_self fun enums => ?_).eq
    rw [ValueStruct.ofTypes_eq same .managed ordered]
    exact .refl _
  rw [build, build, native, managed]

end Members

section Zips

variable {α β γ δ : Type} {R : α → β → Prop} {f : α → List γ} {g : β → List δ} {xs : List α}
  {ys : List β}

theorem length_flatMap_eq (entries : List.Forall₂ R xs ys)
    (sizes : ∀ a b, R a b → (f a).length = (g b).length) :
    (xs.flatMap f).length = (ys.flatMap g).length := by
  induction entries with
  | nil => rfl
  | cons head _ ih =>
    rw [List.flatMap_cons, List.flatMap_cons, List.length_append, List.length_append, ih,
      sizes _ _ head]

/-- Lists made of pieces of the same sizes are paired piece by piece. -/
theorem exists_zip_flatMap (entries : List.Forall₂ R xs ys)
    (sizes : ∀ a b, R a b → (f a).length = (g b).length) {a : α} (ha : a ∈ xs) :
    ∃ b, R a b ∧ (f a).zip (g b) ⊆ (xs.flatMap f).zip (ys.flatMap g) := by
  induction entries with
  | nil => cases ha
  | @cons x y xs ys head _ ih =>
    rw [List.flatMap_cons, List.flatMap_cons, List.zip_append (sizes x y head)]
    rcases List.mem_cons.1 ha with rfl | ha
    · exact ⟨y, head, List.subset_append_left _ _⟩
    · obtain ⟨b, related, inside⟩ := ih ha
      exact ⟨b, related, List.subset_append_of_subset_right _ inside⟩

end Zips

namespace Plan

/-- The files of a plan, each with its role. -/
def withRoles (s : Schema) (files : List PlannedFile) : List (FileRole × PlannedFile) :=
  (FileRole.ofClasses (s.classes.map ApiType.name)).zip files

def typePairs (c : Config) (types : TypeArtifacts) : List (FileRole × PlannedFile) :=
  [(.support, c.generated c.apiDir "ApiSupport.h" (NativeSupport.code c)),
    (.types, c.generated c.apiDir "ApiTypes.h" types.native.code),
    (.managedTypes, c.generated c.managed.dir "NativeTypes.cs" (types.managed.code c)),
    (.objectBase, c.generated c.managed.dir (c.managed.objectClass ++ ".cs") (ObjectBase.code c))]

def classPairs (c : Config) (s : Schema) (t : ApiType) (a : ClassArtifacts) :
    List (FileRole × PlannedFile) := (FileRole.ofClass t.name).zip (a.files c s)

theorem withRoles_of_build (h : build c s = .ok files) :
    ∃ types as, TypeArtifacts.build s = .ok types ∧
      List.Forall₂ (fun t a => ClassArtifacts.build s t = .ok a) s.classes as ∧
      withRoles s files =
        typePairs c types ++
          (s.classes.flatMap fun t => FileRole.ofClass t.name).zip
            (as.flatMap (ClassArtifacts.files c s)) ++
          [(.aggregate, c.generated c.native.dir "Api.cpp" (aggregateCode s))] := by
  obtain ⟨artifacts, hartifacts, rfl⟩ := map_eq_ok.1 h
  obtain ⟨types, htypes, hartifacts⟩ := bind_eq_ok.1 hartifacts
  obtain ⟨as, has, hartifacts⟩ := bind_eq_ok.1 hartifacts
  cases hartifacts
  have each := (ClassArtifacts.buildAll_stepwise s).forall₂ has
  refine ⟨types, as, htypes, each, ?_⟩
  have sizes := length_flatMap_eq (f := fun t => FileRole.ofClass t.name)
    (g := ClassArtifacts.files c s) each fun _ _ _ => rfl
  have front : [FileRole.support, .types, .managedTypes, .objectBase].length =
      (types.files c).length := rfl
  rw [withRoles, FileRole.ofClasses, List.flatMap_map]
  refine (List.zip_append ?_).trans (congrArg (· ++ _) (List.zip_append front))
  rw [List.length_append, List.length_append, sizes, front]

/-- Two plans have the same file in a role. -/
def Shares (c : Config) (s₁ s₂ : Schema) (files₁ files₂ : List PlannedFile) (r : FileRole) : Prop :=
  ∃ f, f.path = r.path c ∧ (r, f) ∈ withRoles s₁ files₁ ∧ (r, f) ∈ withRoles s₂ files₂

theorem path_of_mem_withRoles (h : build c s = .ok files) {r : FileRole} {f : PlannedFile}
    (mem : (r, f) ∈ withRoles s files) : f.path = r.path c := by
  have roles : List.Forall₂ Eq
      ((FileRole.ofClasses (s.classes.map ApiType.name)).map fun r => (r.path c, r.kind))
      (files.map fun f => (f.path, f.kind)) := by
    rw [List.forall₂_eq_eq_eq]
    exact (roles_of_build h).symm
  rw [List.forall₂_map_left_iff, List.forall₂_map_right_iff] at roles
  exact (congrArg Prod.fst (List.forall₂_zip roles mem)).symm

theorem Shares.intro (plan₁ : build c s₁ = .ok files₁) {r : FileRole} {f : PlannedFile}
    (mem₁ : (r, f) ∈ withRoles s₁ files₁) (mem₂ : (r, f) ∈ withRoles s₂ files₂) :
    Shares c s₁ s₂ files₁ files₂ r :=
  ⟨f, path_of_mem_withRoles plan₁ mem₁, mem₁, mem₂⟩

theorem pairs_of_build (h : build c s = .ok files) {t : ApiType} (ht : t ∈ s.classes) :
    ∃ a, ClassArtifacts.build s t = .ok a ∧ classPairs c s t a ⊆ withRoles s files := by
  obtain ⟨types, as, _, each, eq⟩ := withRoles_of_build h
  obtain ⟨a, built, inside⟩ := exists_zip_flatMap (f := fun t => FileRole.ofClass t.name)
    (g := ClassArtifacts.files c s) each (fun _ _ _ => rfl) ht
  refine ⟨a, built, ?_⟩
  rw [eq]
  exact List.subset_append_of_subset_left _ (List.subset_append_of_subset_right _ inside)

theorem shares_class (plan₁ : build c s₁ = .ok files₁) (plan₂ : build c s₂ = .ok files₂)
    (alike : Schema.SameOutlines s₁ s₂) {t : ApiType} (ht₁ : t ∈ s₁.classes) (ht₂ : t ∈ s₂.classes)
    {r : FileRole} (hr : r ∈ FileRole.ofClass t.name) : Shares c s₁ s₂ files₁ files₂ r := by
  obtain ⟨a₁, built₁, inside₁⟩ := pairs_of_build plan₁ ht₁
  obtain ⟨a₂, built₂, inside₂⟩ := pairs_of_build plan₂ ht₂
  have same : classPairs c s₁ t a₁ = classPairs c s₂ t a₂ := by
    rw [classPairs, classPairs, ClassArtifacts.files_eq alike t c built₁ built₂]
  have roles : (classPairs c s₁ t a₁).map Prod.fst = FileRole.ofClass t.name :=
    List.map_fst_zip (Nat.le_refl 5)
  rw [← roles] at hr
  obtain ⟨⟨_, f⟩, mem, rfl⟩ := List.mem_map.1 hr
  exact .intro plan₁ (inside₁ mem) (inside₂ (same ▸ mem))

section Once

variable (plan₁ : build c s₁ = .ok files₁) (plan₂ : build c s₂ = .ok files₂)
include plan₁ plan₂

theorem exists_types : ∃ types₁ types₂, TypeArtifacts.build s₁ = .ok types₁ ∧
    TypeArtifacts.build s₂ = .ok types₂ ∧
    ∀ r f, (r, f) ∈ typePairs c types₁ → (r, f) ∈ typePairs c types₂ →
      Shares c s₁ s₂ files₁ files₂ r := by
  obtain ⟨types₁, _, made₁, _, eq₁⟩ := withRoles_of_build plan₁
  obtain ⟨types₂, _, made₂, _, eq₂⟩ := withRoles_of_build plan₂
  refine ⟨types₁, types₂, made₁, made₂, fun r f mem₁ mem₂ => .intro (f := f) plan₁ ?_ ?_⟩
  · rw [eq₁]
    exact List.mem_append_left _ (List.mem_append_left _ mem₁)
  · rw [eq₂]
    exact List.mem_append_left _ (List.mem_append_left _ mem₂)

/-- The support header and the object base depend on the configuration alone. -/
theorem shares_fixed :
    ∀ r ∈ [FileRole.support, .objectBase], Shares c s₁ s₂ files₁ files₂ r := by
  obtain ⟨types₁, types₂, _, _, shared⟩ := exists_types plan₁ plan₂
  refine List.forall_mem_cons.2 ⟨?_, List.forall_mem_singleton.2 ?_⟩
  · exact shared .support _ List.mem_cons_self List.mem_cons_self
  · exact shared .objectBase _ (List.mem_of_getLast? rfl) (List.mem_of_getLast? rfl)

theorem shares_types (same : s₁.types.map ApiType.bare = s₂.types.map ApiType.bare) :
    ∀ r ∈ [FileRole.types, .managedTypes], Shares c s₁ s₂ files₁ files₂ r := by
  obtain ⟨types₁, types₂, made₁, made₂, shared⟩ := exists_types plan₁ plan₂
  obtain rfl : types₁ = types₂ := eq_of_ok (TypeArtifacts.build_eq same) made₁ made₂
  refine List.forall_mem_cons.2 ⟨?_, List.forall_mem_singleton.2 ?_⟩
  · have mem : (.types, c.generated c.apiDir "ApiTypes.h" types₁.native.code) ∈
        typePairs c types₁ := by simp [typePairs]
    exact shared _ _ mem mem
  · have mem : (.managedTypes, c.generated c.managed.dir "NativeTypes.cs" (types₁.managed.code c)) ∈
        typePairs c types₁ := by simp [typePairs]
    exact shared _ _ mem mem

theorem shares_aggregate (names : s₁.classes.map ApiType.name = s₂.classes.map ApiType.name) :
    Shares c s₁ s₂ files₁ files₂ .aggregate := by
  obtain ⟨_, _, _, _, eq₁⟩ := withRoles_of_build plan₁
  obtain ⟨_, _, _, _, eq₂⟩ := withRoles_of_build plan₂
  have code : aggregateCode s₁ = aggregateCode s₂ := by
    have eq := congrArg (List.map fun name => Code.includeLine ("Api/" ++ name ++ ".Api.h")) names
    rw [List.map_map, List.map_map] at eq
    exact congrArg Code.lines eq
  refine .intro (f := c.generated c.native.dir "Api.cpp" (aggregateCode s₁)) plan₁ ?_ ?_
  · rw [eq₁]
    exact List.mem_append_right _ List.mem_cons_self
  · rw [eq₂, code]
    exact List.mem_append_right _ List.mem_cons_self

end Once

/-- A change of the schema reaches no file that does not tell of it: the files of a class stay as
long as the class and the outlines of the other types do, and those that are there once depend on
the configuration, on the types without their members, and on the names of the classes in order. -/
theorem changes_areLocal (valid₁ : s₁.validate = .ok ()) (valid₂ : s₂.validate = .ok ())
    (plan₁ : build c s₁ = .ok files₁) (plan₂ : build c s₂ = .ok files₂) :
    (∀ t, t ∈ s₁.classes → t ∈ s₂.classes → Schema.AlikeBut t s₁ s₂ →
      ∀ r ∈ FileRole.ofClass t.name, Shares c s₁ s₂ files₁ files₂ r) ∧
    (∀ r ∈ [FileRole.support, .objectBase], Shares c s₁ s₂ files₁ files₂ r) ∧
    (s₁.types.map ApiType.bare = s₂.types.map ApiType.bare →
      ∀ r ∈ [FileRole.types, .managedTypes], Shares c s₁ s₂ files₁ files₂ r) ∧
    (s₁.classes.map ApiType.name = s₂.classes.map ApiType.name →
      Shares c s₁ s₂ files₁ files₂ .aggregate) := by
  refine ⟨fun t ht₁ ht₂ alike r hr => ?_, shares_fixed plan₁ plan₂, shares_types plan₁ plan₂,
    shares_aggregate plan₁ plan₂⟩
  have outlines := Schema.sameOutlines_of_alikeBut valid₁ valid₂ ht₁ ht₂ alike
  exact shares_class plan₁ plan₂ outlines ht₁ ht₂ hr

end Plan

section Sketches

def ApiType.sketch : ApiType where
  name := "Figure"
  properties := [{ name := "Strokes", type := .primitive .int }]

def Schema.sketches : Schema := ⟨[.point, .sketch, .canvas]⟩

theorem Plan.changes_areLocal_sketches :
    Schema.drawing.validate = .ok () ∧ Schema.sketches.validate = .ok () ∧
      Schema.AlikeBut .canvas Schema.drawing Schema.sketches ∧
      ∃ files₁ files₂, build {} Schema.drawing = .ok files₁ ∧
        build {} Schema.sketches = .ok files₂ ∧
        (∀ r ∈ FileRole.ofClass "Canvas",
          Shares {} Schema.drawing Schema.sketches files₁ files₂ r) ∧
        (∀ r ∈ [FileRole.types, .managedTypes],
          Shares {} Schema.drawing Schema.sketches files₁ files₂ r) ∧
        Shares {} Schema.drawing Schema.sketches files₁ files₂ .aggregate := by
  have valid₁ : Schema.drawing.validate = .ok () := by decide
  have valid₂ : Schema.sketches.validate = .ok () := by decide
  have alike : Schema.AlikeBut .canvas Schema.drawing Schema.sketches := fun name _ =>
    (Schema.SameThrough.of_map_eq ApiType.isFaithful_outline (by decide)).looked name
  obtain ⟨files₁, plan₁⟩ := build_drawing {}
  have plan₂ : ∃ files₂, build {} Schema.sketches = .ok files₂ := ⟨_, rfl⟩
  obtain ⟨files₂, plan₂⟩ := plan₂
  obtain ⟨classes, _, types, aggregate⟩ := changes_areLocal valid₁ valid₂ plan₁ plan₂
  exact ⟨valid₁, valid₂, alike, files₁, files₂, plan₁, plan₂,
    classes .canvas (by decide) (by decide) alike, types (by decide), aggregate (by decide)⟩

end Sketches

end InteropGen
