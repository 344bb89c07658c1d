import InteropGen.Proofs.Planning
import InteropGen.Proofs.Storing

set_option autoImplicit false

/-!
# What a run leaves behind

A run applies the files of a plan one after the other, each to the tree that the ones before it have
left.  Where the paths lead to places apart from each other, no file sees what another did, so that
the report can be read off the tree before the run, and a second run finds nothing to do.
-/

namespace InteropGen

open FileTree

/-- From a working directory, the paths name different places, none inside the other. -/
def Path.Apart (home : Location) (p q : Path) : Prop :=
  ∀ k ∈ p.location? home, ∀ l ∈ q.location? home, ¬ k <+: l ∧ ¬ l <+: k

theorem Path.pairwise_apart_iff {home : Location} {paths : List Path} :
    paths.Pairwise (Apart home) ↔ (paths.map (location? home)).Pairwise fun a b =>
      ∀ k ∈ a, ∀ l ∈ b, ¬ k <+: l ∧ ¬ l <+: k := by
  rw [List.pairwise_map]
  rfl

/-- A plan applied to the end: the trees before and after, and what is reported. -/
inductive Applies : FileTree → List PlannedFile → List (Path × FileStatus) → FileTree → Prop
  | nil (t : FileTree) : Applies t [] [] t
  | cons {t t₁ t' : FileTree} {f : PlannedFile} {fs : List PlannedFile} {status : FileStatus}
      {applied : List (Path × FileStatus)}
      (head : (f.apply disk false).run t = (.ok status, t₁)) (tail : Applies t₁ fs applied t') :
      Applies t (f :: fs) ((f.path, status) :: applied) t'

variable {t t₁ t' : FileTree} {f : PlannedFile} {files : List PlannedFile}
  {applied : List (Path × FileStatus)}

theorem ofPlan_eq_iff :
    (Progress.ofPlan disk false files).run t = (⟨applied, none⟩, t') ↔
      Applies t files applied t' := by
  induction files generalizing t applied with
  | nil =>
    constructor
    · intro h
      cases h
      exact .nil _
    · intro h
      cases h
      rfl
  | cons f fs ih =>
    constructor
    · intro h
      obtain ⟨result, t₁, head, h⟩ := run_bind_eq.1 h
      cases result with
      | error e => cases h
      | ok status =>
        obtain ⟨rest, t₂, tail, h⟩ := run_bind_eq.1 h
        obtain ⟨restApplied, restFailure⟩ := rest
        cases h
        exact .cons head (ih.1 tail)
    · intro h
      cases h with
      | cons head tail =>
        refine run_bind_eq.2 ⟨_, _, head, ?_⟩
        exact run_bind_eq.2 ⟨_, _, ih.2 tail, rfl⟩

theorem PlannedFile.statusIn_congr {l : Location} (tree : t.IsTree) (tree₁ : t₁.IsTree)
    (detours : t.HoldsDetours f.path) (detours₁ : t₁.HoldsDetours f.path)
    (followable : f.path.isFollowable = true) (home : t₁.home = t.home)
    (location : f.path.location? t.home = some l) (same : t₁.get? l = t.get? l) :
    f.statusIn t₁ = f.statusIn t := by
  have location₁ : f.path.location? t₁.home = some l := home.symm ▸ location
  unfold statusIn
  cases f.kind with
  | scaffold =>
    have holds : t₁.holds f.path = true ↔ t.holds f.path = true := by
      rw [holds_iff tree detours followable location, holds_iff tree₁ detours₁ followable location₁,
        same]
    rw [Bool.eq_iff_iff.2 holds]
  | generated =>
    have reads (content : ByteArray) :
        t₁.read f.path = .ok content ↔ t.read f.path = .ok content := by
      rw [read_eq_ok tree detours followable location,
        read_eq_ok tree₁ detours₁ followable location₁, same]
    cases read : t.read f.path with
    | ok content => rw [(reads content).2 read]
    | error obstacle =>
      cases read₁ : t₁.read f.path with
      | ok content =>
        rw [(reads content).1 read₁] at read
        cases read
      | error obstacle₁ => rfl

structure Settled (t t' : FileTree) (files : List PlannedFile) : Prop where
  tree : t'.IsTree
  home : t'.home = t.home
  directories : ∀ k, t.get? k = some .directory → t'.get? k = some .directory
  placed : ∀ f ∈ files, ∃ l, f.path.location? t.home = some l ∧ f.path.isFollowable = true ∧
    t'.get? l ≠ none ∧ (f.statusIn t ≠ .preserved → t'.get? l = some (.file f.bytes)) ∧
    (f.statusIn t = .preserved → t'.get? l = t.get? l)
  others : ∀ k, (∀ f ∈ files, f.path.location? t.home ≠ some k) → t'.get? k = t.get? k ∨
    t.get? k = none ∧ t'.get? k = some .directory ∧
      ∃ f ∈ files, ∃ l, f.path.location? t.home = some l ∧ IsAbove k l

theorem FileTree.HoldsDetours.mono {p : Path} (h : t.HoldsDetours p) (home : t'.home = t.home)
    (directories : ∀ k, t.get? k = some .directory → t'.get? k = some .directory) :
    t'.HoldsDetours p := by
  intro l k location passes
  rw [home] at location passes
  exact (h l k location passes).imp_right (directories k)

theorem PlannedFile.Settles.unchanged {k l : Location} (h : f.Settles t t₁ l)
    (detours : t.HoldsDetours f.path) (ne : k ≠ l) :
    t₁.get? k = t.get? k ∨ t.get? k = none ∧ t₁.get? k = some .directory ∧ IsAbove k l := by
  rcases h.others k ne with same | ⟨free, made, passes⟩
  · exact .inl same
  · rcases detours l k h.location passes with above | directory
    · exact .inr ⟨free, made, above⟩
    · rw [free] at directory
      cases directory

theorem Applies.settled (h : Applies t files applied t') (tree : t.IsTree)
    (apart : (files.map PlannedFile.path).Pairwise (Path.Apart t.home))
    (detours : ∀ f ∈ files, t.HoldsDetours f.path) :
    applied = files.map (fun f => (f.path, f.statusIn t)) ∧ Settled t t' files := by
  -- Along the run.  The rest of it starts from the tree that the first file leaves, so what holds
  -- of the rest has to be taken back to the tree before.
  induction h with
  | nil t =>
    exact ⟨rfl, tree, rfl, fun _ => id, fun f hf => absurd hf List.not_mem_nil,
      fun _ _ => .inl rfl⟩
  | @cons t t₁ t' f fs status applied head tail ih =>
    rw [List.map_cons, List.pairwise_cons] at apart
    obtain ⟨detours_f, detours_fs⟩ := List.forall_mem_cons.1 detours
    obtain ⟨rfl, l, step⟩ := PlannedFile.settles_of_apply tree head
    have detours₁ : ∀ g ∈ fs, t₁.HoldsDetours g.path := fun g hg =>
      (detours_fs g hg).mono step.home step.directories
    obtain ⟨rfl, rest⟩ := ih step.tree (step.home.symm ▸ apart.2) detours₁
    have placed := rest.placed
    have others := rest.others
    rw [step.home] at placed others
    -- The first file does not touch the places of the others, nor they its place.
    have apart_f {g : PlannedFile} (hg : g ∈ fs) {m : Location}
        (hm : g.path.location? t.home = some m) : ¬ l <+: m ∧ ¬ m <+: l :=
      apart.1 g.path (List.mem_map_of_mem hg) l step.location m hm
    have same {g : PlannedFile} (hg : g ∈ fs) {m : Location}
        (hm : g.path.location? t.home = some m) : t₁.get? m = t.get? m := by
      obtain ⟨notInside, notAbove⟩ := apart_f hg hm
      have ne : m ≠ l := fun eq => notAbove (eq ▸ List.prefix_refl m)
      exact (step.unchanged detours_f ne).resolve_right fun made => notAbove made.2.2.1
    have statuses (g : PlannedFile) (hg : g ∈ fs) : g.statusIn t₁ = g.statusIn t := by
      obtain ⟨m, hm, followable, _⟩ := placed g hg
      exact PlannedFile.statusIn_congr tree step.tree (detours_fs g hg) (detours₁ g hg) followable
        step.home hm (same hg hm)
    have kept : t'.get? l = t₁.get? l := by
      have other (g : PlannedFile) (hg : g ∈ fs) : g.path.location? t.home ≠ some l := fun hm =>
        (apart_f hg hm).1 (List.prefix_refl l)
      exact (others l other).resolve_right fun made => step.there made.1
    refine ⟨?_, rest.tree, rest.home.trans step.home,
      fun k there => rest.directories k (step.directories k there), ?_, ?_⟩
    · rw [List.map_cons]
      exact congrArg _ (List.map_congr_left fun g hg => by rw [statuses g hg])
    · refine List.forall_mem_cons.2 ⟨?_, fun g hg => ?_⟩
      · refine ⟨l, step.location, step.followable, ?_, fun changed => ?_, fun preserved => ?_⟩
        · rw [kept]
          exact step.there
        · rw [kept]
          exact step.stored changed
        · rw [kept, step.kept (by rw [preserved]; rfl)]
      · obtain ⟨m, hm, followable, there, stored, preserved⟩ := placed g hg
        rw [statuses g hg] at stored preserved
        exact ⟨m, hm, followable, there, stored, fun h => (preserved h).trans (same hg hm)⟩
    · intro k other
      obtain ⟨other_f, other_fs⟩ := List.forall_mem_cons.1 other
      have ne : k ≠ l := fun eq => other_f (eq ▸ step.location)
      rcases step.unchanged detours_f ne with same₁ | ⟨free, made, above⟩
      · rcases others k other_fs with same' | ⟨free, made, g, hg, below⟩
        · exact .inl (same'.trans same₁)
        · exact .inr ⟨same₁ ▸ free, made, g, List.mem_cons_of_mem f hg, below⟩
      · exact .inr ⟨free, rest.directories k made, f, List.mem_cons_self, l, step.location, above⟩

/-- The status of a file that an earlier run has dealt with. -/
def PlannedFile.settledStatus (f : PlannedFile) : FileStatus :=
  match f.kind with
  | .generated => .unchanged
  | .scaffold => .preserved

/-- What is said about a run that ends without a failure: the trees before and after, and the
report. -/
structure RunEffect (t t' : FileTree) (files : List PlannedFile) (report : Report) : Prop where
  generated : ∀ f ∈ files, f.kind = .generated → t'.read f.path = .ok f.bytes
  preserved : ∀ f ∈ files, f.kind = .scaffold → t.holds f.path = true →
    t'.entryAt f.path = t.entryAt f.path
  created : ∀ f ∈ files, f.kind = .scaffold → t.holds f.path = false →
    t'.read f.path = .ok f.bytes
  others : ∀ l, (∀ f ∈ files, f.path.location? t.home ≠ some l) →
    ∀ content, t'.get? l = some (.file content) ↔ t.get? l = some (.file content)
  report_eq : report = ⟨files.map fun f => (f.path, f.statusIn t), false⟩

theorem PlannedFile.statusIn_generated (kind : f.kind = .generated) :
    f.statusIn t ≠ .preserved := by
  rw [statusIn, kind]
  dsimp only
  split
  · split <;> simp
  · simp

theorem PlannedFile.statusIn_scaffold (kind : f.kind = .scaffold) :
    f.statusIn t = if t.holds f.path then .preserved else .created := by
  rw [statusIn, kind]

section After

variable (tree : t.IsTree) (detours : ∀ f ∈ files, t.HoldsDetours f.path)

include tree detours in
/-- The effect of a run stays when directories are made after it. -/
theorem Settled.effect_of_fills {P : Location → Prop} (settled : Settled t t₁ files)
    (tree' : t'.IsTree) (fills : Fills P t₁ t') :
    RunEffect t t' files ⟨files.map fun f => (f.path, f.statusIn t), false⟩ := by
  have home : t'.home = t.home := fills.home.trans settled.home
  have detours' (f : PlannedFile) (hf : f ∈ files) : t'.HoldsDetours f.path :=
    (detours f hf).mono home fun k there => fills.directory (settled.directories k there)
  have kept {l : Location} (there : t₁.get? l ≠ none) : t'.get? l = t₁.get? l :=
    (fills.places l).resolve_right fun made => there made.1
  refine ⟨fun f hf kind => ?_, fun f hf kind holds => ?_, fun f hf kind free => ?_,
    fun k other content => ?_, rfl⟩
  · obtain ⟨l, location, followable, there, stored, _⟩ := settled.placed f hf
    rw [read_eq_ok tree' (detours' f hf) followable (home.symm ▸ location), kept there]
    exact stored (PlannedFile.statusIn_generated kind)
  · obtain ⟨l, location, followable, there, _, same⟩ := settled.placed f hf
    obtain ⟨e, before⟩ := holds_iff_exists.1 holds
    rw [before, entryAt_eq_ok tree' (detours' f hf) followable (home.symm ▸ location), kept there]
    rw [entryAt_eq_ok tree (detours f hf) followable location] at before
    rw [same (by rw [PlannedFile.statusIn_scaffold kind, if_pos holds])]
    exact before
  · obtain ⟨l, location, followable, there, stored, _⟩ := settled.placed f hf
    rw [read_eq_ok tree' (detours' f hf) followable (home.symm ▸ location), kept there]
    refine stored ?_
    rw [PlannedFile.statusIn_scaffold kind, if_neg (by rw [free]; simp)]
    simp
  · have before : t₁.get? k = some (.file content) ↔ t.get? k = some (.file content) := by
      rcases settled.others k other with same | ⟨free, made, _⟩
      · rw [same]
      · rw [free, made]
        simp
    rcases fills.places k with same | ⟨free, made, _⟩
    · rw [same, before]
    · rw [← before, free, made]
      simp

variable (settled : Settled t t' files)
include tree detours settled

theorem Settled.effect :
    RunEffect t t' files ⟨files.map fun f => (f.path, f.statusIn t), false⟩ :=
  effect_of_fills tree detours settled settled.tree (.refl (fun _ => False) t')

omit tree in
theorem Settled.apply_again (hf : f ∈ files) :
    (f.apply disk false).run t' = (.ok f.settledStatus, t') := by
  obtain ⟨l, location, followable, there, stored, _⟩ := settled.placed f hf
  have detours' := (detours f hf).mono settled.home settled.directories
  have location' : f.path.location? t'.home = some l := settled.home.symm ▸ location
  refine run_bind_eq.2 ⟨.ok f.settledStatus, t', ?_, ?_⟩
  · unfold PlannedFile.status PlannedFile.settledStatus
    cases kind : f.kind with
    | generated =>
      have read := (read_eq_ok settled.tree detours' followable location').2
        (stored (PlannedFile.statusIn_generated kind))
      change (f.statusOfRead (t'.read f.path), t') = _
      rw [read, PlannedFile.statusOfRead, if_pos rfl]
    | scaffold =>
      have holds := (holds_iff settled.tree detours' followable location').2 there
      change (Except.ok (if t'.holds f.path then FileStatus.preserved else .created), t') = _
      rw [if_pos holds]
  · unfold PlannedFile.settledStatus
    cases f.kind <;> rfl

end After

theorem applies_of_settled (again : ∀ f ∈ files,
    (f.apply disk false).run t = (.ok f.settledStatus, t)) :
    Applies t files (files.map fun f => (f.path, f.settledStatus)) t := by
  induction files with
  | nil => exact .nil t
  | cons f fs ih =>
    obtain ⟨head, tail⟩ := List.forall_mem_cons.1 again
    exact .cons head (ih tail)

namespace Run

variable {c : Config} {s : Schema} {report : Report}

theorem generate_eq_iff (plan : Plan.build c s = .ok files) :
    (∃ events, (generate disk false c s).run t = ((events, .ok report), t')) ↔
      ∃ applied, Applies t files applied t' ∧ report = ⟨applied, false⟩ := by
  unfold generate
  rw [plan]
  constructor
  · rintro ⟨events, h⟩
    obtain ⟨progress, t₁, ran, h⟩ := run_bind_eq.1 h
    obtain ⟨applied, failure⟩ := progress
    cases failure with
    | some e => cases h
    | none =>
      cases h
      exact ⟨applied, ofPlan_eq_iff.1 ran, rfl⟩
  · rintro ⟨applied, ran, rfl⟩
    exact ⟨_, run_bind_eq.2 ⟨_, _, ofPlan_eq_iff.2 ran, rfl⟩⟩

/-- A run that succeeds leaves every generated file with its content and every scaffold there, has
touched nothing else, and reports what it found; run again, the generator changes nothing.  The
paths have to name places apart from each other, and a directory that a path enters only to leave it
again has to be there before. -/
theorem generate_effect (plan : Plan.build c s = .ok files) (tree : t.IsTree)
    (apart : (files.map PlannedFile.path).Pairwise (Path.Apart t.home))
    (detours : ∀ f ∈ files, t.HoldsDetours f.path) {events : List LogEvent}
    (ran : (generate disk false c s).run t = ((events, .ok report), t')) :
    RunEffect t t' files report ∧ ∃ events', (generate disk false c s).run t' =
      ((events', .ok ⟨files.map fun f => (f.path, f.settledStatus), false⟩), t') := by
  obtain ⟨applied, applies, rfl⟩ := (generate_eq_iff plan).1 ⟨events, ran⟩
  obtain ⟨rfl, settled⟩ := applies.settled tree apart detours
  refine ⟨settled.effect tree detours, (generate_eq_iff plan).2 ⟨_, ?_, rfl⟩⟩
  exact applies_of_settled fun f hf => settled.apply_again detours hf

theorem exists_report {ran : (List LogEvent × Except Failure Report) × FileTree}
    {shows : Report → Bool} (shown : ran.1.2.toOption.any shows = true) :
    ∃ events report t', ran = ((events, .ok report), t') ∧ shows report = true := by
  obtain ⟨⟨events, result⟩, t'⟩ := ran
  cases result with
  | error e => cases shown
  | ok report => exact ⟨events, report, t', rfl, shown⟩

end Run

/-- A configuration whose native files go outside the working directory. -/
def Config.outside : Config where
  native := { dir := ⟨"/native"⟩ }

/-- A directory outside the working directory, with a header that its user has emptied. -/
def FileTree.edited : FileTree :=
  (empty.set ["native"] .directory).set ["native", "W.h"] (.file ByteArray.empty)

theorem FileTree.isTree_edited : edited.IsTree := by
  have outer : (empty.set ([] ++ ["native"]) .directory).IsTree :=
    isTree_empty.set rfl (by simp [get?_empty])
  have inner : ((empty.set ([] ++ ["native"]) .directory).set (["native"] ++ ["W.h"])
      (.file ByteArray.empty)).IsTree :=
    outer.set rfl (by simp [get?_set_of_ne, get?_empty])
  exact inner

def Config.outsidePaths : List Path :=
  [⟨"/native/Api/ApiSupport.h"⟩, ⟨"/native/Api/ApiTypes.h"⟩, ⟨"managed/NativeTypes.cs"⟩,
    ⟨"managed/NativeObject.cs"⟩, ⟨"/native/Api/W.Api.h"⟩, ⟨"/native/Api/W.inc"⟩,
    ⟨"managed/W.cs"⟩, ⟨"/native/W.h"⟩, ⟨"/native/W.cpp"⟩, ⟨"/native/Api.cpp"⟩]

theorem Config.isPlain_outsidePaths : ∀ p ∈ outsidePaths, p.isPlain = true := by
  simp only [outsidePaths, List.forall_mem_cons]
  repeat rw [Path.isPlain_ofList]
  decide

theorem Config.location?_outsidePaths : outsidePaths.map (Path.location? ["work"]) =
    [some ["native", "Api", "ApiSupport.h"], some ["native", "Api", "ApiTypes.h"],
      some ["work", "managed", "NativeTypes.cs"], some ["work", "managed", "NativeObject.cs"],
      some ["native", "Api", "W.Api.h"], some ["native", "Api", "W.inc"],
      some ["work", "managed", "W.cs"], some ["native", "W.h"], some ["native", "W.cpp"],
      some ["native", "Api.cpp"]] := by
  simp only [outsidePaths, List.map_cons, List.map_nil]
  repeat rw [Path.location?_ofList]
  decide

theorem Config.apart_outsidePaths : outsidePaths.Pairwise (Path.Apart ["work"]) := by
  rw [Path.pairwise_apart_iff, location?_outsidePaths]
  decide

theorem Plan.build_outside : ∃ files, Plan.build .outside Schema.lone = .ok files ∧
    (files.map PlannedFile.path).Pairwise (Path.Apart ["work"]) ∧
    ∀ f ∈ files, ∀ t, HoldsDetours t f.path := by
  obtain ⟨files, plan, paths⟩ : ∃ files, Plan.build .outside Schema.lone = .ok files ∧
      files.map PlannedFile.path = Config.outsidePaths := ⟨_, rfl, by decide⟩
  refine ⟨files, plan, ?_, fun f hf t => holdsDetours_of_isPlain ?_⟩
  · rw [paths]
    exact Config.apart_outsidePaths
  · exact Config.isPlain_outsidePaths f.path (paths ▸ List.mem_map_of_mem hf)

theorem Run.observed_edited :
    ((Run.generate disk false .outside Schema.lone).run edited).1.2.toOption.any
      (fun report => !report.dryRun) = true := by
  decide +kernel

/-- Before the first run, the header of the class has been written by hand. -/
theorem Run.generate_effect_edited :
    ∃ files report events t', Plan.build .outside Schema.lone = .ok files ∧ edited.IsTree ∧
      (files.map PlannedFile.path).Pairwise (Path.Apart edited.home) ∧
      (∀ f ∈ files, edited.HoldsDetours f.path) ∧
      (Run.generate disk false .outside Schema.lone).run edited = ((events, .ok report), t') ∧
      RunEffect edited t' files report ∧ ∃ events',
        (Run.generate disk false .outside Schema.lone).run t' =
          ((events', .ok ⟨files.map fun f => (f.path, f.settledStatus), false⟩), t') := by
  obtain ⟨files, plan, apart, detours⟩ := Plan.build_outside
  have detours (f : PlannedFile) (hf : f ∈ files) : edited.HoldsDetours f.path := detours f hf edited
  obtain ⟨events, report, t', ran, _⟩ := exists_report observed_edited
  exact ⟨files, report, events, t', plan, isTree_edited, apart, detours, ran,
    Run.generate_effect plan isTree_edited apart detours ran⟩

/-- A configuration whose native files are reached by way of another directory. -/
def Config.detour : Config where
  native := { dir := ⟨"new/.."⟩ }

def Config.detourPaths : List Path :=
  [⟨"new/../Api/ApiSupport.h"⟩, ⟨"new/../Api/ApiTypes.h"⟩, ⟨"managed/NativeTypes.cs"⟩,
    ⟨"managed/NativeObject.cs"⟩, ⟨"new/../Api/W.Api.h"⟩, ⟨"new/../Api/W.inc"⟩, ⟨"managed/W.cs"⟩,
    ⟨"new/../W.h"⟩, ⟨"new/../W.cpp"⟩, ⟨"new/../Api.cpp"⟩]

def supportFile : PlannedFile :=
  Config.detour.generated Config.detour.apiDir "ApiSupport.h" (NativeSupport.code Config.detour)

def headerFile : PlannedFile :=
  Config.detour.scaffold Config.detour.native.dir "W.h" (Scaffold.header Schema.lone .lone)

/-- A generated file is there with its content, and a header that its user has emptied, but the
directory on the way is not. -/
def FileTree.detoured : FileTree :=
  ((empty.set ["work", "Api"] .directory).set ["work", "Api", "ApiSupport.h"]
    (.file supportFile.bytes)).set ["work", "W.h"] (.file ByteArray.empty)

theorem Config.location?_detourPaths : detourPaths.map (Path.location? ["work"]) =
    [some ["work", "Api", "ApiSupport.h"], some ["work", "Api", "ApiTypes.h"],
      some ["work", "managed", "NativeTypes.cs"], some ["work", "managed", "NativeObject.cs"],
      some ["work", "Api", "W.Api.h"], some ["work", "Api", "W.inc"],
      some ["work", "managed", "W.cs"], some ["work", "W.h"], some ["work", "W.cpp"],
      some ["work", "Api.cpp"]] := by
  simp only [detourPaths, List.map_cons, List.map_nil]
  repeat rw [Path.location?_ofList]
  decide

theorem Config.apart_detourPaths : detourPaths.Pairwise (Path.Apart ["work"]) := by
  rw [Path.pairwise_apart_iff, location?_detourPaths]
  decide

theorem Plan.build_detour : ∃ files, Plan.build Config.detour Schema.lone = .ok files ∧
    files.map PlannedFile.path = Config.detourPaths ∧ supportFile ∈ files ∧ headerFile ∈ files :=
  ⟨_, rfl, by decide, List.mem_of_getElem? (i := 0) rfl, List.mem_of_getElem? (i := 7) rfl⟩

theorem FileTree.isTree_detoured : detoured.IsTree := by
  have outer : (empty.set (["work"] ++ ["Api"]) .directory).IsTree :=
    isTree_empty.set rfl (by simp [get?_empty])
  have inner : ((empty.set (["work"] ++ ["Api"]) .directory).set (["work", "Api"] ++ ["ApiSupport.h"])
      (.file supportFile.bytes)).IsTree :=
    outer.set rfl (by simp [get?_set_of_ne, get?_empty])
  have whole : (((empty.set (["work"] ++ ["Api"]) .directory).set
      (["work", "Api"] ++ ["ApiSupport.h"]) (.file supportFile.bytes)).set (["work"] ++ ["W.h"])
      (.file ByteArray.empty)).IsTree :=
    inner.set rfl (by simp [get?_set_of_ne, get?_empty])
  exact whole

theorem FileTree.holds_detoured : detoured.holds headerFile.path = false := by decide

/-- The run makes the directory on the way, and then comes upon the two files. -/
theorem Run.observed_detoured :
    let ran := (Run.generate disk false Config.detour Schema.lone).run detoured
    ran.1.2.toOption.any (fun report => (supportFile.path, .written) ∈ report.files &&
        (headerFile.path, .preserved) ∈ report.files) = true ∧
      (ran.2.read headerFile.path).toOption.all (fun content => content.size = 0) = true := by
  decide +kernel

/-- Without the condition on directories that are entered and left again, a file can be written
though it is there with its content, and a scaffold be preserved though its path led nowhere. -/
theorem Run.generate_detoured :
    ∃ files report events t', Plan.build Config.detour Schema.lone = .ok files ∧
      detoured.IsTree ∧ (files.map PlannedFile.path).Pairwise (Path.Apart detoured.home) ∧
      (Run.generate disk false Config.detour Schema.lone).run detoured =
        ((events, .ok report), t') ∧
      (supportFile ∈ files ∧
        supportFile.path.location? detoured.home = some ["work", "Api", "ApiSupport.h"] ∧
        detoured.get? ["work", "Api", "ApiSupport.h"] = some (.file supportFile.bytes) ∧
        (supportFile.path, .written) ∈ report.files) ∧
      (headerFile ∈ files ∧ headerFile.kind = .scaffold ∧ detoured.holds headerFile.path = false ∧
        (headerFile.path, .preserved) ∈ report.files ∧
        t'.read headerFile.path ≠ .ok headerFile.bytes) := by
  obtain ⟨files, plan, paths, support, header⟩ := Plan.build_detour
  have apart : (files.map PlannedFile.path).Pairwise (Path.Apart detoured.home) := by
    rw [paths]
    exact Config.apart_detourPaths
  obtain ⟨reported, left⟩ := observed_detoured
  obtain ⟨events, report, t', ran, reported⟩ := exists_report reported
  rw [ran] at left
  rw [Bool.and_eq_true, decide_eq_true_eq, decide_eq_true_eq] at reported
  refine ⟨files, report, events, t', plan, isTree_detoured, apart, ran,
    ⟨support, by decide, rfl, reported.1⟩,
    ⟨header, rfl, holds_detoured, reported.2, fun read => ?_⟩⟩
  rw [read] at left
  have empty : headerFile.bytes.size = 0 := of_decide_eq_true left
  have filled : headerFile.bytes.size ≠ 0 := by decide
  exact filled empty

end InteropGen
