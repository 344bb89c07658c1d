import InteropGen.Proofs.FailedRuns

set_option autoImplicit false

/-!
# What a dry run foresees

A dry run judges every file against the tree as it is.  A run judges each against what the files
before it have left, in which more is there: what blocks a path in the tree blocks it still, so that
a dry run succeeds whenever the run does.  Where no file sees what another did, the reports agree.
-/

namespace InteropGen

namespace FileTree

variable {t t' t'' : FileTree} {l k : Location} {p : Path} {pieces : List String}

/-- What is there stays there as the file or directory it is; a file may get another content. -/
structure Grows (t t' : FileTree) : Prop where
  home : t'.home = t.home
  places : ∀ k e, t.get? k = some e → ∃ e', t'.get? k = some e' ∧ e'.isDirectory = e.isDirectory

namespace Grows

theorem refl (t : FileTree) : t.Grows t := ⟨rfl, fun _ e there => ⟨e, there, rfl⟩⟩

theorem trans (h : t.Grows t') (h' : t'.Grows t'') : t.Grows t'' := by
  refine ⟨h'.home.trans h.home, fun k e there => ?_⟩
  obtain ⟨e', there', same⟩ := h.places k e there
  obtain ⟨e'', there'', same'⟩ := h'.places k e' there'
  exact ⟨e'', there'', same'.trans same⟩

variable (h : t.Grows t')
include h

theorem directory (there : t.get? k = some .directory) : t'.get? k = some .directory := by
  obtain ⟨e', there', same⟩ := h.places k _ there
  cases e' with
  | directory => exact there'
  | file content => cases same

theorem file {content : ByteArray} (there : t.get? k = some (.file content)) :
    ∃ content', t'.get? k = some (.file content') := by
  obtain ⟨e', there', same⟩ := h.places k _ there
  cases e' with
  | directory => cases same
  | file content' => exact ⟨content', there'⟩

/-- A path that was blocked is blocked by the same file, or by the same name. -/
theorem follow_blocked (blocked : t.follow l pieces = .error .blocked) :
    t'.follow l pieces = .error .blocked := by
  induction pieces generalizing l with
  | nil => cases blocked
  | cons piece rest ih =>
    rw [follow] at blocked ⊢
    cases entry : t.get? l with
    | none =>
      rw [entry] at blocked
      cases blocked
    | some e =>
      cases e with
      | file content =>
        obtain ⟨content', there⟩ := h.file entry
        rw [there]
      | directory =>
        rw [entry] at blocked
        rw [h.directory entry]
        rcases bind_eq_error.1 blocked with stuck | ⟨next, hnext, blocked⟩
        · exact bind_eq_error.2 (.inl stuck)
        · exact bind_eq_error.2 (.inr ⟨next, hnext, ih blocked⟩)

theorem locate_ok (located : t.locate p = .ok l) : t'.locate p = .ok l := by
  obtain ⟨followable, location, through⟩ := locate_eq_ok.1 located
  rw [← h.home] at location through
  exact locate_eq_ok.2 ⟨followable, location, fun k passes => h.directory (through k passes)⟩

theorem locate_blocked (blocked : t.locate p = .error .blocked) :
    t'.locate p = .error .blocked := by
  unfold locate at blocked ⊢
  split at blocked
  · rename_i refused
    exact if_pos refused
  · rename_i followable
    rw [if_neg followable]
    split at blocked
    · cases blocked
    · rename_i there
      rw [if_neg there, h.home]
      exact h.follow_blocked blocked

theorem read_blocked (blocked : t.read p = .error .blocked) : t'.read p = .error .blocked := by
  rcases bind_eq_error.1 blocked with unreached | ⟨e, there, blocked⟩
  · rcases bind_eq_error.1 unreached with stuck | ⟨l, located, missing⟩
    · exact bind_eq_error.2 (.inl (bind_eq_error.2 (.inl (h.locate_blocked stuck))))
    · split at missing <;> cases missing
  · obtain ⟨l, located, there⟩ := bind_eq_ok.1 there
    cases entry : t.get? l with
    | none =>
      rw [entry] at there
      cases there
    | some e' =>
      rw [entry] at there
      cases there
      cases e with
      | file content => cases blocked
      | directory =>
        have there' : t'.entryAt p = .ok .directory :=
          bind_eq_ok.2 ⟨l, h.locate_ok located, by rw [h.directory entry]⟩
        exact bind_eq_error.2 (.inr ⟨_, there', rfl⟩)

end Grows

end FileTree

open FileTree

variable {t t₁ t' : FileTree} {f : PlannedFile} {files : List PlannedFile}
  {applied : List (Path × FileStatus)} {status : FileStatus}

namespace PlannedFile

theorem Settles.grows {l : Location} (h : f.Settles t t' l) : t.Grows t' := by
  refine ⟨h.home, fun k e there => ?_⟩
  cases e with
  | directory => exact ⟨_, h.directories k there, rfl⟩
  | file content =>
    by_cases place : k = l
    · by_cases preserved : f.statusIn t = .preserved
      · rw [h.kept (by rw [preserved]; rfl)]
        exact ⟨_, there, rfl⟩
      · exact ⟨.file f.bytes, place ▸ h.stored preserved, rfl⟩
    · rcases h.others k place with same | ⟨free, _⟩
      · exact ⟨_, same.trans there, rfl⟩
      · rw [free] at there
        cases there

/-- Only what is in the way of a generated file keeps it from being judged. -/
theorem status_eq_ok_iff : (f.status disk).run t = (.ok (f.statusIn t), t) ↔
    (f.kind = .generated → t.read f.path ≠ .error .blocked) := by
  unfold PlannedFile.status statusIn
  cases f.kind with
  | scaffold => exact iff_of_true rfl nofun
  | generated =>
    change (f.statusOfRead (t.read f.path), t) = _ ↔ _
    cases t.read f.path with
    | ok existing => exact iff_of_true rfl nofun
    | error obstacle =>
      cases obstacle with
      | missing => exact iff_of_true rfl nofun
      | blocked => exact iff_of_false nofun fun free => free rfl rfl

/-- A file is judged before it is applied. -/
theorem status_of_apply (h : (f.apply disk false).run t = (.ok status, t')) :
    (f.status disk).run t = (.ok (f.statusIn t), t) := by
  obtain ⟨result, t₁, judged, ran⟩ := run_bind_eq.1 h
  cases result with
  | error e => cases ran
  | ok judgement =>
    obtain ⟨rfl, rfl⟩ := status_eq_ok judged
    exact judged

/-- What can be judged in a tree could be judged in a smaller one. -/
theorem status_of_grows (grows : t.Grows t₁)
    (judged : (f.status disk).run t₁ = (.ok (f.statusIn t₁), t₁)) :
    (f.status disk).run t = (.ok (f.statusIn t), t) :=
  status_eq_ok_iff.2 fun kind blocked =>
    status_eq_ok_iff.1 judged kind (grows.read_blocked blocked)

theorem apply_dry : (f.apply disk true).run t = (f.status disk).run t := by
  cases judged : (f.status disk).run t with
  | mk result t₁ =>
    refine run_bind_eq.2 ⟨result, t₁, judged, ?_⟩
    cases result <;> rfl

theorem snd_status : ((f.status disk).run t).2 = t := by
  unfold PlannedFile.status
  cases f.kind <;> rfl

end PlannedFile

theorem snd_ofPlan_dry : ((Progress.ofPlan disk true files).run t).2 = t := by
  induction files with
  | nil => rfl
  | cons f fs ih =>
    have judged : (f.apply disk true).run t = (((f.status disk).run t).1, t) := by
      rw [PlannedFile.apply_dry]
      exact Prod.ext rfl PlannedFile.snd_status
    rw [Progress.ofPlan, StateT.run_bind, judged]
    cases ((f.status disk).run t).1 with
    | error e => rfl
    | ok status => exact ih

theorem ofPlan_dry (judged : ∀ f ∈ files, (f.status disk).run t = (.ok (f.statusIn t), t)) :
    (Progress.ofPlan disk true files).run t =
      (⟨files.map fun f => (f.path, f.statusIn t), none⟩, t) := by
  induction files with
  | nil => rfl
  | cons f fs ih =>
    obtain ⟨head, tail⟩ := List.forall_mem_cons.1 judged
    refine run_bind_eq.2 ⟨_, _, PlannedFile.apply_dry.trans head, ?_⟩
    exact run_bind_eq.2 ⟨_, _, ih tail, rfl⟩

namespace Applies

theorem paths (h : Applies t files applied t') :
    applied.map Prod.fst = files.map PlannedFile.path := by
  induction h with
  | nil _ => rfl
  | cons _ _ ih => rw [List.map_cons, List.map_cons, ih]

/-- Files that have been applied could all have been judged before. -/
theorem judged (h : Applies t₁ files applied t') (tree : t₁.IsTree) (grows : t.Grows t₁) :
    ∀ f ∈ files, (f.status disk).run t = (.ok (f.statusIn t), t) := by
  -- Along the run, from a tree in which at least what `t` has is there.
  induction h with
  | nil _ => exact fun f hf => absurd hf List.not_mem_nil
  | cons head tail ih =>
    obtain ⟨_, l, step⟩ := PlannedFile.settles_of_apply tree head
    refine List.forall_mem_cons.2 ⟨?_, ih step.tree (grows.trans step.grows)⟩
    exact PlannedFile.status_of_grows grows (PlannedFile.status_of_apply head)

end Applies

namespace Run

variable {c : Config} {s : Schema}

theorem generate_dry_eq (plan : Plan.build c s = .ok files)
    (judged : ∀ f ∈ files, (f.status disk).run t = (.ok (f.statusIn t), t)) :
    ∃ events, (generate disk true c s).run t =
      ((events, .ok ⟨files.map fun f => (f.path, f.statusIn t), true⟩), t) := by
  unfold generate
  rw [plan]
  exact ⟨_, run_bind_eq.2 ⟨_, _, ofPlan_dry judged, rfl⟩⟩

theorem snd_generate_dry (c : Config) (s : Schema) (t : FileTree) :
    ((generate disk true c s).run t).2 = t := by
  unfold generate
  cases Plan.build c s with
  | error e => rfl
  | ok files => exact snd_ofPlan_dry

/-- A dry run never changes the tree, and it succeeds whenever the run itself would: it reports the
same files in the same order.  Where the paths name places apart from each other, and every
directory that a path enters only to leave it again is there before, it reports the same of them. -/
theorem generate_foreseen (c : Config) (s : Schema) (t : FileTree) :
    ((generate disk true c s).run t).2 = t ∧
    ∀ files, Plan.build c s = .ok files → t.IsTree → ∀ events report t',
      (generate disk false c s).run t = ((events, .ok report), t') →
      ∃ events' foreseen, (generate disk true c s).run t = ((events', .ok foreseen), t) ∧
        foreseen.dryRun = true ∧ report.dryRun = false ∧
        foreseen.files.map Prod.fst = files.map PlannedFile.path ∧
        report.files.map Prod.fst = files.map PlannedFile.path ∧
        ((files.map PlannedFile.path).Pairwise (Path.Apart t.home) →
          (∀ f ∈ files, t.HoldsDetours f.path) → foreseen.files = report.files) := by
  refine ⟨snd_generate_dry c s t, fun files plan tree events report t' ran => ?_⟩
  obtain ⟨applied, applies, rfl⟩ := (generate_eq_iff plan).1 ⟨events, ran⟩
  obtain ⟨events', dry⟩ := generate_dry_eq plan (applies.judged tree (.refl t))
  refine ⟨events', _, dry, rfl, rfl, ?_, applies.paths, fun apart detours => ?_⟩
  · rw [List.map_map]
    rfl
  · exact (applies.settled tree apart detours).1.symm

theorem generate_foreseen_edited :
    ∃ files events report t' events' foreseen, Plan.build .outside Schema.lone = .ok files ∧
      edited.IsTree ∧ (files.map PlannedFile.path).Pairwise (Path.Apart edited.home) ∧
      (∀ f ∈ files, edited.HoldsDetours f.path) ∧
      (generate disk false .outside Schema.lone).run edited = ((events, .ok report), t') ∧
      (generate disk true .outside Schema.lone).run edited = ((events', .ok foreseen), edited) ∧
      foreseen.dryRun = true ∧ report.dryRun = false ∧ foreseen.files = report.files := by
  obtain ⟨files, plan, apart, detours⟩ := Plan.build_outside
  have detours (f : PlannedFile) (hf : f ∈ files) : edited.HoldsDetours f.path := detours f hf edited
  obtain ⟨events, report, t', ran, _⟩ := exists_report observed_edited
  obtain ⟨events', foreseen, dry, isDry, isRun, _, _, same⟩ :=
    (generate_foreseen .outside Schema.lone edited).2 files plan isTree_edited events report t' ran
  exact ⟨files, events, report, t', events', foreseen, plan, isTree_edited, apart, detours, ran, dry,
    isDry, isRun, same apart detours⟩

/-- Without the condition on directories that are entered and left again, a dry run can foresee a
scaffold to be created that the run then finds there. -/
theorem generate_misforeseen :
    ∃ files events report t' events' foreseen,
      Plan.build Config.detour Schema.lone = .ok files ∧ detoured.IsTree ∧
      (files.map PlannedFile.path).Pairwise (Path.Apart detoured.home) ∧
      (generate disk false Config.detour Schema.lone).run detoured = ((events, .ok report), t') ∧
      (generate disk true Config.detour Schema.lone).run detoured =
        ((events', .ok foreseen), detoured) ∧
      (headerFile.path, .created) ∈ foreseen.files ∧
      (headerFile.path, .preserved) ∈ report.files ∧ foreseen.files ≠ report.files := by
  obtain ⟨files, plan, paths, _, header⟩ := Plan.build_detour
  have apart : (files.map PlannedFile.path).Pairwise (Path.Apart detoured.home) := by
    rw [paths]
    exact Config.apart_detourPaths
  obtain ⟨events, report, t', ran, reported⟩ := exists_report observed_detoured.1
  rw [Bool.and_eq_true, decide_eq_true_eq, decide_eq_true_eq] at reported
  obtain ⟨applied, applies, rfl⟩ := (generate_eq_iff plan).1 ⟨events, ran⟩
  obtain ⟨events', dry⟩ := generate_dry_eq plan (applies.judged isTree_detoured (.refl _))
  have created : headerFile.statusIn detoured = .created := by
    rw [PlannedFile.statusIn_scaffold rfl, holds_detoured]
    rfl
  have foreseen : (headerFile.path, FileStatus.created) ∈
      files.map fun f => (f.path, f.statusIn detoured) :=
    List.mem_map.2 ⟨headerFile, header, by rw [created]⟩
  refine ⟨files, events, _, t', events', _, plan, isTree_detoured, apart, ran, dry, foreseen,
    reported.2, fun same => ?_⟩
  -- No two files have this path, so one report cannot say both of it.
  have distinct : (applied.map Prod.fst).Nodup := by
    rw [applies.paths, paths]
    decide
  have both : (headerFile.path, FileStatus.created) ∈ applied := by
    rw [← show _ = applied from same]
    exact foreseen
  cases List.inj_on_of_nodup_map distinct both reported.2 rfl

end Run

end InteropGen
