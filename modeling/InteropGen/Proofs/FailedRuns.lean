import InteropGen.Proofs.RunEffect
import InteropGen.Schema.Validation

set_option autoImplicit false

/-!
# What a run leaves behind that fails

A run that cannot plan touches nothing.  A run that is stopped by one of its files has applied the
files before it, as a run over those alone would have, and may have made directories on the way to
the file that stopped it.  So it has left all files alone exactly when nothing before that file was
in need of a change.
-/

namespace InteropGen

open FileTree

variable {t t₁ t' : FileTree} {f : PlannedFile} {files done : List PlannedFile}
  {applied : List (Path × FileStatus)} {e : Failure}

/-- The application of a plan stops at the first file that cannot be applied. -/
theorem ofPlan_eq_failure_iff :
    (Progress.ofPlan disk false files).run t = (⟨applied, some e⟩, t') ↔
      ∃ done f rest t₁, files = done ++ f :: rest ∧ Applies t done applied t₁ ∧
        (f.apply disk false).run t₁ = (.error e, t') := by
  induction files generalizing t applied with
  | nil =>
    refine iff_of_false (fun h => nomatch h) ?_
    rintro ⟨done, f, rest, t₁, eq, _⟩
    simp at eq
  | cons f fs ih =>
    constructor
    · intro h
      obtain ⟨result, t₁, head, h⟩ := run_bind_eq.1 h
      cases result with
      | error e' =>
        cases h
        exact ⟨[], f, fs, t, rfl, .nil t, head⟩
      | ok status =>
        obtain ⟨rest, t₂, tail, h⟩ := run_bind_eq.1 h
        obtain ⟨restApplied, restFailure⟩ := rest
        cases h
        obtain ⟨done, g, gs, t₂, rfl, applies, refused⟩ := ih.1 tail
        exact ⟨f :: done, g, gs, t₂, rfl, .cons head applies, refused⟩
    · rintro ⟨done, g, gs, t₁, eq, applies, refused⟩
      cases applies with
      | nil =>
        obtain ⟨rfl, rfl⟩ := List.cons.inj eq
        exact run_bind_eq.2 ⟨_, _, refused, rfl⟩
      | cons head tail =>
        obtain ⟨rfl, rfl⟩ := List.cons.inj eq
        refine run_bind_eq.2 ⟨_, _, head, ?_⟩
        exact run_bind_eq.2 ⟨_, _, ih.2 ⟨_, g, gs, t₁, rfl, tail, refused⟩, rfl⟩

namespace PlannedFile

theorem status_eq_error (h : (f.status disk).run t = (.error e, t')) : t' = t ∧ e = .io := by
  unfold PlannedFile.status at h
  cases kind : f.kind with
  | scaffold =>
    rw [kind] at h
    cases h
  | generated =>
    rw [kind] at h
    obtain ⟨judged, rfl⟩ := Prod.mk.inj h
    refine ⟨rfl, ?_⟩
    change f.statusOfRead (t.read f.path) = .error e at judged
    cases read : t.read f.path with
    | ok existing =>
      rw [read] at judged
      cases judged
    | error obstacle =>
      rw [read] at judged
      cases obstacle with
      | missing => cases judged
      | blocked => exact (Except.error.inj judged).symm

theorem fills_of_apply_error (tree : t.IsTree) (h : (f.apply disk false).run t = (.error e, t')) :
    e = .io ∧ t'.IsTree ∧ Fills (Reaches (f.path.origin t.home) f.path.pieces) t t' := by
  obtain ⟨result, t₁, judged, ran⟩ := run_bind_eq.1 h
  cases result with
  | error e' =>
    obtain ⟨rfl, rfl⟩ := status_eq_error judged
    cases ran
    exact ⟨rfl, tree, .refl _ _⟩
  | ok status =>
    obtain ⟨rfl, rfl⟩ := status_eq_ok judged
    dsimp only at ran
    cases change : (f.statusIn t₁).isChange with
    | false =>
      rw [change] at ran
      cases ran
    | true =>
      rw [change] at ran
      obtain ⟨stored, t₂, hstored, ran⟩ := run_bind_eq.1 ran
      cases stored with
      | true => cases ran
      | false =>
        cases ran
        exact ⟨rfl, store_eq_false tree hstored⟩

end PlannedFile

theorem Applies.tree (h : Applies t files applied t') (tree : t.IsTree) : t'.IsTree := by
  induction h with
  | nil _ => exact tree
  | cons head _ ih =>
    obtain ⟨_, l, step⟩ := PlannedFile.settles_of_apply tree head
    exact ih step.tree

theorem Applies.eq_of_unchanged (h : Applies t files applied t')
    (unchanged : ∀ entry ∈ applied, entry.2.isChange = false) : t' = t := by
  induction h with
  | nil _ => rfl
  | cons head _ ih =>
    obtain ⟨here, later⟩ := List.forall_mem_cons.1 unchanged
    rcases (PlannedFile.apply_eq_ok head).2 with ⟨_, rfl⟩ | ⟨change, _⟩
    · exact ih later
    · rw [here] at change
      cases change

/-- The trees hold the same files, whatever directories there are. -/
def FileTree.SameFiles (t t' : FileTree) : Prop :=
  ∀ l content, t'.get? l = some (.file content) ↔ t.get? l = some (.file content)

theorem FileTree.Fills.sameFiles {P : Location → Prop} (h : Fills P t t') : t.SameFiles t' := by
  intro l content
  rcases h.places l with same | ⟨free, made, _⟩
  · rw [same]
  · rw [free, made]
    simp

/-- A file that needs a change is not there as planned. -/
theorem PlannedFile.get?_ne_of_isChange {l : Location} (tree : t.IsTree)
    (detours : t.HoldsDetours f.path) (followable : f.path.isFollowable = true)
    (location : f.path.location? t.home = some l) (change : (f.statusIn t).isChange = true) :
    t.get? l ≠ some (.file f.bytes) := by
  intro there
  unfold statusIn at change
  cases kind : f.kind with
  | scaffold =>
    have holds : t.holds f.path = true :=
      (holds_iff tree detours followable location).2 (by rw [there]; simp)
    rw [kind, holds] at change
    cases change
  | generated =>
    rw [kind, (read_eq_ok tree detours followable location).2 there] at change
    simp [FileStatus.isChange] at change

/-- A run over files apart from each other leaves the files of the tree alone when none of its own
needs a change, and only then. -/
theorem Applies.sameFiles_iff (h : Applies t files applied t') (tree : t.IsTree)
    (apart : (files.map PlannedFile.path).Pairwise (Path.Apart t.home))
    (detours : ∀ f ∈ files, t.HoldsDetours f.path) :
    t.SameFiles t' ↔ ∀ entry ∈ applied, entry.2.isChange = false := by
  constructor
  · intro same entry mem
    obtain ⟨rfl, settled⟩ := h.settled tree apart detours
    obtain ⟨f, hf, rfl⟩ := List.mem_map.1 mem
    obtain ⟨l, location, followable, _, stored, _⟩ := settled.placed f hf
    refine eq_false_of_ne_true fun change => ?_
    have notPreserved : f.statusIn t ≠ .preserved := by
      intro preserved
      rw [preserved] at change
      cases change
    refine PlannedFile.get?_ne_of_isChange tree (detours f hf) followable location change ?_
    exact (same l f.bytes).1 (stored notPreserved)
  · intro unchanged
    rw [h.eq_of_unchanged unchanged]
    exact fun l content => Iff.rfl

/-- A run that was stopped by the file `f`, after the files `done`.  The file met the tree `t₁`. -/
structure StoppedAt (t t' t₁ : FileTree) (done : List PlannedFile)
    (applied : List (Path × FileStatus)) (f : PlannedFile) : Prop where
  applies : Applies t done applied t₁
  refused : (f.apply disk false).run t₁ = (.error .io, t')
  fills : Fills (Reaches (f.path.origin t₁.home) f.path.pieces) t₁ t'

namespace Run

variable {c : Config} {s : Schema} {events : List LogEvent}

/-- A run fails in planning, or at the first file that cannot be applied. -/
theorem generate_eq_error_iff :
    (∃ events, (generate disk false c s).run t = ((events, .error e), t')) ↔
      Plan.build c s = .error e ∧ t' = t ∨
        ∃ done f rest applied t₁, Plan.build c s = .ok (done ++ f :: rest) ∧
          Applies t done applied t₁ ∧ (f.apply disk false).run t₁ = (.error e, t') := by
  unfold generate
  cases plan : Plan.build c s with
  | error e' =>
    constructor
    · rintro ⟨events, h⟩
      cases h
      exact .inl ⟨rfl, rfl⟩
    · rintro (⟨h, rfl⟩ | ⟨_, _, _, _, _, h, _⟩)
      · cases h
        exact ⟨_, rfl⟩
      · cases h
  | ok files =>
    constructor
    · rintro ⟨events, h⟩
      obtain ⟨⟨applied, failure⟩, t₁, ran, h⟩ := run_bind_eq.1 h
      cases failure with
      | none => cases h
      | some e' =>
        cases h
        obtain ⟨done, f, rest, t₁, rfl, applies, refused⟩ := ofPlan_eq_failure_iff.1 ran
        exact .inr ⟨done, f, rest, applied, t₁, rfl, applies, refused⟩
    · rintro (⟨h, _⟩ | ⟨done, f, rest, applied, t₁, h, applies, refused⟩)
      · cases h
      · cases h
        have ran := ofPlan_eq_failure_iff.2 ⟨done, f, rest, t₁, rfl, applies, refused⟩
        exact ⟨_, run_bind_eq.2 ⟨_, _, ran, rfl⟩⟩

/-- A failure to plan leaves the tree alone.  Any other is a failure of the file system at one of
the files, before which the files of the plan have been applied: where the paths name places apart
from each other, these files are as after a run that succeeds, all others are as before, and nothing
has happened to any file only if none of those applied needed a change. -/
theorem generate_failure (tree : t.IsTree)
    (ran : (generate disk false c s).run t = ((events, .error e), t')) :
    Plan.build c s = .error e ∧ t' = t ∨
      e = .io ∧ ∃ done f rest applied t₁, Plan.build c s = .ok (done ++ f :: rest) ∧
        StoppedAt t t' t₁ done applied f ∧
        ((done.map PlannedFile.path).Pairwise (Path.Apart t.home) →
          (∀ g ∈ done, t.HoldsDetours g.path) →
            RunEffect t t' done ⟨applied, false⟩ ∧
              (t.SameFiles t' ↔ ∀ entry ∈ applied, entry.2.isChange = false)) := by
  rcases generate_eq_error_iff.1 ⟨events, ran⟩ with planning | stopped
  · exact .inl planning
  · obtain ⟨done, f, rest, applied, t₁, plan, applies, refused⟩ := stopped
    obtain ⟨rfl, tree', fills⟩ := PlannedFile.fills_of_apply_error (applies.tree tree) refused
    refine .inr ⟨rfl, done, f, rest, applied, t₁, plan, ⟨applies, refused, fills⟩,
      fun apart detours => ⟨?_, ?_⟩⟩
    · obtain ⟨rfl, settled⟩ := applies.settled tree apart detours
      exact settled.effect_of_fills tree detours tree' fills
    · rw [← applies.sameFiles_iff tree apart detours]
      exact forall₂_congr fun l content => by rw [fills.sameFiles l content]

end Run

def FileTree.obstructed : FileTree := empty.set ["work", "managed"] (.file ByteArray.empty)

theorem FileTree.isTree_obstructed : obstructed.IsTree := by
  have whole : (empty.set (["work"] ++ ["managed"]) (.file ByteArray.empty)).IsTree :=
    isTree_empty.set rfl (by simp [get?_empty])
  exact whole

namespace Run

theorem exists_failure {ran : (List LogEvent × Except Failure Report) × FileTree} {e : Failure}
    (stops : ran.1.2 = .error e) : ∃ events t', ran = ((events, .error e), t') := by
  obtain ⟨⟨events, result⟩, t'⟩ := ran
  exact ⟨events, t', by rw [← stops]⟩

theorem stops_obstructed :
    ((generate disk false .outside Schema.lone).run obstructed).1.2 = .error .io := by
  decide +kernel

/-- The run is stopped by the first managed file, after two native ones. -/
theorem generate_failure_obstructed :
    ∃ events t', obstructed.IsTree ∧
      (generate disk false .outside Schema.lone).run obstructed = ((events, .error .io), t') ∧
      ∃ done f rest applied t₁, Plan.build .outside Schema.lone = .ok (done ++ f :: rest) ∧
        StoppedAt obstructed t' t₁ done applied f ∧
        RunEffect obstructed t' done ⟨applied, false⟩ ∧
        (obstructed.SameFiles t' ↔ ∀ entry ∈ applied, entry.2.isChange = false) := by
  obtain ⟨files, plan, apart, detours⟩ := Plan.build_outside
  obtain ⟨events, t', ran⟩ := exists_failure stops_obstructed
  refine ⟨events, t', isTree_obstructed, ran, ?_⟩
  rcases generate_failure isTree_obstructed ran with ⟨failed, _⟩ | ⟨_, stopped⟩
  · rw [plan] at failed
    cases failed
  · obtain ⟨done, f, rest, applied, t₁, planned, at_f, effect⟩ := stopped
    rw [plan] at planned
    cases planned
    rw [List.map_append, List.pairwise_append] at apart
    exact ⟨done, f, rest, applied, t₁, plan, at_f,
      effect apart.1 fun g hg => detours g (List.mem_append_left _ hg) obstructed⟩

theorem observed_obstructed :
    ((generate disk false {} Schema.lone).run obstructed).1.2 = .error .io ∧
      (((generate disk false {} Schema.lone).run obstructed).2.get?
        ["work", "native", "Api", "ApiSupport.h"]).isSome = true := by
  decide +kernel

/-- A run that fails can have written files. -/
theorem generate_obstructed :
    Schema.lone.validate = .ok () ∧ Config.validate {} = .ok () ∧ obstructed.IsTree ∧
      ∃ events t', (generate disk false {} Schema.lone).run obstructed =
          ((events, .error .io), t') ∧
        obstructed.get? ["work", "native", "Api", "ApiSupport.h"] = none ∧
        t'.get? ["work", "native", "Api", "ApiSupport.h"] ≠ none := by
  obtain ⟨stops, written⟩ := observed_obstructed
  obtain ⟨events, t', ran⟩ := exists_failure stops
  rw [ran] at written
  exact ⟨rfl, rfl, isTree_obstructed, events, t', ran, rfl, Option.isSome_iff_ne_none.1 written⟩

end Run

end InteropGen
