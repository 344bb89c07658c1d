import InteropGen.Generation.Run
import InteropGen.Proofs.FileTrees

set_option autoImplicit false

/-!
# Applying one file of a plan

A file that is applied with success ends up at the place that its path names, unless it is a
scaffold and something was there.  Besides, only directories are made that its path passes through.
-/

namespace InteropGen

open FileTree

theorem run_bind_eq {σ α β : Type} {x : StateM σ α} {f : α → StateM σ β} {s s' : σ} {b : β} :
    (x >>= f).run s = (b, s') ↔ ∃ a s₁, x.run s = (a, s₁) ∧ (f a).run s₁ = (b, s') := by
  constructor
  · exact fun h => ⟨(x.run s).1, (x.run s).2, rfl, h⟩
  · rintro ⟨a, s₁, hx, hf⟩
    rw [StateT.run_bind, hx]
    exact hf

namespace PlannedFile

variable {t t' : FileTree} {f : PlannedFile} {status : FileStatus} {l : Location}

/-- What is to be done with the file, by what the tree holds. -/
def statusIn (t : FileTree) (f : PlannedFile) : FileStatus :=
  match f.kind with
  | .scaffold => if t.holds f.path then .preserved else .created
  | .generated =>
    match t.read f.path with
    | .ok existing => if existing.data = f.bytes.data then .unchanged else .written
    | .error _ => .written

theorem status_eq_ok (h : (f.status disk).run t = (.ok status, t')) :
    t' = t ∧ f.statusIn t = status := by
  unfold PlannedFile.status at h
  unfold statusIn
  cases kind : f.kind with
  | scaffold =>
    rw [kind] at h
    cases h
    exact ⟨rfl, rfl⟩
  | generated =>
    rw [kind] at h
    obtain ⟨judged, rfl⟩ := Prod.mk.inj h
    refine ⟨rfl, ?_⟩
    change f.statusOfRead (t.read f.path) = .ok status at judged
    cases read : t.read f.path with
    | ok existing =>
      rw [read] at judged
      exact Except.ok.inj judged
    | error obstacle =>
      rw [read] at judged
      cases obstacle with
      | missing => exact Except.ok.inj judged
      | blocked => cases judged

theorem apply_eq_ok (h : (f.apply disk false).run t = (.ok status, t')) :
    f.statusIn t = status ∧ (status.isChange = false ∧ t' = t ∨
      status.isChange = true ∧ (f.store disk).run t = (true, t')) := by
  obtain ⟨result, t₁, judged, ran⟩ := run_bind_eq.1 h
  cases result with
  | error e => cases ran
  | ok judgement =>
    obtain ⟨rfl, same⟩ := status_eq_ok judged
    dsimp only at ran
    cases change : judgement.isChange with
    | false =>
      rw [change] at ran
      cases ran
      exact ⟨same, .inl ⟨change, rfl⟩⟩
    | true =>
      rw [change] at ran
      obtain ⟨stored, t₂, hstored, ran⟩ := run_bind_eq.1 ran
      cases stored with
      | false => cases ran
      | true =>
        cases ran
        exact ⟨same, .inr ⟨change, hstored⟩⟩

theorem prepared_of_makeParent (tree : t.IsTree) {made : Bool}
    (h : (f.makeParent disk).run t = (made, t')) :
    t'.IsTree ∧ Fills (Reaches (f.path.origin t.home) f.path.pieces) t t' := by
  unfold makeParent at h
  split at h
  · cases h
    exact ⟨tree, .refl _ t⟩
  · rename_i q hq
    have eq : t' = (t.makeDirectories q).2 := congrArg Prod.snd h.symm
    obtain ⟨tree', fills⟩ := tree.makeDirectories q
    rw [eq, ← Path.origin_parent? hq]
    exact ⟨tree', fills.mono fun k => reaches_of_steps (Path.steps_parent? hq)⟩

/-- A file is stored by making directories that its path leads to and writing it at its place. -/
theorem store_eq_true (tree : t.IsTree) (h : (f.store disk).run t = (true, t')) :
    ∃ t₁, t₁.IsTree ∧ Fills (Reaches (f.path.origin t.home) f.path.pieces) t t₁ ∧
      t₁.write f.path f.bytes = some t' := by
  obtain ⟨made, t₁, parent, h⟩ := run_bind_eq.1 h
  obtain ⟨tree₁, fills⟩ := prepared_of_makeParent tree parent
  cases made with
  | false => cases h
  | true =>
    refine ⟨t₁, tree₁, fills, ?_⟩
    change t₁.tryWrite f.path f.bytes = (true, t') at h
    unfold tryWrite at h
    split at h
    · rename_i t₂ written
      cases h
      exact written
    · cases h

/-- A file that cannot be stored is not there afterwards, but directories on the way to it may be. -/
theorem store_eq_false (tree : t.IsTree) (h : (f.store disk).run t = (false, t')) :
    t'.IsTree ∧ Fills (Reaches (f.path.origin t.home) f.path.pieces) t t' := by
  obtain ⟨made, t₁, parent, h⟩ := run_bind_eq.1 h
  have prepared := prepared_of_makeParent tree parent
  cases made with
  | false =>
    cases h
    exact prepared
  | true =>
    change t₁.tryWrite f.path f.bytes = (false, t') at h
    unfold tryWrite at h
    split at h
    · cases h
    · cases h
      exact prepared

/-- What applying the file with success does to a tree, where `l` is the place that its path
names. -/
structure Settles (f : PlannedFile) (t t' : FileTree) (l : Location) : Prop where
  location : f.path.location? t.home = some l
  followable : f.path.isFollowable = true
  tree : t'.IsTree
  home : t'.home = t.home
  kept : (f.statusIn t).isChange = false → t' = t
  stored : f.statusIn t ≠ .preserved → t'.get? l = some (.file f.bytes)
  there : t'.get? l ≠ none
  directories : ∀ k, t.get? k = some .directory → t'.get? k = some .directory
  others : ∀ k, k ≠ l → t'.get? k = t.get? k ∨
    t.get? k = none ∧ t'.get? k = some .directory ∧ f.path.PassesThrough t.home k

theorem settles_of_store (tree : t.IsTree) (change : (f.statusIn t).isChange = true)
    (h : (f.store disk).run t = (true, t')) : ∃ l, f.Settles t t' l := by
  obtain ⟨t₁, tree₁, fills, written⟩ := store_eq_true tree h
  obtain ⟨l, located, replaced, tree', home, here, same⟩ := tree₁.write written
  obtain ⟨followable, location, _⟩ := locate_eq_ok.1 located
  rw [fills.home] at location home
  refine ⟨l, location, followable, tree', home, fun none => ?_, fun _ => here, ?_,
    fun k there => ?_, fun k ne => ?_⟩
  · rw [change] at none
    cases none
  · rw [here]
    simp
  · have directory := fills.directory there
    rw [same k fun eq => replaced (eq ▸ directory)]
    exact directory
  · rw [same k ne]
    rcases fills.places k with unchanged | ⟨free, made, reached⟩
    · exact .inl unchanged
    · -- The whole path leads to where the file is, so it is a part of it that leads to `k`.
      refine .inr ⟨free, made, reached.passes_or.resolve_right fun walked => ne ?_⟩
      rw [(Path.location?_eq_some.1 location).2] at walked
      exact (Except.ok.inj walked).symm

theorem settles_of_entry (tree : t.IsTree) {e : Entry} (there : t.entryAt f.path = .ok e)
    (content : f.statusIn t ≠ .preserved → e = .file f.bytes) : ∃ l, f.Settles t t l := by
  obtain ⟨l, located, h⟩ := bind_eq_ok.1 there
  obtain ⟨followable, location, _⟩ := locate_eq_ok.1 located
  have here : t.get? l = some e := by
    cases entry : t.get? l with
    | none =>
      rw [entry] at h
      cases h
    | some e' =>
      rw [entry] at h
      cases h
      rfl
  refine ⟨l, location, followable, tree, rfl, fun _ => rfl, fun changed => ?_, ?_, fun _ => id,
    fun _ _ => .inl rfl⟩
  · rw [here, content changed]
  · rw [here]
    simp

theorem settles_of_unchanged (tree : t.IsTree) (none : (f.statusIn t).isChange = false) :
    ∃ l, f.Settles t t l := by
  cases kind : f.kind with
  | scaffold =>
    have preserved : f.statusIn t = if t.holds f.path then .preserved else .created := by
      rw [statusIn, kind]
    rw [preserved] at none
    split at none
    · rename_i holds
      rw [if_pos holds] at preserved
      obtain ⟨e, there⟩ := holds_iff_exists.1 holds
      refine settles_of_entry tree there fun changed => ?_
      exact absurd preserved changed
    · cases none
  | generated =>
    cases read : t.read f.path with
    | error obstacle =>
      rw [statusIn, kind, read] at none
      cases none
    | ok existing =>
      obtain ⟨e, there, content⟩ := bind_eq_ok.1 read
      cases e with
      | directory => cases content
      | file existing' =>
        cases content
        refine settles_of_entry tree there fun _ => ?_
        rw [statusIn, kind, read] at none
        dsimp only at none
        split at none
        · rename_i same
          rw [ByteArray.ext same]
        · cases none

theorem settles_of_apply (tree : t.IsTree) (h : (f.apply disk false).run t = (.ok status, t')) :
    f.statusIn t = status ∧ ∃ l, f.Settles t t' l := by
  obtain ⟨rfl, h⟩ := apply_eq_ok h
  refine ⟨rfl, ?_⟩
  rcases h with ⟨none, rfl⟩ | ⟨change, stored⟩
  · exact settles_of_unchanged tree none
  · exact settles_of_store tree change stored

end PlannedFile

end InteropGen
