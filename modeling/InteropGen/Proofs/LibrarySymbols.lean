import Mathlib.Data.List.Pairwise
import InteropGen.Proofs.ValueTypes
import InteropGen.Proofs.WrappedMembers

set_option autoImplicit false

/-!
# The symbols of the whole library

The functions of all classes go into one library.  A symbol is the name of a class, an underscore,
and what the function is called within the class.  The table of a class keeps its own symbols apart.
Those of two classes can meet only where the name of one class goes on behind an underscore with
what a member of the other is called.
-/

namespace InteropGen

namespace Text

variable {c : Char} {xs ys as bs : List Char}

/-- A text is split at a mark in two ways where one of the fronts goes on behind the mark. -/
theorem append_mark_eq_iff : xs ++ c :: as = ys ++ c :: bs ↔
    (xs = ys ∧ as = bs) ∨ (∃ zs, ys = xs ++ c :: zs ∧ as = zs ++ c :: bs) ∨
      ∃ zs, xs = ys ++ c :: zs ∧ bs = zs ++ c :: as := by
  constructor
  · intro same
    rcases List.append_eq_append_iff.1 same with ⟨zs, front, rest⟩ | ⟨zs, front, rest⟩
    · cases zs with
      | nil => exact .inl ⟨by simp [front], (List.cons.inj rest).2⟩
      | cons z zs =>
        obtain ⟨rfl, behind⟩ := List.cons.inj rest
        exact .inr (.inl ⟨zs, front, behind⟩)
    · cases zs with
      | nil => exact .inl ⟨by simp [front], (List.cons.inj rest).2.symm⟩
      | cons z zs =>
        obtain ⟨rfl, behind⟩ := List.cons.inj rest
        exact .inr (.inr ⟨zs, front, behind⟩)
  · rintro (⟨rfl, rfl⟩ | ⟨zs, rfl, rfl⟩ | ⟨zs, rfl, rfl⟩)
    · rfl
    · simp
    · simp

end Text

open Text

namespace ApiType

variable {t u : ApiType} {kind : ExportKind} {a b x : String}

def ownName (t : ApiType) : ExportKind → String
  | .create => "Create"
  | .destroy => "Destroy"
  | .member m => (t.signature m).name
  | .arrayAccess i step => step.memberName (t.property i).name
  | .setEventCallback => "SetEventCallback"
  | .setTrampolineLocator => "SetTrampolineLocatorCallback"
  | .setManagedHandle => "SetManagedHandle"

theorem nameOf_eq (t : ApiType) (kind : ExportKind) :
    t.nameOf kind = t.qualify (t.ownName kind) := by
  cases kind <;> rfl

theorem toList_qualify (t : ApiType) (a : String) :
    (t.qualify a).toList = t.name.toList ++ '_' :: a.toList := by
  rw [qualify, String.toList_append, String.toList_append, List.append_assoc]
  rfl

/-- Symbols meet where they are split in the same way, or where the name of one class goes on behind
the underscore. -/
theorem qualify_eq_iff : t.qualify a = u.qualify b ↔
    (t.name = u.name ∧ a = b) ∨ (∃ x, u.name = t.qualify x ∧ a = x ++ "_" ++ b) ∨
      ∃ x, t.name = u.qualify x ∧ b = x ++ "_" ++ a := by
  simp only [← String.toList_inj, toList_qualify, append_mark_eq_iff, String.toList_append]
  constructor
  · rintro (same | ⟨zs, name, own⟩ | ⟨zs, name, own⟩)
    · exact .inl same
    · exact .inr (.inl ⟨String.ofList zs, by simpa using name, by simpa using own⟩)
    · exact .inr (.inr ⟨String.ofList zs, by simpa using name, by simpa using own⟩)
  · rintro (same | ⟨x, name, own⟩ | ⟨x, name, own⟩)
    · exact .inl same
    · exact .inr (.inl ⟨x.toList, name, by simpa using own⟩)
    · exact .inr (.inr ⟨x.toList, name, by simpa using own⟩)

/-- What a function is called has a mark in it only as what a member is called has. -/
theorem exists_member_of_mark {s : Schema} (mem : kind ∈ s.exportKinds t)
    (mark : '_' ∈ (t.ownName kind).toList) :
    ∃ m ∈ t.members, '_' ∈ (t.signature m).name.toList := by
  cases kind with
  | member m => exact ⟨m, (Schema.mem_exportKinds_member.1 mem).1, mark⟩
  | arrayAccess i step =>
    refine ⟨.getter i, (Schema.mem_exportKinds_arrayAccess.1 mem).1, ?_⟩
    have inside : '_' ∈ (t.property i).name.toList := by
      cases step <;> simpa [ownName, ArrayStep.memberName] using mark
    simp [signature, inside]
  | create | destroy | setEventCallback | setTrampolineLocator | setManagedHandle =>
    exact absurd mark (by simp [ownName])

end ApiType

/-- The name of `u` goes on, behind that of `t`, with what a member of `t` is called. -/
def Schema.SymbolsMeet (s : Schema) (t u : ApiType) : Prop :=
  ∃ x, u.name = t.qualify x ∧
    ∃ k ∈ s.exportKinds t, ∃ k' ∈ s.exportKinds u, t.ownName k = x ++ "_" ++ u.ownName k'

namespace Schema

variable {s : Schema} {t u : ApiType}

theorem SymbolsMeet.ne (h : s.SymbolsMeet t u) : t ≠ u := by
  rintro rfl
  obtain ⟨x, same, _⟩ := h
  have lengths := congrArg (List.length ∘ String.toList) same
  rw [Function.comp_apply, Function.comp_apply, ApiType.toList_qualify, List.length_append,
    List.length_cons] at lengths
  omega

theorem exists_shared_iff (ne : t.name ≠ u.name) :
    (∃ k ∈ s.exportKinds t, ∃ k' ∈ s.exportKinds u, t.nameOf k = u.nameOf k') ↔
      s.SymbolsMeet t u ∨ s.SymbolsMeet u t := by
  constructor
  · rintro ⟨k, hk, k', hk', same⟩
    rw [ApiType.nameOf_eq, ApiType.nameOf_eq, ApiType.qualify_eq_iff] at same
    rcases same with ⟨eq, _⟩ | ⟨x, name, own⟩ | ⟨x, name, own⟩
    · exact absurd eq ne
    · exact .inl ⟨x, name, k, hk, k', hk', own⟩
    · exact .inr ⟨x, name, k', hk', k, hk, own⟩
  · rintro (⟨x, name, k, hk, k', hk', own⟩ | ⟨x, name, k', hk', k, hk, own⟩)
    · refine ⟨k, hk, k', hk', ?_⟩
      rw [ApiType.nameOf_eq, ApiType.nameOf_eq, ApiType.qualify_eq_iff]
      exact .inr (.inl ⟨x, name, own⟩)
    · refine ⟨k, hk, k', hk', ?_⟩
      rw [ApiType.nameOf_eq, ApiType.nameOf_eq, ApiType.qualify_eq_iff]
      exact .inr (.inr ⟨x, name, own⟩)

def symbolNames (s : Schema) : List String :=
  s.classes.flatMap fun t => (s.exportKinds t).map t.nameOf

theorem nodup_symbolNames_iff (unique : (s.classes.map ApiType.name).Nodup)
    (each : ∀ t ∈ s.classes, ((s.exportKinds t).map t.nameOf).Nodup) :
    s.symbolNames.Nodup ↔ ∀ t ∈ s.classes, ∀ u ∈ s.classes, ¬ s.SymbolsMeet t u := by
  have names {t u : ApiType} (ht : t ∈ s.classes) (hu : u ∈ s.classes) (ne : t ≠ u) :
      t.name ≠ u.name := mt (List.inj_on_of_nodup_map unique ht hu) ne
  have disjoint {t u : ApiType} : List.Disjoint ((s.exportKinds t).map t.nameOf)
      ((s.exportKinds u).map u.nameOf) ↔
        ¬ ∃ k ∈ s.exportKinds t, ∃ k' ∈ s.exportKinds u, t.nameOf k = u.nameOf k' := by
    simp [List.disjoint_left, eq_comm (b := u.nameOf _)]
  rw [symbolNames, List.nodup_flatMap, and_iff_right each]
  constructor
  · intro apart t ht u hu meet
    have : Std.Symm (Function.onFun List.Disjoint
        fun t : ApiType => (s.exportKinds t).map t.nameOf) := ⟨fun _ _ h => List.disjoint_symm h⟩
    have here := apart.forall ht hu meet.ne
    exact disjoint.1 here ((exists_shared_iff (names ht hu meet.ne)).2 (.inl meet))
  · intro apart
    refine (List.Nodup.of_map _ unique).pairwise_of_forall_ne fun t ht u hu ne => ?_
    refine disjoint.2 fun shared => ?_
    rcases (exists_shared_iff (names ht hu ne)).1 shared with meet | meet
    · exact apart t ht u hu meet
    · exact apart u hu t ht meet

/-- Symbols meet only around an underscore in the name of a class and in that of a member. -/
theorem SymbolsMeet.marks (h : s.SymbolsMeet t u) :
    '_' ∈ u.name.toList ∧ ∃ m ∈ t.members, '_' ∈ (t.signature m).name.toList := by
  obtain ⟨x, name, k, hk, k', _, own⟩ := h
  constructor
  · rw [name, ApiType.toList_qualify]
    simp
  · refine ApiType.exists_member_of_mark hk ?_
    rw [own]
    simp

end Schema

theorem exists_forall₂ {α β : Type} {R : α → β → Prop} {xs : List α}
    (h : ∀ x ∈ xs, ∃ y, R x y) : ∃ ys, List.Forall₂ R xs ys := by
  induction xs with
  | nil => exact ⟨[], .nil⟩
  | cons x xs ih =>
    obtain ⟨here, later⟩ := List.forall_mem_cons.1 h
    obtain ⟨y, hy⟩ := here
    obtain ⟨ys, hys⟩ := ih later
    exact ⟨y :: ys, .cons hy hys⟩

theorem ExportTable.names_of_build {s : Schema} {t : ApiType} {table : ExportTable}
    (h : build s t = .ok table) : table.names = (s.exportKinds t).map t.nameOf := by
  rw [names, entries_of_build h, List.map_map]
  rfl

namespace Plan

variable {c : Config} {s : Schema} {files : List PlannedFile}

theorem tables_of_build (plan : build c s = .ok files) :
    ∃ tables, List.Forall₂ (fun t table => ExportTable.build s t = .ok table) s.classes tables := by
  refine exists_forall₂ fun t ht => ?_
  obtain ⟨a, built, _⟩ := class_of_build plan ht
  obtain ⟨_, exports, parts⟩ := ClassArtifacts.parts_of_build built
  exact ⟨exports, parts.exports_ok⟩

/-- The tables of a plan keep the names of functions apart, each for itself.  In all of them
together a name repeats just where the name of a class goes on, behind that of another, with what a
member of the other is called.  So none repeats as long as there are no underscores in the names of
classes, or none in those of members. -/
theorem symbols_nodup_iff (valid : s.validate = .ok ()) (plan : build c s = .ok files) :
    ∃ tables, List.Forall₂ (fun t table => ExportTable.build s t = .ok table) s.classes tables ∧
      (∀ table ∈ tables, table.names.Nodup) ∧
      ((tables.flatMap ExportTable.names).Nodup ↔
        ∀ t ∈ s.classes, ∀ u ∈ s.classes, ¬ s.SymbolsMeet t u) ∧
      ((∀ t ∈ s.classes, '_' ∉ t.name.toList) ∨
          (∀ t ∈ s.classes, ∀ m ∈ t.members, '_' ∉ (t.signature m).name.toList) →
        (tables.flatMap ExportTable.names).Nodup) := by
  obtain ⟨tables, built⟩ := tables_of_build plan
  have each (t : ApiType) (ht : t ∈ s.classes) : ((s.exportKinds t).map t.nameOf).Nodup := by
    obtain ⟨table, _, h⟩ := exists_right_of_forall₂ built ht
    rw [← ExportTable.names_of_build h]
    exact ExportTable.nodup_of_build h
  have all : tables.flatMap ExportTable.names = s.symbolNames := by
    rw [Schema.symbolNames, List.flatMap_def, List.flatMap_def,
      forall₂_map_eq built fun t table h => (ExportTable.names_of_build h).symm]
  have whole := Schema.nodup_symbolNames_iff (s.nodup_classNames_of_validate valid) each
  refine ⟨tables, built, fun table mem => ?_, all ▸ whole, fun unmarked => ?_⟩
  · obtain ⟨t, _, h⟩ := exists_left_of_forall₂ built mem
    exact ExportTable.nodup_of_build h
  · rw [all, whole]
    intro t ht u hu meet
    obtain ⟨inName, m, hm, inMember⟩ := meet.marks
    rcases unmarked with names | members
    · exact names u hu inName
    · exact members t ht m hm inMember

/-- No symbol of this library repeats. -/
theorem symbols_nodup_drawing :
    Schema.drawing.validate = .ok () ∧ ∃ files tables, build {} Schema.drawing = .ok files ∧
      List.Forall₂ (fun t table => ExportTable.build Schema.drawing t = .ok table)
        Schema.drawing.classes tables ∧
      (∀ table ∈ tables, table.names.Nodup) ∧ (tables.flatMap ExportTable.names).Nodup := by
  obtain ⟨files, plan⟩ := build_drawing {}
  obtain ⟨tables, built, each, _, unmarked⟩ := symbols_nodup_iff (s := Schema.drawing) rfl plan
  exact ⟨rfl, files, tables, plan, built, each, unmarked (.inl (by decide))⟩

end Plan

def Schema.ambiguous : Schema :=
  ⟨[{ name := "A", methods := [{ name := "B_Create" }] }, { name := "A_B" }]⟩

theorem Schema.hasIdentifiers_ambiguous : Schema.ambiguous.HasIdentifiers := by
  intro t ht
  simp only [ambiguous, List.mem_cons, List.not_mem_nil, or_false] at ht
  rcases ht with rfl | rfl
  · exact ⟨by decide, by decide, by decide, by decide, by decide, by decide, by decide⟩
  · exact ⟨by decide, by decide, by decide, by decide, by decide, by decide, by decide⟩

/-- A plan can export a symbol twice. -/
theorem Plan.symbols_ambiguous :
    Schema.ambiguous.validate = .ok () ∧ Schema.ambiguous.HasIdentifiers ∧
      ∃ files tables, build {} Schema.ambiguous = .ok files ∧
        List.Forall₂ (fun t table => ExportTable.build Schema.ambiguous t = .ok table)
          Schema.ambiguous.classes tables ∧
        ¬ (tables.flatMap ExportTable.names).Nodup :=
  ⟨rfl, Schema.hasIdentifiers_ambiguous, _, _, rfl, .cons rfl (.cons rfl .nil), by decide⟩

end InteropGen
