import Mathlib.Data.List.Induction
import InteropGen.Proofs.Trails

set_option autoImplicit false

/-!
# What happens to a file tree

In a file tree that a file system can be in, whatever is there is in a directory, and so is the
process.  Making directories and writing files keeps it so, fills places that are free, and changes
no more than the file that is written.
-/

namespace InteropGen

namespace FileTree

variable {t t' t'' : FileTree} {k l next : Location} {piece name : String} {pieces : List String}
  {e : Entry} {p : Path} {content : ByteArray}

/-- Whatever is there is in a directory, and the working directory is one. -/
structure IsTree (t : FileTree) : Prop where
  inside : ∀ l name, t.get? (l ++ [name]) ≠ none → t.get? l = some .directory
  home : t.get? t.home = some .directory

/-- `t'` is `t` with more directories, each of them at a place with the property. -/
structure Fills (P : Location → Prop) (t t' : FileTree) : Prop where
  home : t'.home = t.home
  places : ∀ k, t'.get? k = t.get? k ∨ t.get? k = none ∧ t'.get? k = some .directory ∧ P k

/-- `k` is a directory on the way down to `l`. -/
def IsAbove (k l : Location) : Prop := k <+: l ∧ k ≠ l

theorem get?_empty (root : l ≠ []) (work : l ≠ ["work"]) : empty.get? l = none := by
  have other : (l == ["work"]) = false := beq_eq_false_iff_ne.2 work
  simp [get?, empty, root, List.lookup_cons, other]

theorem isTree_empty : empty.IsTree := by
  refine ⟨fun l name there => ?_, rfl⟩
  by_cases work : l ++ [name] = [] ++ ["work"]
  · obtain ⟨rfl, _⟩ := List.append_inj' work rfl
    rfl
  · exact absurd (get?_empty (List.append_ne_nil_of_right_ne_nil _ (List.cons_ne_nil _ _)) work) there

theorem IsTree.directory_above (tree : t.IsTree) (above : IsAbove k l) (there : t.get? l ≠ none) :
    t.get? k = some .directory := by
  obtain ⟨⟨rest, rfl⟩, ne⟩ := above
  induction rest using List.reverseRecOn with
  | nil => exact absurd (List.append_nil k).symm ne
  | append_singleton rest name ih =>
    rw [← List.append_assoc] at there
    have directory := tree.inside (k ++ rest) name there
    cases rest with
    | nil => rwa [List.append_nil] at directory
    | cons head rest => exact ih (by rw [directory]; simp) (by simp)

theorem IsTree.set (tree : t.IsTree) (parent : t.get? l = some .directory)
    (replaced : t.get? (l ++ [name]) ≠ some .directory) : (t.set (l ++ [name]) e).IsTree := by
  have kept {k : Location} (directory : t.get? k = some .directory) :
      (t.set (l ++ [name]) e).get? k = some .directory :=
    (get?_set_of_ne fun eq : k = l ++ [name] => replaced (eq ▸ directory)).trans directory
  refine ⟨fun k inner there => ?_, kept tree.home⟩
  by_cases same : k ++ [inner] = l ++ [name]
  · obtain ⟨rfl, _⟩ := List.append_inj' same rfl
    exact kept parent
  · rw [get?_set_of_ne same] at there
    exact kept (tree.inside k inner there)

theorem IsTree.origin (tree : t.IsTree) (p : Path) :
    t.get? (p.origin t.home) = some .directory := by
  unfold Path.origin
  split
  · rfl
  · exact tree.home

namespace Fills

variable {P Q : Location → Prop}

theorem refl (P : Location → Prop) (t : FileTree) : Fills P t t := ⟨rfl, fun _ => .inl rfl⟩

theorem trans (h : Fills P t t') (h' : Fills P t' t'') : Fills P t t'' := by
  refine ⟨h'.home.trans h.home, fun k => ?_⟩
  rcases h.places k with same | ⟨free, made, here⟩
  · rcases h'.places k with same' | ⟨free', made', here'⟩
    · exact .inl (same'.trans same)
    · exact .inr ⟨same.symm.trans free', made', here'⟩
  · rcases h'.places k with same' | ⟨free', _⟩
    · exact .inr ⟨free, same'.trans made, here⟩
    · rw [made] at free'
      cases free'

theorem mono (imp : ∀ k, P k → Q k) (h : Fills P t t') : Fills Q t t' := by
  refine ⟨h.home, fun k => ?_⟩
  rcases h.places k with same | ⟨free, made, here⟩
  · exact .inl same
  · exact .inr ⟨free, made, imp k here⟩

theorem directory (h : Fills P t t') (there : t.get? k = some .directory) :
    t'.get? k = some .directory := by
  rcases h.places k with same | ⟨_, made, _⟩
  · exact same.trans there
  · exact made

end Fills

theorem IsTree.step (tree : t.IsTree) (here : t.get? l = some .directory)
    (h : step l piece = .ok next) : t.get? next = some .directory ∨ next = l ++ [piece] := by
  unfold FileTree.step at h
  split at h
  · cases h
    exact .inl here
  · split at h
    · cases h
      rcases List.eq_nil_or_concat' l with rfl | ⟨above, name, rfl⟩
      · exact .inl here
      · rw [List.dropLast_concat]
        exact .inl (tree.inside above name (by rw [here]; simp))
    · split at h
      · cases h
      · cases h
        exact .inr rfl

theorem fills_set_directory (free : t.get? l = none) : Fills (· = l) t (t.set l .directory) := by
  have inner : l ≠ [] := by
    rintro rfl
    cases free
  refine ⟨rfl, fun k => ?_⟩
  by_cases same : k = l
  · subst same
    exact .inr ⟨free, get?_set_self inner, rfl⟩
  · exact .inl (get?_set_of_ne same)

theorem IsTree.extend (tree : t.IsTree) (here : t.get? l = some .directory) :
    (t.extend l pieces).2.IsTree ∧ Fills (Reaches l pieces) t (t.extend l pieces).2 := by
  induction pieces generalizing t l with
  | nil => exact ⟨tree, .refl _ t⟩
  | cons piece rest ih =>
    rw [FileTree.extend]
    cases hnext : FileTree.step l piece with
    | error obstacle => exact ⟨tree, .refl _ t⟩
    | ok next =>
      have onward (k : Location) : Reaches next rest k → Reaches l (piece :: rest) k :=
        reaches_cons hnext
      dsimp only
      cases entry : t.get? next with
      | some e =>
        cases e with
        | file content => exact ⟨tree, .refl _ t⟩
        | directory =>
          obtain ⟨tree', fills⟩ := ih tree entry
          exact ⟨tree', fills.mono onward⟩
      | none =>
        rcases tree.step here hnext with directory | rfl
        · rw [entry] at directory
          cases directory
        · have tree' : (t.set (l ++ [piece]) .directory).IsTree :=
            tree.set here (by rw [entry]; simp)
          -- What has been made is a directory, from which the other pieces lead on.
          have made : (t.set (l ++ [piece]) .directory).get? (l ++ [piece]) = some .directory :=
            get?_set_self (by simp)
          obtain ⟨tree'', fills⟩ := ih tree' made
          refine ⟨tree'', Fills.trans ?_ (fills.mono onward)⟩
          refine (fills_set_directory entry).mono fun k same => onward k ?_
          exact ⟨[], List.nil_prefix, by rw [same]; rfl⟩

theorem reaches_of_steps {q : Path} (sub : q.steps <+: p.steps) (h : Reaches l q.pieces k) :
    Reaches l p.pieces k := reaches_filter.1 ((reaches_filter.2 h).mono sub)

theorem IsTree.makeDirectories (tree : t.IsTree) (p : Path) :
    (t.makeDirectories p).2.IsTree ∧
      Fills (Reaches (p.origin t.home) p.pieces) t (t.makeDirectories p).2 := by
  unfold FileTree.makeDirectories
  split
  · exact ⟨tree, .refl _ t⟩
  · split
    · exact ⟨tree, .refl _ t⟩
    · have grown : (t.extend (p.origin t.home) p.makeable.pieces).2.IsTree ∧
          Fills (Reaches (p.origin t.home) p.makeable.pieces) t
            (t.extend (p.origin t.home) p.makeable.pieces).2 :=
        tree.extend (tree.origin p)
      cases extended : t.extend (p.origin t.home) p.makeable.pieces
      rw [extended] at grown
      exact ⟨grown.1, grown.2.mono fun k => reaches_of_steps (Path.steps_makeable p)⟩

theorem IsTree.follow (tree : t.IsTree) (here : t.get? l = some .directory)
    (h : t.follow l pieces = .ok k) :
    t.get? k = some .directory ∨ ∃ above name, k = above ++ [name] ∧
      t.get? above = some .directory := by
  induction pieces generalizing l with
  | nil =>
    cases h
    exact .inl here
  | cons piece rest ih =>
    rw [FileTree.follow, here] at h
    obtain ⟨next, hnext, h⟩ := bind_eq_ok.1 h
    rcases tree.step here hnext with directory | rfl
    · exact ih directory h
    · -- A name that is no directory can only come last.
      cases rest with
      | nil =>
        cases h
        exact .inr ⟨l, piece, rfl, here⟩
      | cons piece' rest =>
        cases entry : t.get? (l ++ [piece]) with
        | none =>
          rw [FileTree.follow, entry] at h
          cases h
        | some e =>
          cases e with
          | directory => exact ih entry h
          | file content =>
            rw [FileTree.follow, entry] at h
            cases h

theorem write_eq_some : t.write p content = some t' ↔
    ∃ l, t.locate p = .ok l ∧ t.get? l ≠ some .directory ∧ t' = t.set l (.file content) := by
  unfold write
  cases t.locate p with
  | error obstacle => simp
  | ok l =>
    simp only [Except.ok.injEq, exists_eq_left']
    cases t.get? l with
    | none => simp [eq_comm]
    | some e => cases e <;> simp [Entry.isDirectory, eq_comm]

/-- Writing a file puts it in a directory and changes nothing else. -/
theorem IsTree.write (tree : t.IsTree) (h : t.write p content = some t') :
    ∃ l, t.locate p = .ok l ∧ t.get? l ≠ some .directory ∧ t'.IsTree ∧ t'.home = t.home ∧
      t'.get? l = some (.file content) ∧ ∀ k, k ≠ l → t'.get? k = t.get? k := by
  obtain ⟨l, located, replaced, rfl⟩ := write_eq_some.1 h
  refine ⟨l, located, replaced, ?_, rfl, get?_set_self ?_, fun k ne => get?_set_of_ne ne⟩
  · rcases tree.follow (tree.origin p) (follow_of_locate located) with
      directory | ⟨above, name, rfl, parent⟩
    · exact absurd directory replaced
    · exact tree.set parent replaced
  · rintro rfl
    exact replaced rfl

/-- Of the places that the path passes through, those that are not above what it names are
directories: it enters them only to leave them again by two dots. -/
def HoldsDetours (t : FileTree) (p : Path) : Prop :=
  ∀ l k, p.location? t.home = some l → p.PassesThrough t.home k →
    IsAbove k l ∨ t.get? k = some .directory

/-- A path without double dots that ends in a name has no detours. -/
theorem holdsDetours_of_isPlain (plain : p.isPlain = true) : t.HoldsDetours p := by
  rintro l k location ⟨front, piece, rest, eq, walked⟩
  obtain ⟨noDots, name, hname, isStep⟩ := Path.isPlain_iff.1 plain
  have whole := (Path.location?_eq_some.1 location).2
  have onward : (piece :: rest).filter Path.isStep ≠ [] := by
    rw [eq, List.getLast?_append_cons] at hname
    exact List.ne_nil_of_mem (List.mem_filter.2 ⟨List.mem_of_getLast? hname, isStep⟩)
  have front_noDots : ".." ∉ front := fun mem => noDots (eq ▸ List.mem_append_left _ mem)
  rw [walk_of_noDots noDots whole, walk_of_noDots front_noDots walked, eq, List.filter_append,
    ← List.append_assoc]
  exact .inl ⟨List.prefix_append _ _, fun same => onward (List.self_eq_append_right.1 same)⟩

theorem holds_iff_exists : t.holds p = true ↔ ∃ e, t.entryAt p = .ok e := by
  unfold holds
  cases t.entryAt p <;> simp [Except.toOption]

section Readings

variable (tree : t.IsTree) (detours : t.HoldsDetours p) (followable : p.isFollowable = true)
  (location : p.location? t.home = some l)

include tree detours followable location

/-- Looking at a path is looking at the place that it names. -/
theorem entryAt_eq_ok : t.entryAt p = .ok e ↔ t.get? l = some e := by
  rw [entryAt, bind_eq_ok]
  constructor
  · rintro ⟨k, located, h⟩
    have named := (locate_eq_ok.1 located).2.1
    rw [location] at named
    cases named
    cases entry : t.get? l with
    | none =>
      rw [entry] at h
      cases h
    | some e' =>
      rw [entry] at h
      cases h
      rfl
  · intro there
    refine ⟨l, locate_eq_ok.2 ⟨followable, location, fun k passes => ?_⟩, by rw [there]⟩
    rcases detours l k location passes with above | directory
    · exact tree.directory_above above (by rw [there]; simp)
    · exact directory

theorem holds_iff : t.holds p = true ↔ t.get? l ≠ none := by
  rw [holds_iff_exists, Option.ne_none_iff_exists']
  exact exists_congr fun e => entryAt_eq_ok tree detours followable location

theorem read_eq_ok : t.read p = .ok content ↔ t.get? l = some (.file content) := by
  rw [read, bind_eq_ok]
  constructor
  · rintro ⟨e, there, h⟩
    cases e with
    | directory => cases h
    | file existing =>
      cases h
      exact (entryAt_eq_ok tree detours followable location).1 there
  · intro there
    exact ⟨.file content, (entryAt_eq_ok tree detours followable location).2 there, rfl⟩

end Readings

end FileTree

end InteropGen
