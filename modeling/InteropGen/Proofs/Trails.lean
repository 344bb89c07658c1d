import InteropGen.Disk.FileTree
import InteropGen.Proofs.Layout
import InteropGen.Proofs.Success

set_option autoImplicit false

/-!
# Where paths lead

The names of a path and the working directory fix the place that the path leads to, whatever a tree
holds; what the tree decides is whether the path can be followed, since all places on the way have to
be directories.  The parent of a path goes the same way and stops earlier.
-/

namespace InteropGen

namespace FileTree

variable {t : FileTree} {k l next : Location} {piece : String} {pieces rest : List String}

/-- The place that the pieces lead to from `l`, without a look at any tree. -/
def walk (l : Location) (pieces : List String) : Except Obstacle Location := pieces.foldlM step l

def Passes (l : Location) (pieces : List String) (k : Location) : Prop :=
  ∃ front piece rest, pieces = front ++ piece :: rest ∧ walk l front = .ok k

/-- `k` is a place that the first of the pieces, or all of them, lead to. -/
def Reaches (l : Location) (pieces : List String) (k : Location) : Prop :=
  ∃ front, front <+: pieces ∧ walk l front = .ok k

theorem walk_cons : walk l (piece :: rest) = step l piece >>= fun next => walk next rest :=
  List.foldlM_cons

theorem walk_of_blank (blank : Path.isStep piece = false) : step l piece = .ok l := by
  rw [step, blank]
  rfl

theorem walk_filter (l : Location) (pieces : List String) :
    walk l (pieces.filter Path.isStep) = walk l pieces := by
  induction pieces generalizing l with
  | nil => rfl
  | cons piece rest ih =>
    cases isStep : Path.isStep piece with
    | true =>
      rw [List.filter_cons_of_pos isStep, walk_cons, walk_cons]
      exact congrArg (step l piece >>= ·) (funext ih)
    | false =>
      rw [List.filter_cons_of_neg (by simp [isStep]), walk_cons, walk_of_blank isStep, ih]
      rfl

theorem walk_of_noDots (noDots : ".." ∉ pieces) (h : walk l pieces = .ok k) :
    k = l ++ pieces.filter Path.isStep := by
  induction pieces generalizing l with
  | nil =>
    cases h
    exact (List.append_nil _).symm
  | cons piece rest ih =>
    obtain ⟨isName, noDots⟩ := not_or.1 (mt List.mem_cons.2 noDots)
    rw [walk_cons] at h
    obtain ⟨next, hnext, h⟩ := bind_eq_ok.1 h
    rw [ih noDots h]
    cases isStep : Path.isStep piece with
    | false =>
      rw [walk_of_blank isStep] at hnext
      cases hnext
      rw [List.filter_cons_of_neg (by simp [isStep])]
    | true =>
      rw [step, isStep, if_neg (by simp), if_neg (Ne.symm isName)] at hnext
      split at hnext
      · cases hnext
      · cases hnext
        rw [List.filter_cons_of_pos isStep, List.append_assoc]
        rfl

theorem passes_cons :
    Passes l (piece :: rest) k ↔ k = l ∨ ∃ next, step l piece = .ok next ∧ Passes next rest k := by
  constructor
  · rintro ⟨front, piece', rest', eq, walked⟩
    cases front with
    | nil =>
      cases walked
      exact .inl rfl
    | cons head front =>
      obtain ⟨rfl, rfl⟩ := List.cons.inj eq
      rw [walk_cons] at walked
      obtain ⟨next, hnext, walked⟩ := bind_eq_ok.1 walked
      exact .inr ⟨next, hnext, front, piece', rest', rfl, walked⟩
  · rintro (rfl | ⟨next, hnext, front, piece', rest', rfl, walked⟩)
    · exact ⟨[], piece, rest, rfl, rfl⟩
    · refine ⟨piece :: front, piece', rest', rfl, ?_⟩
      rw [walk_cons, hnext]
      exact walked

/-- A path is followed to the place that it names when it passes through directories only. -/
theorem follow_eq_ok : t.follow l pieces = .ok k ↔
    walk l pieces = .ok k ∧ ∀ v, Passes l pieces v → t.get? v = some .directory := by
  induction pieces generalizing l with
  | nil =>
    refine (and_iff_left ?_).symm
    rintro v ⟨front, piece, rest, eq, _⟩
    simp at eq
  | cons piece rest ih =>
    rw [follow, walk_cons]
    constructor
    · intro h
      cases entry : t.get? l with
      | none =>
        rw [entry] at h
        cases h
      | some e =>
        rw [entry] at h
        cases e with
        | file content => cases h
        | directory =>
          obtain ⟨next, hnext, h⟩ := bind_eq_ok.1 h
          obtain ⟨walked, directories⟩ := ih.1 h
          refine ⟨bind_eq_ok.2 ⟨next, hnext, walked⟩, fun v passes => ?_⟩
          rcases passes_cons.1 passes with rfl | ⟨next', hnext', passes⟩
          · exact entry
          · rw [hnext] at hnext'
            cases hnext'
            exact directories v passes
    · rintro ⟨walked, directories⟩
      obtain ⟨next, hnext, walked⟩ := bind_eq_ok.1 walked
      rw [directories l (passes_cons.2 (.inl rfl))]
      refine bind_eq_ok.2 ⟨next, hnext, ih.2 ⟨walked, fun v passes => ?_⟩⟩
      exact directories v (passes_cons.2 (.inr ⟨next, hnext, passes⟩))

theorem Reaches.mono {longer : List String} (sub : pieces <+: longer) (h : Reaches l pieces k) :
    Reaches l longer k := by
  obtain ⟨front, isFront, walked⟩ := h
  exact ⟨front, isFront.trans sub, walked⟩

theorem reaches_cons (hnext : step l piece = .ok next) (h : Reaches next rest k) :
    Reaches l (piece :: rest) k := by
  obtain ⟨front, isFront, walked⟩ := h
  refine ⟨piece :: front, (List.prefix_cons_inj piece).2 isFront, ?_⟩
  rw [walk_cons, hnext]
  exact walked

theorem reaches_filter : Reaches l (pieces.filter Path.isStep) k ↔ Reaches l pieces k := by
  constructor
  · rintro ⟨kept, isFront, walked⟩
    obtain ⟨front, sub, rfl⟩ := List.prefix_filter_iff.1 isFront
    exact ⟨front, sub, (walk_filter l front).symm.trans walked⟩
  · rintro ⟨front, isFront, walked⟩
    exact ⟨_, List.prefix_filter_iff.2 ⟨front, isFront, rfl⟩, (walk_filter l front).trans walked⟩

theorem Reaches.passes_or (h : Reaches l pieces k) : Passes l pieces k ∨ walk l pieces = .ok k := by
  obtain ⟨front, ⟨rest, rfl⟩, walked⟩ := h
  cases rest with
  | nil => exact .inr (by rwa [List.append_nil])
  | cons piece rest => exact .inl ⟨front, piece, rest, rfl, walked⟩

end FileTree

namespace Path

open FileTree

variable {p q : Path} {t : FileTree} {k l home : Location}

/-- The pieces that lead on, down to a name or up by two dots. -/
def steps (p : Path) : List String := p.pieces.filter isStep

/-- The place that a path names from a working directory, whatever a tree holds.  An empty path, or
one with too long a name in it, names none. -/
def location? (home : Location) (p : Path) : Option Location :=
  if p.text.isEmpty then none else (walk (p.origin home) p.pieces).toOption

/-- The path has no double dots in it and ends in a name. -/
def isPlain (p : Path) : Bool := !p.pieces.contains ".." && p.pieces.getLast?.any isStep

theorem isPlain_iff : p.isPlain = true ↔
    ".." ∉ p.pieces ∧ ∃ name, p.pieces.getLast? = some name ∧ isStep name = true := by
  simp [isPlain, Option.any_eq_true]

/-- Following the path from a working directory leads through `k` and on. -/
def PassesThrough (home : Location) (p : Path) (k : Location) : Prop :=
  Passes (p.origin home) p.pieces k

theorem location?_eq_some :
    p.location? home = some l ↔ p.text.isEmpty = false ∧ walk (p.origin home) p.pieces = .ok l := by
  unfold location?
  split
  · rename_i empty
    refine iff_of_false (by simp) fun h => ?_
    rw [empty] at h
    cases h.1
  · rename_i there
    rw [and_iff_right (eq_false_of_ne_true there)]
    cases walk (p.origin home) p.pieces <;> simp [Except.toOption]

section Parents

def stepsOf (cs : List Char) : List String :=
  ((Text.pieces '/' cs).map String.ofList).filter isStep

theorem stepsOf_append (xs ys : List Char) :
    stepsOf (xs ++ '/' :: ys) = stepsOf xs ++ stepsOf ys := by
  rw [stepsOf, Text.pieces_append_sep, List.map_append, List.filter_append]
  rfl

theorem stepsOf_slash (cs : List Char) : stepsOf (cs ++ ['/']) = stepsOf cs := by
  rw [stepsOf_append, show stepsOf [] = [] by decide, List.append_nil]

theorem stepsOf_dot (cs : List Char) : stepsOf (cs ++ ['/', '.']) = stepsOf cs := by
  rw [stepsOf_append, show stepsOf ['.'] = [] by decide, List.append_nil]

/-- What is stripped from the end of a path leads nowhere. -/
theorem stepsOf_trimEnd (cs : List Char) : stepsOf (trimEnd cs).reverse = stepsOf cs.reverse := by
  induction cs using trimEnd.induct with
  | case1 rest ih =>
    rw [trimEnd, ih, List.reverse_cons, stepsOf_slash, List.reverse_cons, List.reverse_cons,
      List.append_assoc]
    exact (stepsOf_dot _).symm
  | case2 c rest ih =>
    rw [trimEnd, ih, List.reverse_cons (a := '/')]
    exact (stepsOf_slash _).symm
  | case3 cs noDot noSlash => rw [trimEnd.eq_3 cs noDot noSlash]

theorem stepsOf_dropName (cs : List Char) :
    stepsOf (cs.dropWhile (· != '/')).reverse <+: stepsOf cs.reverse := by
  have whole := List.takeWhile_append_dropWhile (p := (· != '/')) (l := cs)
  cases rest : cs.dropWhile (· != '/') with
  | nil =>
    rw [List.reverse_nil, show stepsOf [] = [] by decide]
    exact List.nil_prefix
  | cons c rest' =>
    have slash : c = '/' := by
      have stopped := List.head?_dropWhile_not (· != '/') cs
      rw [rest] at stopped
      simpa using stopped
    subst slash
    -- The dropped name stands behind the slash that has stopped the search.
    rw [rest] at whole
    rw [← whole, List.reverse_append, List.reverse_cons, stepsOf_slash, List.append_assoc,
      List.singleton_append, stepsOf_append]
    exact List.prefix_append _ _

theorem steps_ofList (cs : List Char) : (Path.mk (String.ofList cs)).steps = stepsOf cs := by
  rw [steps, pieces, chars, String.toList_ofList]
  rfl

def locationOf (home : Location) (cs : List Char) : Option Location :=
  if cs.isEmpty then none
  else (walk (if cs.head? = some '/' then [] else home)
    ((Text.pieces '/' cs).map String.ofList)).toOption

theorem location?_ofList (home : Location) (cs : List Char) :
    (Path.mk (String.ofList cs)).location? home = locationOf home cs := by
  have empty : (String.ofList cs).isEmpty = cs.isEmpty := by cases cs <;> simp
  rw [location?, origin, isAbsolute, pieces, chars, String.toList_ofList, empty, locationOf]
  simp only [decide_eq_true_eq]

theorem isPlain_ofList (cs : List Char) :
    (Path.mk (String.ofList cs)).isPlain =
      (!((Text.pieces '/' cs).map String.ofList).contains ".." &&
        ((Text.pieces '/' cs).map String.ofList).getLast?.any isStep) := by
  rw [isPlain, pieces, chars, String.toList_ofList]

theorem steps_parent? (h : p.parent? = some q) : q.steps <+: p.steps := by
  have trimmed := stepsOf_trimEnd p.chars.reverse
  rw [List.reverse_reverse] at trimmed
  unfold parent? at h
  split at h
  · cases h
  · cases h
  · cases h
    have dropped := stepsOf_dropName (trimEnd p.chars.reverse)
    rw [trimmed] at dropped
    rw [steps_ofList, stepsOf_trimEnd]
    exact dropped

theorem getLast?_trimEnd (cs : List Char) : (trimEnd cs).getLast? = cs.getLast? := by
  induction cs using trimEnd.induct with
  | case1 rest ih => rw [trimEnd, ih, List.getLast?_cons_cons]
  | case2 c rest ih => rw [trimEnd, ih, List.getLast?_cons_cons]
  | case3 cs noDot noSlash => rw [trimEnd.eq_3 cs noDot noSlash]

theorem getLast?_dropName (cs : List Char) :
    (cs.dropWhile (· != '/')).getLast? = some '/' ↔ cs.getLast? = some '/' := by
  have whole := List.takeWhile_append_dropWhile (p := (· != '/')) (l := cs)
  by_cases none : cs.dropWhile (· != '/') = []
  · rw [none, List.append_nil] at whole
    rw [none]
    refine iff_of_false (by simp) fun last => ?_
    have names : (cs.takeWhile (· != '/')).all (· != '/') = true := List.all_takeWhile
    rw [whole] at names
    simpa using List.all_eq_true.1 names '/' (List.mem_of_getLast? last)
  · rw [← List.getLast?_append_of_ne_nil (List.takeWhile (· != '/') cs) none, whole]

theorem origin_parent? (h : p.parent? = some q) : q.origin home = p.origin home := by
  have absolute : q.isAbsolute = p.isAbsolute := by
    unfold parent? at h
    split at h
    · cases h
    · cases h
    · cases h
      refine decide_eq_decide.2 ?_
      rw [chars, String.toList_ofList, List.head?_reverse, getLast?_trimEnd, getLast?_dropName,
        getLast?_trimEnd, List.getLast?_reverse]
  rw [origin, origin, absolute]

theorem steps_makeable (p : Path) : p.makeable.steps <+: p.steps := by
  unfold makeable
  split
  · cases parent : p.parent? with
    | none => exact List.nil_prefix
    | some q => exact steps_parent? parent
  · exact List.prefix_refl _

end Parents

end Path

namespace FileTree

variable {t : FileTree} {p : Path} {l : Location}

theorem locate_eq_ok : t.locate p = .ok l ↔
    p.isFollowable = true ∧ p.location? t.home = some l ∧
      ∀ v, p.PassesThrough t.home v → t.get? v = some .directory := by
  unfold locate
  rw [Path.location?_eq_some]
  cases followable : p.isFollowable with
  | false => simp
  | true =>
    rw [if_neg (by simp)]
    split
    · rename_i empty
      simp [empty]
    · rename_i there
      rw [follow_eq_ok, and_iff_right rfl, and_assoc,
        and_iff_right (eq_false_of_ne_true there)]
      rfl

theorem follow_of_locate (h : t.locate p = .ok l) :
    t.follow (p.origin t.home) p.pieces = .ok l := by
  unfold locate at h
  split at h
  · cases h
  · split at h
    · cases h
    · exact h

end FileTree

end InteropGen
