import InteropGen.Proofs.DeclaredSymbols
import InteropGen.Proofs.RunEffect
import InteropGen.Proofs.ValueTypes
import InteropGen.Proofs.WrapperBody

set_option autoImplicit false

/-!
# Where planned files go

Every planned file has a role, which fixes its directory and its name.  The names of classes are
identifiers, so two roles lead to one place only if a class takes a name that the generator uses
itself: the name of the file of value types, that of the managed base class, or that of the unit of
compilation, which meets a scaffold.
-/

namespace InteropGen

open Text FileTree

namespace Path

variable {p q : Path} {name a b : String} {k l home : Location}

/-- A name that leads on from a directory to a place in it. -/
structure IsEntryName (name : String) : Prop where
  noSlash : '/' ∉ name.toList
  isStep : isStep name = true
  notUp : name ≠ ".."

def namesOf : List String → List String
  | [] => []
  | first :: rest => (if first = "" then [] else [first]) ++ rest.filter isStep

theorem names_eq (p : Path) : p.names = namesOf p.pieces := rfl

theorem namesOf_append {ps qs : List String} (ne : ps ≠ []) :
    namesOf (ps ++ qs) = namesOf ps ++ qs.filter isStep := by
  cases ps with
  | nil => exact absurd rfl ne
  | cons first rest =>
    rw [List.cons_append, namesOf, namesOf, List.filter_append, List.append_assoc]

theorem pieces_ofChars {cs : List Char} (h : p.chars = cs) :
    p.pieces = (Text.pieces '/' cs).map String.ofList := by rw [pieces, h]

theorem chars_child (h : IsEntryName name) :
    p.text = "" ∧ p.child name = ⟨name⟩ ∨
      ∃ front, (p.chars = front ∨ p.chars = front ++ ['/']) ∧ p.text ≠ "" ∧
        (p.child name).chars = front ++ '/' :: name.toList := by
  have relative : (Path.mk name).isAbsolute = false := by
    refine decide_eq_false fun slash => h.noSlash ?_
    exact List.mem_of_mem_head? slash
  rw [child, join, relative, if_neg (by simp)]
  by_cases empty : p.text = ""
  · left
    simp [empty]
  · right
    have isEmpty : p.text.isEmpty = false := by simpa using empty
    by_cases last : p.chars.getLast? = some '/'
    · obtain ⟨front, eq⟩ := List.getLast?_eq_some_iff.1 last
      refine ⟨front, .inr eq, empty, ?_⟩
      rw [if_pos (by simp [last]), chars, String.toList_append]
      change p.chars ++ name.toList = _
      rw [eq, List.append_assoc]
      rfl
    · refine ⟨p.chars, .inl rfl, empty, ?_⟩
      rw [if_neg (by simp [isEmpty, last]), chars, String.toList_append, String.toList_append,
        List.append_assoc]
      rfl

theorem exists_front_child (p : Path) (name : String) :
    ∃ front, (p.child name).chars = front ++ name.toList ∧ ∀ last ∈ front.getLast?, last = '/' := by
  rw [child, join]
  split
  · exact ⟨[], rfl, by simp⟩
  split
  · rename_i ends
    rw [Bool.or_eq_true, String.isEmpty_iff, decide_eq_true_eq] at ends
    refine ⟨p.chars, by rw [chars, String.toList_append]; rfl, fun last hlast => ?_⟩
    rcases ends with empty | slash
    · rw [chars, empty] at hlast
      cases hlast
    · exact Option.some.inj (hlast.symm.trans slash)
  · refine ⟨p.chars ++ ['/'], ?_, by simp⟩
    rw [chars, String.toList_append, String.toList_append]
    rfl

theorem suffix_child (p : Path) (name : String) : name.toList <:+ (p.child name).chars := by
  obtain ⟨front, eq, _⟩ := exists_front_child p name
  exact ⟨front, eq.symm⟩

/-- Without a slash, the path ends so only if the name does. -/
theorem suffix_of_suffix_child {cs : List Char} (noSlash : '/' ∉ cs)
    (h : cs <:+ (p.child name).chars) : cs <:+ name.toList := by
  obtain ⟨front, eq, slash⟩ := exists_front_child p name
  rw [eq] at h
  rcases List.suffix_or_suffix_of_suffix h (List.suffix_append front name.toList) with
    inside | ⟨rest, rfl⟩
  · exact inside
  · obtain ⟨before, eq⟩ := h
    rw [← List.append_assoc, List.append_cancel_right_eq] at eq
    cases last : rest.getLast? with
    | none =>
      rw [List.getLast?_eq_none_iff.1 last]
      exact List.suffix_refl _
    | some d =>
      have inFront : d ∈ front.getLast? := by
        rw [← eq, List.getLast?_append, last]
        rfl
      rw [slash d inFront] at last
      exact absurd (List.mem_append_left _ (List.mem_of_getLast? last)) noSlash

theorem pieces_name (h : IsEntryName name) :
    (Text.pieces '/' name.toList).map String.ofList = [name] := by
  rw [pieces_of_not_mem h.noSlash, List.map_singleton, String.ofList_toList]

theorem names_child (h : IsEntryName name) : (p.child name).names = p.names ++ [name] := by
  have filtered : [name].filter isStep = [name] := by simp [h.isStep]
  rcases chars_child (p := p) h with ⟨empty, eq⟩ | ⟨front, isFront, _, eq⟩
  · have ne : name ≠ "" := by
      rintro rfl
      exact absurd h.isStep (by decide)
    have none : p.names = [] := by
      rw [names, pieces, chars, empty]
      rfl
    rw [eq, none, names_eq, pieces_ofChars rfl]
    change namesOf ((Text.pieces '/' name.toList).map String.ofList) = _
    rw [pieces_name h, namesOf, if_neg ne]
    rfl
  · have some : (Text.pieces '/' front).map String.ofList ≠ [] := by
      simpa using pieces_ne_nil '/' front
    rw [names_eq, pieces_ofChars eq, pieces_append_sep, List.map_append, pieces_name h,
      namesOf_append some, filtered, names_eq]
    rcases isFront with same | slash
    · rw [pieces_ofChars same]
    · rw [pieces_ofChars slash, pieces_append_sep, List.map_append, namesOf_append some]
      exact congrArg (· ++ [name]) (List.append_nil _).symm

theorem steps_child (h : IsEntryName name) : (p.child name).steps = p.steps ++ [name] := by
  have own : stepsOf name.toList = [name] := by
    rw [stepsOf, pieces_name h, List.filter_cons_of_pos h.isStep]
    rfl
  rcases chars_child (p := p) h with ⟨empty, eq⟩ | ⟨front, isFront, _, eq⟩
  · have none : p.steps = [] := by
      rw [steps, pieces, chars, empty]
      rfl
    rw [eq, none]
    exact own
  · change stepsOf (p.child name).chars = stepsOf p.chars ++ [name]
    rw [eq, stepsOf_append, own]
    rcases isFront with same | slash
    · rw [same]
    · rw [slash, stepsOf_slash]

theorem isAbsolute_child (h : IsEntryName name) : (p.child name).isAbsolute = p.isAbsolute := by
  refine decide_eq_decide.2 ?_
  rcases chars_child (p := p) h with ⟨empty, eq⟩ | ⟨front, isFront, ne, eq⟩
  · have none : p.chars = [] := by
      rw [chars, empty]
      rfl
    rw [eq, none]
    refine ⟨fun slash => absurd (List.mem_of_mem_head? slash) h.noSlash, fun slash => ?_⟩
    cases slash
  · rw [eq]
    cases front with
    | nil =>
      rcases isFront with none | slash
      · have empty : p.text.toList = "".toList := none
        exact absurd (String.toList_inj.1 empty) ne
      · rw [slash]
        rfl
    | cons first rest =>
      rcases isFront with same | slash
      · rw [same]
        rfl
      · rw [slash]
        rfl

theorem origin_child (h : IsEntryName name) : (p.child name).origin home = p.origin home := by
  rw [origin, origin, isAbsolute_child h]

/-- An entry is one step below its directory. -/
theorem walk_child (h : IsEntryName name)
    (walked : walk ((p.child name).origin home) (p.child name).steps = .ok l) :
    ∃ k, walk (p.origin home) p.steps = .ok k ∧ l = k ++ [name] := by
  rw [origin_child h, steps_child h, walk, List.foldlM_append] at walked
  obtain ⟨k, before, last⟩ := bind_eq_ok.1 walked
  rw [List.foldlM_cons] at last
  obtain ⟨l', stepped, last⟩ := bind_eq_ok.1 last
  cases last
  rw [FileTree.step, h.isStep, if_neg (by simp), if_neg h.notUp] at stepped
  split at stepped
  · cases stepped
  · exact ⟨k, before, (Except.ok.inj stepped).symm⟩

theorem walk_of_location? (location : p.location? home = some l) :
    walk (p.origin home) p.steps = .ok l :=
  (walk_filter _ p.pieces).trans (location?_eq_some.1 location).2

/-- The paths are the same, or lead to the same place from a working directory. -/
def Meets (home : Location) (p q : Path) : Prop :=
  p.same q = true ∨ ∃ l, p.location? home = some l ∧ q.location? home = some l

theorem same_iff : p.same q = true ↔ p.isAbsolute = q.isAbsolute ∧ p.names = q.names := by
  simp [same]

theorem meets_refl (home : Location) (p : Path) : p.Meets home p := .inl (same_iff.2 ⟨rfl, rfl⟩)

def Coincides (home : Location) (p q : Path) : Prop :=
  p.names = q.names ∨ ∃ k, walk (p.origin home) p.steps = .ok k ∧ walk (q.origin home) q.steps = .ok k

theorem Meets.of_child (ha : IsEntryName a) (hb : IsEntryName b)
    (h : (p.child a).Meets home (q.child b)) : a = b ∧ p.Coincides home q := by
  rcases h with same | ⟨l, hp, hq⟩
  · have names := (same_iff.1 same).2
    rw [names_child ha, names_child hb] at names
    obtain ⟨dir, entry⟩ := List.append_inj' names rfl
    exact ⟨List.singleton_inj.1 entry, .inl dir⟩
  · obtain ⟨k, walked, rfl⟩ := walk_child ha (walk_of_location? hp)
    obtain ⟨k', walked', eq⟩ := walk_child hb (walk_of_location? hq)
    obtain ⟨rfl, entry⟩ := List.append_inj' eq rfl
    exact ⟨List.singleton_inj.1 entry, .inr ⟨k, walked, walked'⟩⟩

theorem Coincides.symm (h : p.Coincides home q) : q.Coincides home p :=
  h.imp Eq.symm fun ⟨k, hp, hq⟩ => ⟨k, hq, hp⟩

theorem not_coincides_child (h : IsEntryName name) : ¬ p.Coincides home (p.child name) := by
  rintro (names | ⟨k, walked, entry⟩)
  · rw [names_child h] at names
    simp at names
  · obtain ⟨k', walked', below⟩ := walk_child h entry
    rw [walked] at walked'
    cases walked'
    simp at below

end Path

inductive Folder where
  | managed
  | native
  /-- The generated part of the native code. -/
  | api
  deriving DecidableEq, Repr

def Folder.path (c : Config) : Folder → Path
  | managed => c.managed.dir
  | native => c.native.dir
  | api => c.apiDir

/-- What a planned file is there for. -/
inductive FileRole where
  | support
  | types
  | managedTypes
  | objectBase
  | aggregate
  | shim (type : String)
  | fragment (type : String)
  | wrapper (type : String)
  | header (type : String)
  | source (type : String)
  deriving DecidableEq, Repr

namespace FileRole

variable {c : Config} {r r' : FileRole} {names : List String} {name : String} {home : Location}

def folder : FileRole → Folder
  | managedTypes | objectBase | wrapper _ => .managed
  | support | types | shim _ | fragment _ => .api
  | aggregate | header _ | source _ => .native

/-- The name of the file up to its first dot. -/
def stem (c : Config) : FileRole → String
  | support => "ApiSupport"
  | types => "ApiTypes"
  | managedTypes => "NativeTypes"
  | objectBase => c.managed.objectClass
  | aggregate => "Api"
  | shim type | fragment type | wrapper type | header type | source type => type

def ending : FileRole → String
  | support | types | header _ => ".h"
  | managedTypes | objectBase | wrapper _ => ".cs"
  | aggregate | source _ => ".cpp"
  | shim _ => ".Api.h"
  | fragment _ => ".inc"

def kind : FileRole → FileKind
  | header _ | source _ => .scaffold
  | _ => .generated

def fileName (c : Config) (r : FileRole) : String := r.stem c ++ r.ending

def path (c : Config) (r : FileRole) : Path := (r.folder.path c).child (r.fileName c)

def ofClass (name : String) : List FileRole :=
  [.shim name, .fragment name, .wrapper name, .header name, .source name]

def ofClasses (names : List String) : List FileRole :=
  [.support, .types, .managedTypes, .objectBase] ++ names.flatMap ofClass ++ [.aggregate]

theorem map_files (c : Config) (a : Artifacts) :
    (a.files c).map (fun f => (f.path, f.kind)) =
      (ofClasses (a.classes.map fun k => k.type.name)).map fun r => (r.path c, r.kind) := by
  have classes (as : List ClassArtifacts) :
      (as.flatMap (ClassArtifacts.files c a.schema)).map (fun f => (f.path, f.kind)) =
        ((as.map fun k => k.type.name).flatMap ofClass).map fun r => (r.path c, r.kind) := by
    induction as with
    | nil => rfl
    | cons k ks ih =>
      rw [List.flatMap_cons, List.map_append, ih, List.map_cons, List.flatMap_cons,
        List.map_append]
      rfl
  simp only [Artifacts.files, ofClasses, List.map_append, classes]
  simp [TypeArtifacts.files, Config.generated, path, folder, Folder.path, fileName, stem, ending,
    kind]

theorem exists_ending (r : FileRole) : ∃ rest, r.ending.toList = '.' :: rest ∧ '/' ∉ rest := by
  cases r <;> simp [ending]

section Names

variable (named : isName (r.stem c).toList = true) (named' : isName (r'.stem c).toList = true)

include named in
theorem isEntryName_fileName : Path.IsEntryName (r.fileName c) := by
  obtain ⟨rest, dot, noSlash⟩ := exists_ending r
  have chars : (r.fileName c).toList = (r.stem c).toList ++ '.' :: rest := by
    rw [fileName, String.toList_append, dot]
  cases stem : (r.stem c).toList with
  | nil =>
    rw [stem] at named
    cases named
  | cons first tail =>
    have noDot : first ≠ '.' := by
      rintro rfl
      exact not_mem_of_isName named (by decide) (stem ▸ List.mem_cons_self)
    rw [stem] at chars
    have ne (other : String) (starts : other.toList.head?.all (· = '.') = true) :
        r.fileName c ≠ other := by
      rintro rfl
      rw [chars, List.cons_append, List.head?_cons, Option.all_some] at starts
      exact noDot (of_decide_eq_true starts)
    refine ⟨fun mem => ?_, ?_, ne _ (by decide)⟩
    · rw [chars, ← stem, List.mem_append, List.mem_cons] at mem
      rcases mem with mem | eq | mem
      · exact not_mem_of_isName named (by decide) mem
      · cases eq
      · exact noSlash mem
    · simp [Path.isStep, ne "" (by decide), ne "." (by decide)]

include named named' in
/-- The stem of a file ends at the first dot. -/
theorem stem_ending_inj (same : r.fileName c = r'.fileName c) :
    r.stem c = r'.stem c ∧ r.ending = r'.ending := by
  obtain ⟨_, dot, _⟩ := exists_ending r
  obtain ⟨_, dot', _⟩ := exists_ending r'
  have noDot := not_mem_of_isName (d := '.') named (by decide)
  have noDot' := not_mem_of_isName (d := '.') named' (by decide)
  have chars := congrArg String.toList same
  rw [fileName, fileName, String.toList_append, String.toList_append, dot, dot'] at chars
  have stems := congrArg (List.takeWhile (· ≠ '.')) chars
  have endings := congrArg (List.dropWhile (· ≠ '.')) chars
  rw [takeWhile_ne_append noDot, takeWhile_ne_append noDot'] at stems
  rw [dropWhile_ne_append noDot, dropWhile_ne_append noDot', ← dot, ← dot'] at endings
  exact ⟨String.toList_inj.1 stems, String.toList_inj.1 endings⟩

/-- Apart from native headers, the ending tells the directory. -/
theorem folder_of_ending (same : r.ending = r'.ending) :
    r.folder = r'.folder ∨ (r.folder = .api ∧ r'.folder = .native) ∨
      r.folder = .native ∧ r'.folder = .api := by
  cases r <;> cases r' <;> simp_all [ending, folder]

theorem not_coincides_api (c : Config) :
    ¬ (Folder.native.path c).Coincides home (Folder.api.path c) :=
  Path.not_coincides_child ⟨by decide, by decide, by decide⟩

theorem folder_eq_of_coincides (same : r.ending = r'.ending)
    (h : (r.folder.path c).Coincides home (r'.folder.path c)) : r.folder = r'.folder := by
  rcases folder_of_ending same with eq | ⟨api, native⟩ | ⟨native, api⟩
  · exact eq
  · rw [api, native] at h
    exact absurd h.symm (not_coincides_api c)
  · rw [native, api] at h
    exact absurd h (not_coincides_api c)

/-- What tells a file from others. -/
def key (c : Config) (r : FileRole) : Folder × String × String := (r.folder, r.stem c, r.ending)

theorem path_of_key (same : r.key c = r'.key c) : r.path c = r'.path c := by
  simp only [key, Prod.mk.injEq] at same
  obtain ⟨folders, stems, endings⟩ := same
  rw [path, path, fileName, fileName, folders, stems, endings]

include named named' in
theorem meets_iff : (r.path c).Meets home (r'.path c) ↔ r.key c = r'.key c := by
  constructor
  · intro meets
    obtain ⟨entry, coincides⟩ :=
      meets.of_child (isEntryName_fileName named) (isEntryName_fileName named')
    obtain ⟨stems, endings⟩ := stem_ending_inj named named' entry
    rw [key, key, folder_eq_of_coincides endings coincides, stems, endings]
  · intro same
    rw [path_of_key same]
    exact Path.meets_refl home _

end Names

def classOf? : FileRole → Option String
  | shim type | fragment type | wrapper type | header type | source type => some type
  | _ => none

theorem mem_ofClasses : r ∈ ofClasses names ↔ ∀ name ∈ r.classOf?, name ∈ names := by
  cases r <;> simp [ofClasses, ofClass, classOf?]

theorem nodup_ofClasses (unique : names.Nodup) : (ofClasses names).Nodup := by
  have classes : (names.flatMap ofClass).Nodup := by
    refine List.nodup_flatMap.2 ⟨fun name _ => by simp [ofClass], unique.imp fun ne => ?_⟩
    simp [Function.onFun, ofClass, Ne.symm ne]
  have owned : ∀ r ∈ names.flatMap ofClass, r.classOf? ≠ none := by
    intro r mem
    obtain ⟨name, _, mem⟩ := List.mem_flatMap.1 mem
    simp only [ofClass, List.mem_cons, List.not_mem_nil, or_false] at mem
    rcases mem with rfl | rfl | rfl | rfl | rfl <;> simp [classOf?]
  have own : ∀ r ∈ [support, types, managedTypes, objectBase],
      r.classOf? = none ∧ r ≠ aggregate := by decide
  refine List.nodup_append.2 ⟨List.nodup_append.2 ⟨by decide, classes, ?_⟩,
    List.nodup_singleton _, ?_⟩
  · rintro r mem _ mem' rfl
    exact owned r mem' (own r mem).1
  · rintro r mem _ mem' rfl
    rw [List.mem_singleton.1 mem'] at mem
    rcases List.mem_append.1 mem with mem | mem
    · exact (own _ mem).2 rfl
    · exact owned _ mem rfl

theorem stem_of_classOf? (h : r.classOf? = some name) : r.stem c = name := by
  cases r <;> simp_all [classOf?, stem]

theorem isName_stem (object : isName c.managed.objectClass.toList = true)
    (named : ∀ name ∈ names, isName name.toList = true) (h : r ∈ ofClasses names) :
    isName (r.stem c).toList = true := by
  have own : ∀ text ∈ ["ApiSupport", "ApiTypes", "NativeTypes", "Api"],
      isName text.toList = true := by decide
  cases class? : r.classOf? with
  | some name =>
    rw [stem_of_classOf? class?]
    exact named name (mem_ofClasses.1 h name class?)
  | none =>
    cases r with
    | objectBase => exact object
    | support | types | managedTypes | aggregate => exact own _ (by simp [stem])
    | _ => cases class?

inductive Clash (c : Config) : FileRole → FileRole → Prop
  | base : c.managed.objectClass = "NativeTypes" → Clash c managedTypes objectBase
  | values : Clash c managedTypes (wrapper "NativeTypes")
  | object : Clash c objectBase (wrapper c.managed.objectClass)
  | aggregate : Clash c aggregate (source "Api")

theorem Clash.key_eq (h : Clash c r r') : r.key c = r'.key c := by
  cases h with
  | base eq => simp [key, folder, stem, ending, eq]
  | values | object | aggregate => rfl

theorem key_eq_iff : r.key c = r'.key c ↔ r = r' ∨ Clash c r r' ∨ Clash c r' r := by
  constructor
  · intro same
    cases r <;> cases r' <;> simp [key, folder, stem, ending] at same
    all_goals first
      | exact .inl rfl
      | exact .inl (congrArg _ same)
      | exact .inr (.inl (.base same.symm))
      | exact .inr (.inr (.base same))
      | subst same; exact .inr (.inl (by constructor))
      | subst same; exact .inr (.inr (by constructor))
  · rintro (rfl | clash | clash)
    · rfl
    · exact clash.key_eq
    · exact clash.key_eq.symm

end FileRole

/-- No class takes a name that the generator uses for a file of its own. -/
structure Config.AvoidsOwnNames (c : Config) (names : List String) : Prop where
  base : c.managed.objectClass ≠ "NativeTypes"
  values : "NativeTypes" ∉ names
  object : c.managed.objectClass ∉ names
  aggregate : "Api" ∉ names

namespace FileRole

variable {c : Config} {r r' : FileRole} {names : List String}

theorem avoidsOwnNames_iff : c.AvoidsOwnNames names ↔
    ∀ r ∈ ofClasses names, ∀ r' ∈ ofClasses names, ¬ Clash c r r' := by
  constructor
  · rintro avoids r mem r' mem' (base | _ | _ | _)
    · exact avoids.base base
    · exact avoids.values (mem_ofClasses.1 mem' _ rfl)
    · exact avoids.object (mem_ofClasses.1 mem' _ rfl)
    · exact avoids.aggregate (mem_ofClasses.1 mem' _ rfl)
  · intro never
    have fixed {r : FileRole} (h : r.classOf? = none) : r ∈ ofClasses names :=
      mem_ofClasses.2 (by simp [h])
    have owned {r : FileRole} {name : String} (h : r.classOf? = some name) (mem : name ∈ names) :
        r ∈ ofClasses names := mem_ofClasses.2 (by simp [h, mem])
    exact
      { base := fun eq => never _ (fixed rfl) _ (fixed rfl) (.base eq)
        values := fun mem => never _ (fixed rfl) _ (owned rfl mem) .values
        object := fun mem => never _ (fixed rfl) _ (owned rfl mem) .object
        aggregate := fun mem => never _ (fixed rfl) _ (owned rfl mem) .aggregate }

theorem nodup_keys_iff (unique : names.Nodup) :
    ((ofClasses names).map (key c)).Nodup ↔ c.AvoidsOwnNames names := by
  rw [List.nodup_map_iff_inj_on (nodup_ofClasses unique), avoidsOwnNames_iff]
  constructor
  · intro inj r mem r' mem' clash
    cases inj r mem r' mem' clash.key_eq
    cases clash
  · intro never r mem r' mem' same
    rcases key_eq_iff.1 same with eq | clash | clash
    · exact eq
    · exact absurd clash (never r mem r' mem')
    · exact absurd clash (never r' mem' r mem)

/-- A scaffold shares its file with a generated one only as the source of a class that is named
like the unit of compilation. -/
theorem scaffold_shares_iff :
    (∃ r ∈ ofClasses names, ∃ r' ∈ ofClasses names,
      r.kind = .scaffold ∧ r'.kind = .generated ∧ r.key c = r'.key c) ↔ "Api" ∈ names := by
  constructor
  · rintro ⟨r, mem, r', _, scaffold, generated, same⟩
    rcases key_eq_iff.1 same with rfl | clash | clash
    · rw [scaffold] at generated
      cases generated
    · cases clash <;> cases scaffold
    · cases clash with
      | aggregate => exact mem_ofClasses.1 mem _ rfl
      | base | values | object => cases scaffold
  · intro mem
    exact ⟨source "Api", mem_ofClasses.2 (by simp [classOf?, mem]), aggregate,
      mem_ofClasses.2 (by simp [classOf?]), rfl, rfl, rfl⟩

end FileRole

namespace Plan

variable {c : Config} {s : Schema} {files : List PlannedFile}

/-- A plan has the files of the classes of the schema. -/
theorem roles_of_build (h : build c s = .ok files) :
    files.map (fun f => (f.path, f.kind)) =
      (FileRole.ofClasses (s.classes.map ApiType.name)).map fun r => (r.path c, r.kind) := by
  obtain ⟨artifacts, hartifacts, rfl⟩ := map_eq_ok.1 h
  obtain ⟨types, _, hartifacts⟩ := bind_eq_ok.1 hartifacts
  obtain ⟨classes, hclasses, hartifacts⟩ := bind_eq_ok.1 hartifacts
  cases hartifacts
  have names : s.classes.map ApiType.name = classes.map fun k => k.type.name :=
    forall₂_map_eq ((ClassArtifacts.buildAll_stepwise s).forall₂ hclasses) fun t k built => by
      obtain ⟨_, _, parts⟩ := ClassArtifacts.parts_of_build built
      rw [parts.type_eq]
  rw [FileRole.map_files, names]

theorem exists_pair_iff {roles : List FileRole} {R : Path × FileKind → Path × FileKind → Prop}
    (h : files.map (fun f => (f.path, f.kind)) = roles.map fun r => (r.path c, r.kind)) :
    (∃ f ∈ files, ∃ g ∈ files, R (f.path, f.kind) (g.path, g.kind)) ↔
      ∃ r ∈ roles, ∃ r' ∈ roles, R (r.path c, r.kind) (r'.path c, r'.kind) := by
  have files_iff : (∃ f ∈ files, ∃ g ∈ files, R (f.path, f.kind) (g.path, g.kind)) ↔
      ∃ x ∈ files.map (fun f => (f.path, f.kind)), ∃ y ∈ files.map (fun f => (f.path, f.kind)),
        R x y := by simp
  have roles_iff : (∃ r ∈ roles, ∃ r' ∈ roles, R (r.path c, r.kind) (r'.path c, r'.kind)) ↔
      ∃ x ∈ roles.map (fun r => (r.path c, r.kind)), ∃ y ∈ roles.map (fun r => (r.path c, r.kind)),
        R x y := by simp
  rw [files_iff, h, ← roles_iff]

/-- The files of a plan go to places of their own just as long as no class takes a name that the
generator uses itself; a scaffold goes where a generated file goes just if a class is named like
the unit of compilation. -/
theorem paths_nodup_iff (config : c.validate = .ok ()) (valid : s.validate = .ok ())
    (identifiers : ∀ t ∈ s.types, isIdentifier t.name.toList = true)
    (plan : build c s = .ok files) :
    ((files.map PlannedFile.path).Nodup ↔
      c.AvoidsOwnNames (s.classes.map ApiType.name)) ∧
    ∀ home, ((files.map PlannedFile.path).Pairwise (fun p q => ¬ p.Meets home q) ↔
      c.AvoidsOwnNames (s.classes.map ApiType.name)) ∧
    ((∃ f ∈ files, ∃ g ∈ files, f.kind = .scaffold ∧ g.kind = .generated ∧
        f.path.Meets home g.path) ↔
      "Api" ∈ s.classes.map ApiType.name) := by
  have roles := roles_of_build plan
  have unique := s.nodup_classNames_of_validate valid
  have named (r : FileRole) (mem : r ∈ FileRole.ofClasses (s.classes.map ApiType.name)) :
      isName (r.stem c).toList = true := by
    refine FileRole.isName_stem (Config.isName_of_validate config).2 (fun name hname => ?_) mem
    obtain ⟨t, ht, rfl⟩ := List.mem_map.1 hname
    exact isName_of_isIdentifier (identifiers t (Schema.mem_classes.1 ht).1)
  have meets (home : Location) {r r' : FileRole}
      (mem : r ∈ FileRole.ofClasses (s.classes.map ApiType.name))
      (mem' : r' ∈ FileRole.ofClasses (s.classes.map ApiType.name)) :
      (r.path c).Meets home (r'.path c) ↔ r.key c = r'.key c :=
    FileRole.meets_iff (named r mem) (named r' mem')
  have paths : files.map PlannedFile.path =
      (FileRole.ofClasses (s.classes.map ApiType.name)).map (FileRole.path c) := by
    have first := congrArg (List.map Prod.fst) roles
    rwa [List.map_map, List.map_map] at first
  rw [paths, List.Nodup, List.pairwise_map, ← FileRole.nodup_keys_iff unique, List.Nodup,
    List.pairwise_map]
  refine ⟨List.Pairwise.iff_of_mem fun mem mem' => not_congr ⟨fun same => ?_, ?_⟩,
    fun home => ⟨?_, ?_⟩⟩
  · exact (meets [] mem mem').1 (same ▸ Path.meets_refl [] _)
  · exact FileRole.path_of_key
  · rw [List.pairwise_map]
    exact List.Pairwise.iff_of_mem fun mem mem' => not_congr (meets home mem mem')
  · rw [← FileRole.scaffold_shares_iff (c := c), exists_pair_iff
      (R := fun x y => x.2 = .scaffold ∧ y.2 = .generated ∧ x.1.Meets home y.1) roles]
    refine exists_congr fun r => and_congr_right fun mem => ?_
    refine exists_congr fun r' => and_congr_right fun mem' => ?_
    exact and_congr_right' (and_congr_right' (meets home mem mem'))

/-- No two files of this plan share a place. -/
theorem paths_nodup_drawing :
    Config.validate {} = .ok () ∧ Schema.drawing.validate = .ok () ∧
      (∀ t ∈ Schema.drawing.types, isIdentifier t.name.toList = true) ∧
      ∃ files, build {} Schema.drawing = .ok files ∧ (files.map PlannedFile.path).Nodup ∧
        ∀ home, (files.map PlannedFile.path).Pairwise (fun p q => ¬ p.Meets home q) ∧
        ¬ ∃ f ∈ files, ∃ g ∈ files, f.kind = .scaffold ∧ g.kind = .generated ∧
          f.path.Meets home g.path := by
  obtain ⟨files, plan⟩ := build_drawing {}
  have identifiers : ∀ t ∈ Schema.drawing.types, isIdentifier t.name.toList = true := by decide
  obtain ⟨nodup, places⟩ := paths_nodup_iff (c := {}) rfl rfl identifiers plan
  have avoids : Config.AvoidsOwnNames {} (Schema.drawing.classes.map ApiType.name) :=
    ⟨by decide, by decide, by decide, by decide⟩
  exact ⟨rfl, rfl, identifiers, files, plan, nodup.2 avoids, fun home =>
    ⟨(places home).1.2 avoids, mt (places home).2.1 avoids.aggregate⟩⟩

end Plan

def Schema.eponymous : Schema := ⟨[{ name := "Api" }]⟩

def FileTree.handwritten : FileTree :=
  (empty.set ["work", "native"] .directory).set ["work", "native", "Api.cpp"]
    (.file "// mine".toUTF8)

theorem FileTree.isTree_handwritten : handwritten.IsTree := by
  have outer : (empty.set (["work"] ++ ["native"]) .directory).IsTree :=
    isTree_empty.set rfl (by simp [get?_empty])
  have whole : ((empty.set (["work"] ++ ["native"]) .directory).set
      (["work", "native"] ++ ["Api.cpp"]) (.file "// mine".toUTF8)).IsTree :=
    outer.set rfl (by simp [get?_set_of_ne, get?_empty])
  exact whole

/-- A run can write over a file that it reports as preserved. -/
theorem Run.generate_handwritten :
    Config.validate {} = .ok () ∧ Schema.eponymous.validate = .ok () ∧
      (∀ t ∈ Schema.eponymous.types, isIdentifier t.name.toList = true) ∧
      handwritten.IsTree ∧
      ∃ files events report t', Plan.build {} Schema.eponymous = .ok files ∧
        ¬ (files.map PlannedFile.path).Nodup ∧
        (generate disk false {} Schema.eponymous).run handwritten = ((events, .ok report), t') ∧
        (⟨"native/Api.cpp"⟩, .preserved) ∈ report.files ∧
        handwritten.read ⟨"native/Api.cpp"⟩ = .ok "// mine".toUTF8 ∧
        t'.read ⟨"native/Api.cpp"⟩ ≠ .ok "// mine".toUTF8 := by
  obtain ⟨files, plan, shared⟩ : ∃ files, Plan.build {} Schema.eponymous = .ok files ∧
      ¬ (files.map PlannedFile.path).Nodup := ⟨_, rfl, by decide⟩
  have observed : let ran := (generate disk false {} Schema.eponymous).run handwritten
      ran.1.2.toOption.any (fun report => (⟨"native/Api.cpp"⟩, .preserved) ∈ report.files) = true ∧
      (ran.2.read ⟨"native/Api.cpp"⟩).toOption.any (fun content => content.size ≠ 7) = true := by
    decide +kernel
  obtain ⟨reported, changed⟩ := observed
  obtain ⟨events, report, t', ran, reported⟩ := exists_report reported
  rw [ran] at changed
  refine ⟨rfl, rfl, by decide, isTree_handwritten, files, events, report, t', plan, shared, ran,
    of_decide_eq_true reported, rfl, fun kept => ?_⟩
  rw [kept] at changed
  have same : "// mine".toUTF8.size ≠ 7 := of_decide_eq_true changed
  exact same (by decide +kernel)

end InteropGen
