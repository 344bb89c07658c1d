import InteropGen.Disk.Path

set_option autoImplicit false

/-!
# File trees

A file tree holds files and directories, each at the list of names that leads to it from the root,
and one of its places is the working directory.  A path is followed name by name, from the root if it
is absolute and from the working directory if not, and each name it passes through must be a
directory.  A path that is too long, or that contains NUL, is not followed at all.
-/

namespace InteropGen

inductive Entry where
  | file (content : ByteArray)
  | directory

namespace Entry

def isDirectory : Entry → Bool
  | directory => true
  | file _ => false

def content? : Entry → Option ByteArray
  | file content => some content
  | directory => none

end Entry

/-- The names that lead from the root to a place. -/
abbrev Location := List String

structure FileTree where
  /-- The working directory. -/
  home : Location
  /-- The places in use.  The root itself is not among them. -/
  entries : List (Location × Entry)

inductive Obstacle where
  | missing
  | blocked
  deriving DecidableEq, Repr

def maxNameLength : Nat := 255

def maxPathLength : Nat := 4095

/-- The path has no NUL in it and is not too long. -/
def Path.isFollowable (p : Path) : Bool :=
  !p.chars.contains '\x00' && p.text.utf8ByteSize ≤ maxPathLength

/-- Where following the path begins. -/
def Path.origin (home : Location) (p : Path) : Location := if p.isAbsolute then [] else home

namespace FileTree

/-- Nothing but a working directory. -/
def empty : FileTree := ⟨["work"], [(["work"], .directory)]⟩

def get? (t : FileTree) (l : Location) : Option Entry :=
  if l = [] then some .directory else t.entries.lookup l

def set (t : FileTree) (l : Location) (e : Entry) : FileTree :=
  { t with entries := (l, e) :: t.entries.filter fun (k, _) => k ≠ l }

def erase (t : FileTree) (l : Location) : FileTree :=
  { t with entries := t.entries.filter fun (k, _) => !l.isPrefixOf k }

/-- The place that a piece of a path leads to.  Above the root is the root. -/
def step (l : Location) (piece : String) : Except Obstacle Location :=
  if !Path.isStep piece then .ok l
  else if piece = ".." then .ok l.dropLast
  else if maxNameLength < piece.utf8ByteSize then .error .blocked
  else .ok (l ++ [piece])

/-- Follows the pieces; only a directory has further places. -/
def follow (t : FileTree) : Location → List String → Except Obstacle Location
  | l, [] => .ok l
  | l, piece :: rest =>
    match t.get? l with
    | some .directory => step l piece >>= fun next => t.follow next rest
    | some (.file _) => .error .blocked
    | none => .error .missing

/-- The place that a path leads to, whether or not anything is there. -/
def locate (t : FileTree) (p : Path) : Except Obstacle Location :=
  if !p.isFollowable then .error .blocked
  else if p.text.isEmpty then .error .missing
  else t.follow (p.origin t.home) p.pieces

def entryAt (t : FileTree) (p : Path) : Except Obstacle Entry :=
  t.locate p >>= fun l =>
    match t.get? l with
    | some e => .ok e
    | none => .error .missing

def holds (t : FileTree) (p : Path) : Bool := (t.entryAt p).toOption.isSome

def read (t : FileTree) (p : Path) : Except Obstacle ByteArray :=
  t.entryAt p >>= fun e =>
    match e with
    | .file content => .ok content
    | .directory => .error .blocked

/-- Writes a file into a directory that is there. -/
def write (t : FileTree) (p : Path) (content : ByteArray) : Option FileTree :=
  match t.locate p with
  | .error _ => none
  | .ok l => if (t.get? l).any Entry.isDirectory then none else some (t.set l (.file content))

/-- Makes the directories along the pieces that are missing, up to the first obstacle. -/
def extend (t : FileTree) : Location → List String → Bool × FileTree
  | _, [] => (true, t)
  | l, piece :: rest =>
    match step l piece with
    | .error _ => (false, t)
    | .ok next =>
      match t.get? next with
      | some .directory => t.extend next rest
      | some (.file _) => (false, t)
      | none => (t.set next .directory).extend next rest

def hasDirectory (t : FileTree) (p : Path) : Bool := (t.entryAt p).toOption.any Entry.isDirectory

/-- Makes the directories of a path that are missing; tells whether all of them are there. -/
def makeDirectories (t : FileTree) (p : Path) : Bool × FileTree :=
  if p.text.isEmpty then (true, t)
  else if !p.isFollowable then (false, t)
  else
    let (made, t) := t.extend (p.origin t.home) p.makeable.pieces
    (made && t.hasDirectory p, t)

/-- Removes a file, or a directory with all it holds, but not one that the working directory is in;
tells whether there was any. -/
def remove (t : FileTree) (p : Path) : Bool × FileTree :=
  match t.locate p with
  | .error _ => (false, t)
  | .ok l => if l.isPrefixOf t.home || (t.get? l).isNone then (false, t) else (true, t.erase l)

/-- The paths and sizes of the files in the working directory. -/
def files (t : FileTree) : List (String × Nat) :=
  t.entries.filterMap fun (l, e) =>
    if t.home.isPrefixOf l then
      e.content?.map fun content => ("/".intercalate (l.drop t.home.length), content.size)
    else none

def listing (t : FileTree) : List (String × Nat) :=
  t.files.mergeSort fun a b => a.1 ≤ b.1

@[simp] theorem get?_root (t : FileTree) : t.get? [] = some .directory := rfl

theorem get?_set_self {t : FileTree} {l : Location} {e : Entry} (h : l ≠ []) :
    (t.set l e).get? l = some e := by
  simp [get?, set, h]

theorem lookup_filter_ne {es : List (Location × Entry)} {k l : Location} (h : k ≠ l) :
    (es.filter fun (j, _) => j ≠ l).lookup k = es.lookup k := by
  induction es with
  | nil => rfl
  | cons e es ih =>
    obtain ⟨j, e⟩ := e
    by_cases hj : j = l
    · subst hj
      have : (k == j) = false := by simpa using h
      simpa [List.lookup_cons, this] using ih
    · by_cases hk : k == j
      · simp [List.lookup_cons, hj, hk]
      · simpa [List.lookup_cons, hj, hk] using ih

theorem get?_set_of_ne {t : FileTree} {k l : Location} {e : Entry} (h : k ≠ l) :
    (t.set l e).get? k = t.get? k := by
  by_cases hk : k = []
  · subst hk
    rfl
  · have : (k == l) = false := by simpa using h
    simp only [get?, hk, if_false, set, List.lookup_cons, this]
    exact lookup_filter_ne h

end FileTree

end InteropGen
