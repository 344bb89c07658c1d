import InteropGen.Text.Lines

set_option autoImplicit false

/-!
# Paths

A path is a text whose names are separated by slashes.  Joining keeps the texts as they are written;
comparing looks at the names only, so that doubled slashes and inner dots make no difference.
-/

namespace InteropGen

structure Path where
  text : String
  deriving DecidableEq, Repr

namespace Path

def chars (p : Path) : List Char := p.text.toList

def isAbsolute (p : Path) : Bool := p.chars.head? = some '/'

/-- The path `q` as seen from the directory `p`; an absolute path is seen the same from anywhere. -/
def join (p q : Path) : Path :=
  if q.isAbsolute then q
  else if p.text.isEmpty || p.chars.getLast? = some '/' then ⟨p.text ++ q.text⟩
  else ⟨p.text ++ "/" ++ q.text⟩

def child (p : Path) (name : String) : Path := p.join ⟨name⟩

def pieces (p : Path) : List String := (Text.pieces '/' p.chars).map String.ofList

/-- Names a place of its own, neither the empty text nor the dot. -/
def isStep (piece : String) : Bool := piece ≠ "" && piece ≠ "."

/-- The names of a path; a dot counts only at the front. -/
def names (p : Path) : List String :=
  match p.pieces with
  | [] => []
  | first :: rest => (if first = "" then [] else [first]) ++ rest.filter isStep

def same (p q : Path) : Bool := p.isAbsolute = q.isAbsolute && p.names = q.names

/-- Strips slashes and dots from the end of a path that is given back to front; a lone slash
stays. -/
def trimEnd : List Char → List Char
  | '.' :: '/' :: rest => trimEnd ('/' :: rest)
  | '/' :: c :: rest => trimEnd (c :: rest)
  | cs => cs

def parent? (p : Path) : Option Path :=
  match trimEnd p.chars.reverse with
  | [] => none
  | ['/'] => none
  | cs => some ⟨String.ofList (trimEnd (cs.dropWhile (· != '/'))).reverse⟩

/-- The last piece that is not empty is a dot. -/
def endsInDot (p : Path) : Bool := p.pieces.reverse.find? (· ≠ "") = some "."

/-- The part of a path that can be made: a directory is not made under the name of a dot. -/
def makeable (p : Path) : Path := if p.endsInDot then p.parent?.getD ⟨""⟩ else p

def lastName (p : Path) : List Char := (trimEnd p.chars.reverse).takeWhile (· != '/')

/-- What follows the last dot of the last name, unless the dot is its first character. -/
def extension? (p : Path) : Option String :=
  if p.lastName = ['.', '.'] then none
  else
    match p.lastName.dropWhile (· != '.') with
    | [] => none
    | [_] => none
    | _ :: _ => some (String.ofList (p.lastName.takeWhile (· != '.')).reverse)

theorem join_absolute {p q : Path} (h : q.isAbsolute = true) : p.join q = q := by
  simp [join, h]

end Path

end InteropGen
