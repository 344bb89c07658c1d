import InteropGen.Text.Blank
import InteropGen.Text.Identifier

set_option autoImplicit false

/-!
# Type references

A member of the schema names its type by a short text: a keyword, the name of a declared type,
either of them with `?` or `[]` after it, or a generic instantiation kept as written.
`TypeRef.parse` reads such a text and `TypeRef.display` writes it.
-/

namespace InteropGen

/-- The built-in value types, which have one fixed layout on both sides. -/
inductive Primitive where
  | bool
  | byte
  | sbyte
  | short
  | ushort
  | int
  | uint
  | long
  | ulong
  | float
  | double
  | char
  | pointer
  deriving DecidableEq, Repr

namespace Primitive

def all : List Primitive :=
  [bool, byte, sbyte, short, ushort, int, uint, long, ulong, float, double, char, pointer]

def keyword : Primitive → String
  | bool => "bool"
  | byte => "byte"
  | sbyte => "sbyte"
  | short => "short"
  | ushort => "ushort"
  | int => "int"
  | uint => "uint"
  | long => "long"
  | ulong => "ulong"
  | float => "float"
  | double => "double"
  | char => "char"
  | pointer => "pointer"

def ofKeyword? (text : String) : Option Primitive := all.find? fun p => p.keyword = text

@[simp] theorem ofKeyword?_keyword (p : Primitive) : ofKeyword? p.keyword = some p := by
  cases p <;> decide

theorem eq_keyword_of_ofKeyword? {text : String} {p : Primitive} (h : ofKeyword? text = some p) :
    text = p.keyword := by
  have := List.find?_some h
  simpa [eq_comm] using this

end Primitive

inductive TypeRef where
  | void
  | primitive (p : Primitive)
  /-- Text of 16-bit units. -/
  | text
  /-- A type declared in the schema. -/
  | named (name : String)
  | nullable (inner : TypeRef)
  | array (element : TypeRef)
  /-- A generic instantiation, kept as written. -/
  | generic (spelling : String)
  deriving DecidableEq, Repr, Inhabited

namespace TypeRef

def isVoid : TypeRef → Bool
  | void => true
  | _ => false

def isArray : TypeRef → Bool
  | array _ => true
  | _ => false

def apiName? : TypeRef → Option String
  | named name => some name
  | nullable inner => inner.apiName?
  | _ => none

def displayChars : TypeRef → List Char
  | void => ['v', 'o', 'i', 'd']
  | primitive p => p.keyword.toList
  | text => ['s', 't', 'r', 'i', 'n', 'g']
  | named name => name.toList
  | nullable inner => inner.displayChars ++ ['?']
  | array element => element.displayChars ++ ['[', ']']
  | generic spelling => spelling.toList

def display (t : TypeRef) : String := String.ofList t.displayChars

inductive Fault where
  | emptyText
  | nestedNullable
  | nullableVoid
  | arrayOfVoid
  | malformedGeneric
  | notIdentifier
  deriving DecidableEq, Repr

def Fault.reason : Fault → String
  | emptyText => "empty type"
  | nestedNullable => "nested nullable"
  | nullableVoid => "void cannot be nullable"
  | arrayOfVoid => "array of void"
  | malformedGeneric => "malformed generic arguments"
  | notIdentifier => "not an identifier"

/-- A text that is no type reference, less its suffixes and blank ends. -/
structure Malformed where
  text : String
  fault : Fault
  deriving DecidableEq, Repr

def ofStem (stem : List Char) : Except Fault TypeRef :=
  let spelling := String.ofList stem
  if stem.contains '<' then
    if stem.getLast? = some '>' && Text.isIdentifier (stem.takeWhile (· != '<')) then
      .ok (generic spelling)
    else .error .malformedGeneric
  else if spelling = "void" then .ok void
  else if spelling = "string" then .ok text
  else
    match Primitive.ofKeyword? spelling with
    | some p => .ok (primitive p)
    | none => if Text.isIdentifier stem then .ok (named spelling) else .error .notIdentifier

def question : TypeRef → Except Fault TypeRef
  | nullable _ => .error .nestedNullable
  | void => .error .nullableVoid
  | inner => .ok (nullable inner)

def brackets : TypeRef → Except Fault TypeRef
  | void => .error .arrayOfVoid
  | element => .ok (array element)

def blame (reversed : List Char) : Except Fault TypeRef → Except Malformed TypeRef
  | .ok t => .ok t
  | .error fault => .error ⟨String.ofList reversed.reverse, fault⟩

/-- Reads a text that is given back to front and whose front is not blank: the suffixes first, then
the stem that they leave. -/
def parseReversed : List Char → Except Malformed TypeRef
  | [] => blame [] (.error .emptyText)
  | ']' :: '[' :: rest => parseReversed rest >>= fun t => blame (']' :: '[' :: rest) t.brackets
  | c :: rest =>
    if Text.isBlank c then parseReversed rest
    else if c = '?' then parseReversed rest >>= fun t => blame (c :: rest) t.question
    else blame (c :: rest) (ofStem (c :: rest).reverse)

def parse (s : String) : Except Malformed TypeRef :=
  parseReversed (Text.trimLeft s.toList).reverse

end TypeRef

end InteropGen
