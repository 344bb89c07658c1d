import InteropGen.Dialect.Position
import InteropGen.Dialect.Shape

set_option autoImplicit false

/-!
# Spellings of types

Each dialect spells a shape in its own way, and differently in each position.  A spelling that
mentions a class depends on the artifact that declares the class.
-/

namespace InteropGen

structure Spelling where
  literal : String
  /-- The artifact that declares what the literal mentions. -/
  «include» : Option String := none
  deriving DecidableEq, Repr

namespace Primitive

def managed : Primitive → String
  | pointer => "IntPtr"
  | p => p.keyword

def native : Primitive → String
  | bool => "bool"
  | byte => "uint8_t"
  | sbyte => "int8_t"
  | short => "int16_t"
  | ushort => "uint16_t"
  | int => "int"
  | uint => "unsigned int"
  | long => "int64_t"
  | ulong => "uint64_t"
  | float => "float"
  | double => "double"
  | char => "char16_t"
  | pointer => "void*"

end Primitive

namespace ApiType

def header (t : ApiType) : String := t.name ++ ".h"

end ApiType

namespace Shape

/-- Wrapper classes refer to classes by name and mark what may be null. -/
def managed (position : Position) : Shape → Spelling
  | void => ⟨"void", none⟩
  | primitive p => ⟨p.managed, none⟩
  | text isNullable =>
    ⟨if isNullable && position ≠ .declaration then "string?" else "string", none⟩
  | struct t => ⟨t.name, none⟩
  | enum t => ⟨t.name, none⟩
  | «class» t isNullable =>
    ⟨if isNullable && position ≠ .declaration then t.name ++ "?" else t.name, some t.name⟩
  | nullableValue inner => ⟨(inner.managed position).literal ++ "?", none⟩
  | array element =>
    let spelling := element.managed .declaration
    ⟨spelling.literal ++ "[]", spelling.include⟩

/-- What an array parameter may hold: both sides have to lay out the element alike. -/
def parameterElement : Shape → Except String Shape
  | text _ => .error "text array parameters"
  | primitive .bool => .error "bool array parameters"
  | element => .ok element

/-- Imports see classes as raw pointers, and tell how text and booleans travel as arguments. -/
def binding (position : Position) : Shape → Except String Spelling
  | void => .ok ⟨"void", none⟩
  | primitive .bool =>
    let marshalling := if position = .argument then "[MarshalAs(UnmanagedType.I1)] " else ""
    .ok ⟨marshalling ++ "bool", none⟩
  | primitive p => .ok ⟨p.managed, none⟩
  | text _ =>
    let marshalling := if position = .argument then "[MarshalAs(UnmanagedType.LPWStr)] " else ""
    .ok ⟨marshalling ++ "string", none⟩
  | struct t => .ok ⟨t.name, none⟩
  | enum t => .ok ⟨t.name, none⟩
  | «class» t _ => .ok ⟨"IntPtr", some t.name⟩
  | nullableValue _ => .error "nullable value types"
  | array element =>
    match position with
    | .argument =>
      element.parameterElement >>= fun
        | «class» t _ => .ok ⟨"IntPtr[]", some t.name⟩
        | primitive p => .ok ⟨p.managed ++ "[]", none⟩
        | struct t => .ok ⟨t.name ++ "[]", none⟩
        | enum t => .ok ⟨t.name ++ "[]", none⟩
        | _ => .error "arrays"
    | .result => .error "array return values"
    | .declaration => .error "array fields"

/-- The element of a native array; classes are held by pointer. -/
def nativeElement : Shape → Except String Spelling
  | «class» t _ => .ok ⟨t.name ++ "*", some t.header⟩
  | primitive p => .ok ⟨p.native, none⟩
  | text _ => .ok ⟨"string", none⟩
  | struct t => .ok ⟨t.name, none⟩
  | enum t => .ok ⟨t.name, none⟩
  | _ => .error "arrays"

/-- Class bodies take structs and text by constant reference and classes by reference, or by pointer
when they may be null. -/
def native (position : Position) : Shape → Except String Spelling
  | void => .ok ⟨"void", none⟩
  | primitive p => .ok ⟨p.native, none⟩
  | text _ => .ok ⟨if position = .argument then "const string&" else "string", none⟩
  | struct t => .ok ⟨if position = .argument then "const " ++ t.name ++ "&" else t.name, none⟩
  | enum t => .ok ⟨t.name, none⟩
  | «class» t isNullable =>
    let literal :=
      if position = .declaration then t.name
      else if isNullable then t.name ++ "*"
      else t.name ++ "&"
    .ok ⟨literal, some t.header⟩
  | nullableValue _ => .error "nullable value types"
  | array element =>
    element.nativeElement >>= fun spelling =>
      match position with
      | .argument => .ok ⟨"const std::vector<" ++ spelling.literal ++ ">&", spelling.include⟩
      | .result => .ok ⟨"std::vector<" ++ spelling.literal ++ ">", spelling.include⟩
      | .declaration => .error "array fields"

/-- Flat functions pass classes by pointer, structs by value, and arrays as a pointer to the first
element. -/
def flat (position : Position) : Shape → Except String Spelling
  | void => .ok ⟨"void", none⟩
  | primitive .bool => .ok ⟨"c_bool", none⟩
  | primitive p => .ok ⟨p.native, none⟩
  | text _ => .ok ⟨if position = .argument then "const char16_t*" else "char16_t*", none⟩
  | struct t => .ok ⟨t.name, none⟩
  | enum t => .ok ⟨t.name, none⟩
  | «class» t _ =>
    .ok ⟨if position = .declaration then t.name else t.name ++ "*", some t.header⟩
  | nullableValue _ => .error "nullable value types"
  | array element =>
    match position with
    | .argument =>
      element.parameterElement >>= fun
        | «class» t _ => .ok ⟨t.name ++ "**", some t.header⟩
        | primitive p => .ok ⟨"const " ++ p.native ++ "*", none⟩
        | struct t => .ok ⟨"const " ++ t.name ++ "*", none⟩
        | enum t => .ok ⟨"const " ++ t.name ++ "*", none⟩
        | _ => .error "arrays"
    | .result => .error "array return values"
    | .declaration => .error "array fields"

def spell (dialect : Dialect) (position : Position) (shape : Shape) : Except String Spelling :=
  match dialect with
  | .managed => .ok (shape.managed position)
  | .binding => shape.binding position
  | .native => shape.native position
  | .flat => shape.flat position

end Shape

namespace Schema

def spell (s : Schema) (dialect : Dialect) (position : Position) (type : TypeRef) :
    Except TypeFault Spelling :=
  s.shapeOf type >>= fun shape =>
    (shape.spell dialect position).mapError fun feature => .unsupported feature type

def resolve (s : Schema) (dialect : Dialect) (position : Position) (type : TypeRef) :
    Except Failure Spelling :=
  (s.spell dialect position type).mapError (·.failure dialect)

def literal (s : Schema) (dialect : Dialect) (position : Position) (type : TypeRef) :
    Except Failure String :=
  (s.resolve dialect position type).map Spelling.literal

def returnAttribute (s : Schema) (type : TypeRef) : Except Failure (Option String) :=
  (s.shape .binding type).map fun
    | .primitive .bool => some "[return: MarshalAs(UnmanagedType.I1)]"
    | .text _ => some "[return: MarshalAs(UnmanagedType.LPWStr)]"
    | _ => none

end Schema

end InteropGen
