import InteropGen.Failure
import InteropGen.Schema.Basic

set_option autoImplicit false

/-!
# Shapes of types

The shape of a type reference is what it turns out to be once its names are looked up.  Generic
instantiations have no shape, and neither have arrays of arrays, of nullable elements or of void.
-/

namespace InteropGen

inductive Shape where
  | void
  | primitive (p : Primitive)
  | text (isNullable : Bool)
  | struct (t : ApiType)
  | enum (t : ApiType)
  | class (t : ApiType) (isNullable : Bool)
  /-- A nullable value type. -/
  | nullableValue (inner : Shape)
  | array (element : Shape)
  deriving DecidableEq, Repr

inductive TypeFault where
  | unknown (name : String)
  | unsupported (feature : String) (type : TypeRef)
  deriving DecidableEq, Repr

def TypeFault.failure (dialect : Dialect) : TypeFault → Failure
  | unknown name => .unknownType name ("the " ++ dialect.display ++ " resolver")
  | unsupported feature type => .unsupportedType dialect feature type.display

namespace Shape

def isVoid : Shape → Bool
  | void => true
  | _ => false

def isBool : Shape → Bool
  | primitive .bool => true
  | _ => false

def isArray : Shape → Bool
  | array _ => true
  | _ => false

/-- The class that the shape mentions, itself or as its element. -/
def class? : Shape → Option ApiType
  | «class» t _ => some t
  | array element => element.class?
  | _ => none

def ofDeclared (t : ApiType) : Shape :=
  match t.kind with
  | .classType => «class» t false
  | .structType => struct t
  | .enumType => enum t

/-- The shape of `type`, which is `inner?`. -/
def nullableOf (type : TypeRef) : Shape → Except TypeFault Shape
  | text _ => .ok (text true)
  | «class» t _ => .ok («class» t true)
  | array _ => .error (.unsupported "nullable arrays" type)
  | inner => .ok (nullableValue inner)

end Shape

namespace Schema

def shapeOf (s : Schema) : TypeRef → Except TypeFault Shape
  | .void => .ok .void
  | .primitive p => .ok (.primitive p)
  | .text => .ok (.text false)
  | .named name =>
    match s.get? name with
    | some t => .ok (.ofDeclared t)
    | none => .error (.unknown name)
  | .nullable inner => s.shapeOf inner >>= Shape.nullableOf (.nullable inner)
  | .array (.array e) => .error (.unsupported "nested arrays" (.array (.array e)))
  | .array (.nullable e) => .error (.unsupported "nullable array elements" (.array (.nullable e)))
  | .array .void => .error (.unsupported "void array elements" (.array .void))
  | .array element => (s.shapeOf element).map Shape.array
  | .generic spelling => .error (.unsupported "generic types" (.generic spelling))

def shape (s : Schema) (dialect : Dialect) (type : TypeRef) : Except Failure Shape :=
  (s.shapeOf type).mapError (·.failure dialect)

end Schema

end InteropGen
