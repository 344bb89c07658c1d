import InteropGen.Dialect.Spelling
import InteropGen.Schema.Variants
import InteropGen.ValueTypes.Embedding

set_option autoImplicit false

/-!
# Value types as both sides declare them

Enums and structs cross the boundary by value, so both sides declare them with the same layout.  An
enum takes 32 bits unless a value needs more.
-/

namespace InteropGen

structure ValueEnum where
  name : String
  /-- The values combine as bits. -/
  flags : Bool
  values : List (String × Int)
  deriving DecidableEq, Repr

namespace ValueEnum

/-- Some value does not fit into 32 bits. -/
def isWide (e : ValueEnum) : Bool := e.values.any fun (_, value) => !fitsInt32 value

def ofType (t : ApiType) : Except Failure ValueEnum :=
  match t.variantValues with
  | .ok values => .ok ⟨t.name, t.flags, values⟩
  | .error variant => .error (.schema (.ofViolation (.variantOverflow t.name variant)))

def ofTypes : List ApiType → Except Failure (List ValueEnum)
  | [] => .ok []
  | t :: ts => do
    let e ← ofType t
    let es ← ofTypes ts
    return e :: es

def lines (e : ValueEnum) : List String :=
  e.values.map fun (name, value) => name ++ " = " ++ toString value ++ ","

end ValueEnum

structure ValueField where
  name : String
  spelling : Spelling
  /-- One byte wide, which managed code has to be told. -/
  isBool : Bool
  deriving DecidableEq, Repr

structure ValueStruct where
  name : String
  fields : List ValueField
  deriving DecidableEq, Repr

namespace ValueStruct

def fieldOf (s : Schema) (dialect : Dialect) (f : Field) : Except Failure ValueField := do
  let shape ← s.shape dialect f.type
  let spelling ← s.resolve dialect .declaration f.type
  return ⟨f.name, spelling, shape.isBool⟩

def fieldsOf (s : Schema) (dialect : Dialect) : List Field → Except Failure (List ValueField)
  | [] => .ok []
  | f :: fs => do
    let v ← fieldOf s dialect f
    let vs ← fieldsOf s dialect fs
    return v :: vs

def ofType (s : Schema) (dialect : Dialect) (t : ApiType) : Except Failure ValueStruct :=
  (fieldsOf s dialect t.fields).map (ValueStruct.mk t.name)

def ofTypes (s : Schema) (dialect : Dialect) : List ApiType → Except Failure (List ValueStruct)
  | [] => .ok []
  | t :: ts => do
    let v ← ofType s dialect t
    let vs ← ofTypes s dialect ts
    return v :: vs

end ValueStruct

end InteropGen
