import InteropGen.Dialect.Shape

set_option autoImplicit false

/-!
# The order of structs

A struct holds the structs of its fields by value, so it can only be declared after them.
`Schema.structOrder` lists the structs in such an order; there is none when a struct embeds itself,
or when a field is neither a primitive, an enum nor a struct.
-/

namespace InteropGen

namespace Schema

def recursionFailure (t : ApiType) : Failure := .unsupportedType .flat "recursive structs" t.name

def fieldFailure (t : ApiType) (f : Field) : Failure :=
  .unsupportedType .flat "non-value struct fields"
    (t.name ++ "." ++ f.name ++ ": " ++ f.type.display)

/-- Appends a struct after the structs that it embeds.  The names on the way to it are `path`, and
the counter bounds how deep structs embed each other. -/
def place (s : Schema) : Nat → List String → List ApiType → ApiType → Except Failure (List ApiType)
  | 0, _, _, t => .error (recursionFailure t)
  | bound + 1, path, ordered, t =>
    if ordered.any (·.name = t.name) then .ok ordered
    else if t.name ∈ path then .error (recursionFailure t)
    else
      let placeField (ordered : List ApiType) (f : Field) : Except Failure (List ApiType) :=
        s.shape .flat f.type >>= fun
          | .struct inner => s.place bound (t.name :: path) ordered inner
          | .primitive _ => .ok ordered
          | .enum _ => .ok ordered
          | _ => .error (fieldFailure t f)
      (t.fields.foldlM placeField ordered).map (· ++ [t])

/-- The structs, each after those that its fields embed. -/
def structOrder (s : Schema) : Except Failure (List ApiType) :=
  s.structs.foldlM (s.place (s.types.length + 1) []) []

end Schema

end InteropGen
