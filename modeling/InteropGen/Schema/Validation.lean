import InteropGen.Schema.Fault
import InteropGen.Schema.Variants

set_option autoImplicit false

/-!
# Structural rules of a schema

`Schema.violation?` finds the first rule that a schema breaks: names first, then the shape of each
type in turn, then the inheritance of the classes.
-/

namespace InteropGen

def firstRepeated : List String → List String → Option String
  | _, [] => none
  | seen, name :: names =>
    if name ∈ seen then some name else firstRepeated (name :: seen) names

namespace ApiType

def shapeViolation? (t : ApiType) : Option Violation :=
  match t.kind with
  | .classType =>
    if !t.fields.isEmpty || !t.variants.isEmpty then some (.classShape t.name) else none
  | .structType =>
    if t.hasMembers || !t.variants.isEmpty || t.managedServer then some (.structShape t.name)
    else none
  | .enumType =>
    if t.hasMembers || !t.fields.isEmpty || t.managedServer then some (.enumShape t.name) else none

def flagsViolation? (t : ApiType) : Option Violation :=
  if t.flags && !t.isEnum then some (.flagsOutsideEnum t.name) else none

def variantViolation? (t : ApiType) : Option Violation :=
  if t.isEnum then
    match t.variantValues with
    | .ok _ => none
    | .error variant => some (.variantOverflow t.name variant)
  else none

def violation? (t : ApiType) : Option Violation :=
  t.shapeViolation?.or (t.flagsViolation?.or t.variantViolation?)

end ApiType

namespace Schema

/-- Whether the chain of bases ends after fewer than `bound` steps. -/
def endsWithin (s : Schema) : Nat → ApiType → Bool
  | 0, _ => false
  | bound + 1, t =>
    match s.baseOf t with
    | none => true
    | some b => s.endsWithin bound b

/-- A chain that is longer than the list of types goes through one of them twice. -/
def hasEndlessChain (s : Schema) (t : ApiType) : Bool := !s.endsWithin (s.types.length + 1) t

def cycleViolation? (s : Schema) : Option Violation :=
  (s.classes.find? s.hasEndlessChain).map fun t => .inheritanceCycle t.name

def violation? (s : Schema) : Option Violation :=
  ((firstRepeated [] (s.types.map ApiType.name)).map Violation.duplicateName).or
    ((s.types.findSome? ApiType.violation?).or s.cycleViolation?)

def validate (s : Schema) : Except SchemaError Unit :=
  match s.violation? with
  | none => .ok ()
  | some v => .error (.ofViolation v)

/-- A schema of the given types, checked, and with every member marked by its owner. -/
def ofTypes (types : List ApiType) : Except SchemaError Schema :=
  (validate ⟨types⟩).map fun _ => own ⟨types⟩

end Schema

end InteropGen
