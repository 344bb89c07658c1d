import InteropGen.Schema.Basic

set_option autoImplicit false

/-!
# Members of a type

The callable members of a type are the accessors of its properties and its methods.  A member is
known by the position of its declaration; `ApiType.signature` is how it is called, and
`ApiType.members` lists all of them in declaration order.
-/

namespace InteropGen

inductive Member where
  | getter (index : Nat)
  | setter (index : Nat)
  | method (index : Nat)
  deriving DecidableEq, Repr

structure Signature where
  name : String
  isStatic : Bool
  returns : TypeRef
  parameters : List Parameter
  deriving DecidableEq, Repr

namespace Parameter

/-- An array crosses the boundary as a pointer and a count. -/
def arity (p : Parameter) : Nat := if p.type.isArray then 2 else 1

end Parameter

def receiverArity (isStatic : Bool) : Nat := if isStatic then 0 else 1

namespace Signature

/-- The number of parameters at the boundary, the receiver included. -/
def arity (s : Signature) : Nat :=
  s.parameters.foldr (fun p n => p.arity + n) (receiverArity s.isStatic)

def types (s : Signature) : List TypeRef := s.returns :: s.parameters.map Parameter.type

end Signature

namespace ApiType

/-- The property declared at a position; past the end there are only nameless ones. -/
def property (t : ApiType) (index : Nat) : Property :=
  t.properties.getD index { name := "", type := .void }

def method (t : ApiType) (index : Nat) : Method := t.methods.getD index { name := "" }

def signature (t : ApiType) : Member → Signature
  | .getter i =>
    ⟨"Get" ++ (t.property i).name, (t.property i).isStatic, (t.property i).type, []⟩
  | .setter i =>
    ⟨"Set" ++ (t.property i).name, (t.property i).isStatic, .void, [⟨"value", (t.property i).type⟩]⟩
  | .method i =>
    ⟨(t.method i).name, (t.method i).isStatic, (t.method i).returns, (t.method i).parameters⟩

end ApiType

namespace Property

def accessors (p : Property) (index : Nat) : List Member :=
  (if p.get then [Member.getter index] else []) ++ (if p.set then [Member.setter index] else [])

end Property

namespace ApiType

/-- The accessors of each property in turn, then the methods. -/
def members (t : ApiType) : List Member :=
  (t.properties.zipIdx.flatMap fun (p, i) => p.accessors i) ++
    (List.range t.methods.length).map Member.method

theorem property_eq {t : ApiType} {i : Nat} {p : Property} (h : t.properties[i]? = some p) :
    t.property i = p := by
  simp [property, List.getD, h]

theorem method_eq {t : ApiType} {i : Nat} {m : Method} (h : t.methods[i]? = some m) :
    t.method i = m := by
  simp [method, List.getD, h]

theorem mem_members_method {t : ApiType} {i : Nat} :
    Member.method i ∈ t.members ↔ i < t.methods.length := by
  simp only [members, List.mem_append, List.mem_flatMap, List.mem_map, List.mem_range,
    Member.method.injEq, exists_eq_right, or_iff_right_iff_imp]
  rintro ⟨⟨p, j⟩, _, h⟩
  simp only [Property.accessors, List.mem_append] at h
  rcases h with h | h <;> split at h <;> simp at h

end ApiType

end InteropGen
