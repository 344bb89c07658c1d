import InteropGen.Schema.TypeRef

set_option autoImplicit false

/-!
# The API schema

A schema lists the declared types of an API surface in processing order: classes with their
properties, methods and events, structs with their fields, and enums with their variants.  Member
order is significant, since tables of symbols and slots are numbered by it.
-/

namespace InteropGen

inductive Kind where
  | classType
  | structType
  | enumType
  deriving DecidableEq, Repr

namespace Kind

def all : List Kind := [classType, structType, enumType]

def keyword : Kind → String
  | classType => "class"
  | structType => "struct"
  | enumType => "enum"

end Kind

/-- Who may construct or destroy instances: everyone, or the native side only. -/
inductive Visibility where
  | everyone
  | nativeOnly
  deriving DecidableEq, Repr

namespace Visibility

def all : List Visibility := [everyone, nativeOnly]

def keyword : Visibility → String
  | everyone => "public"
  | nativeOnly => "private"

def isPublic (v : Visibility) : Bool := v = .everyone

end Visibility

structure Property where
  name : String
  type : TypeRef
  isStatic : Bool := false
  get : Bool := true
  set : Bool := false
  /-- The type that declares the property, once the schema is loaded. -/
  owner : String := ""
  deriving DecidableEq, Repr

structure Parameter where
  name : String
  type : TypeRef
  deriving DecidableEq, Repr

structure Method where
  name : String
  returns : TypeRef := .void
  parameters : List Parameter := []
  isStatic : Bool := false
  /-- The type that declares the method, once the schema is loaded. -/
  owner : String := ""
  deriving DecidableEq, Repr

structure Event where
  name : String
  /-- The struct passed along when the event is raised. -/
  data : Option TypeRef := none
  /-- The handler may cancel the native action. -/
  cancellable : Bool := false
  deriving DecidableEq, Repr

structure Field where
  name : String
  type : TypeRef
  deriving DecidableEq, Repr

structure Variant where
  name : String
  value : Option Int := none
  deriving DecidableEq, Repr

structure ApiType where
  name : String
  kind : Kind := .classType
  isAbstract : Bool := false
  /-- The variants combine as bits. -/
  flags : Bool := false
  /-- Instance members are implemented on the managed side and reached through trampolines. -/
  managedServer : Bool := false
  /-- The parent, honoured only when it names a declared class. -/
  base : Option String := none
  constructor : Visibility := .everyone
  destructor : Visibility := .everyone
  properties : List Property := []
  methods : List Method := []
  events : List Event := []
  fields : List Field := []
  variants : List Variant := []
  deriving DecidableEq, Repr

namespace ApiType

def isClass (t : ApiType) : Bool := t.kind = .classType

def isStruct (t : ApiType) : Bool := t.kind = .structType

def isEnum (t : ApiType) : Bool := t.kind = .enumType

def isFlagsEnum (t : ApiType) : Bool := t.isEnum && t.flags

def hasMembers (t : ApiType) : Bool :=
  !t.properties.isEmpty || !t.methods.isEmpty || !t.events.isEmpty

/-- Marks every property and method as declared here. -/
def own (t : ApiType) : ApiType :=
  { t with
    properties := t.properties.map fun p => { p with owner := t.name }
    methods := t.methods.map fun m => { m with owner := t.name } }

@[simp] theorem own_name (t : ApiType) : t.own.name = t.name := rfl

@[simp] theorem own_kind (t : ApiType) : t.own.kind = t.kind := rfl

@[simp] theorem own_base (t : ApiType) : t.own.base = t.base := rfl

end ApiType

structure Schema where
  types : List ApiType := []
  deriving DecidableEq, Repr

namespace Schema

def get? (s : Schema) (name : String) : Option ApiType := s.types.find? fun t => t.name = name

def classes (s : Schema) : List ApiType := s.types.filter ApiType.isClass

def structs (s : Schema) : List ApiType := s.types.filter ApiType.isStruct

def enums (s : Schema) : List ApiType := s.types.filter ApiType.isEnum

def baseOf (s : Schema) (t : ApiType) : Option ApiType :=
  (t.base.bind s.get?).filter ApiType.isClass

def own (s : Schema) : Schema := ⟨s.types.map ApiType.own⟩

theorem mem_of_get? {s : Schema} {name : String} {t : ApiType} (h : s.get? name = some t) :
    t ∈ s.types := List.mem_of_find?_eq_some h

theorem name_of_get? {s : Schema} {name : String} {t : ApiType} (h : s.get? name = some t) :
    t.name = name := by simpa using List.find?_some h

theorem mem_classes {s : Schema} {t : ApiType} :
    t ∈ s.classes ↔ t ∈ s.types ∧ t.isClass = true := List.mem_filter

theorem baseOf_mem {s : Schema} {t b : ApiType} (h : s.baseOf t = some b) : b ∈ s.types := by
  obtain ⟨h, _⟩ := Option.filter_eq_some_iff.1 h
  obtain ⟨name, _, h⟩ := Option.bind_eq_some_iff.1 h
  exact mem_of_get? h

theorem baseOf_isClass {s : Schema} {t b : ApiType} (h : s.baseOf t = some b) :
    b.isClass = true := (Option.filter_eq_some_iff.1 h).2

/-- The base, its base, and so on, for at most `bound` steps. -/
def chain (s : Schema) : Nat → ApiType → List ApiType
  | 0, _ => []
  | bound + 1, t =>
    match s.baseOf t with
    | none => []
    | some b => b :: s.chain bound b

/-- The proper ancestors of a type, nearest first.  A chain without repetition is never longer than
the list of types, so on a schema without cycles none is left out. -/
def ancestors (s : Schema) (t : ApiType) : List ApiType := s.chain s.types.length t

end Schema

end InteropGen
