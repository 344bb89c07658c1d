import InteropGen.Json.Reader
import InteropGen.Schema.Validation
import InteropGen.Toml.Reader

set_option autoImplicit false

/-!
# Schemas as documents

A schema is read from a document value and written to one.  A structure may be written as a record,
where unknown keys are skipped and no known key may repeat, or as the list of its fields in order.
Fields that are missing take their defaults; names and types have none.
-/

namespace InteropGen

/-- Where the notations differ in how a structure may be written. -/
structure FormatRules where
  /-- A list of fields may not be longer than the structure. -/
  exactLists : Bool
  /-- What may stand after a keyword that is written as the only key of a record. -/
  isUnit : Data → Bool

namespace FormatRules

def json : FormatRules where
  exactLists := true
  isUnit
    | .absent => true
    | _ => false

def toml : FormatRules where
  exactLists := false
  isUnit
    | .record [] => true
    | .list [] => true
    | _ => false

def ofFormat : Format → FormatRules
  | .json => json
  | .toml => toml

def fields? (rules : FormatRules) (keys : List String) : Data → Option (String → Option Data)
  | .record entries =>
    if (firstRepeated [] ((entries.map Prod.fst).filter (· ∈ keys))).isSome then none
    else some fun key => entries.lookup key
  | .list items =>
    if rules.exactLists && keys.length < items.length then none
    else some fun key => (keys.zip items).lookup key
  | _ => none

def keyword? {α : Type} (rules : FormatRules) (all : List α) (spelling : α → String) :
    Data → Option α
  | .text s => all.find? fun a => spelling a = s
  | .record [(s, payload)] =>
    if rules.isUnit payload then all.find? fun a => spelling a = s else none
  | _ => none

end FormatRules

namespace Data

def orDefault {α : Type} (default : α) (read : Data → Option α) : Option Data → Option α
  | none => some default
  | some d => read d

def optional {α : Type} (read : Data → Option α) : Option Data → Option (Option α)
  | none => some none
  | some .absent => some none
  | some d => (read d).map some

def listOf {α : Type} (read : Data → Option α) (d : Data) : Option (List α) :=
  d.list?.bind (·.mapM read)

def int64? (d : Data) : Option Int := d.integer?.bind fun i => if fitsInt64 i then some i else none

end Data

namespace TypeRef

def ofData? (d : Data) : Option TypeRef := d.text?.bind fun s => (parse s).toOption

def toData (t : TypeRef) : Data := .text t.display

end TypeRef

namespace Property

def ofData? (rules : FormatRules) (d : Data) : Option Property := do
  let field ← rules.fields? ["name", "type", "static", "get", "set"] d
  let name ← (field "name").bind Data.text?
  let type ← (field "type").bind TypeRef.ofData?
  let isStatic ← Data.orDefault false Data.boolean? (field "static")
  let get ← Data.orDefault true Data.boolean? (field "get")
  let set ← Data.orDefault false Data.boolean? (field "set")
  return { name, type, isStatic, get, set }

def toData (p : Property) : Data :=
  .record [("name", .text p.name), ("type", p.type.toData), ("static", .boolean p.isStatic),
    ("get", .boolean p.get), ("set", .boolean p.set)]

end Property

namespace Parameter

def ofData? (rules : FormatRules) (d : Data) : Option Parameter := do
  let field ← rules.fields? ["name", "type"] d
  let name ← (field "name").bind Data.text?
  let type ← (field "type").bind TypeRef.ofData?
  return { name, type }

def toData (p : Parameter) : Data := .record [("name", .text p.name), ("type", p.type.toData)]

end Parameter

namespace Method

def ofData? (rules : FormatRules) (d : Data) : Option Method := do
  let field ← rules.fields? ["name", "returns", "parameters", "static"] d
  let name ← (field "name").bind Data.text?
  let returns ← Data.orDefault .void TypeRef.ofData? (field "returns")
  let parameters ← Data.orDefault [] (Data.listOf (Parameter.ofData? rules)) (field "parameters")
  let isStatic ← Data.orDefault false Data.boolean? (field "static")
  return { name, returns, parameters, isStatic }

def toData (m : Method) : Data :=
  .record [("name", .text m.name), ("returns", m.returns.toData),
    ("parameters", .list (m.parameters.map Parameter.toData)), ("static", .boolean m.isStatic)]

end Method

namespace Event

def ofData? (rules : FormatRules) (d : Data) : Option Event := do
  let field ← rules.fields? ["name", "data", "cancellable"] d
  let name ← (field "name").bind Data.text?
  let data ← Data.optional TypeRef.ofData? (field "data")
  let cancellable ← Data.orDefault false Data.boolean? (field "cancellable")
  return { name, data, cancellable }

def toData (e : Event) : Data :=
  .record ([("name", .text e.name)] ++ (e.data.map fun t => ("data", t.toData)).toList ++
    [("cancellable", .boolean e.cancellable)])

end Event

namespace Field

def ofData? (rules : FormatRules) (d : Data) : Option Field := do
  let field ← rules.fields? ["name", "type"] d
  let name ← (field "name").bind Data.text?
  let type ← (field "type").bind TypeRef.ofData?
  return { name, type }

def toData (f : Field) : Data := .record [("name", .text f.name), ("type", f.type.toData)]

end Field

namespace Variant

def ofData? (rules : FormatRules) (d : Data) : Option Variant := do
  let field ← rules.fields? ["name", "value"] d
  let name ← (field "name").bind Data.text?
  let value ← Data.optional Data.int64? (field "value")
  return { name, value }

def toData (v : Variant) : Data :=
  .record ([("name", .text v.name)] ++ (v.value.map fun i => ("value", .integer i)).toList)

end Variant

namespace ApiType

def keys : List String :=
  ["name", "kind", "abstract", "flags", "managed_server", "base", "constructor", "destructor",
    "properties", "methods", "events", "fields", "variants"]

def ofData? (rules : FormatRules) (d : Data) : Option ApiType := do
  let field ← rules.fields? keys d
  let name ← (field "name").bind Data.text?
  let kind ← Data.orDefault .classType (rules.keyword? Kind.all Kind.keyword) (field "kind")
  let isAbstract ← Data.orDefault false Data.boolean? (field "abstract")
  let flags ← Data.orDefault false Data.boolean? (field "flags")
  let managedServer ← Data.orDefault false Data.boolean? (field "managed_server")
  let base ← Data.optional Data.text? (field "base")
  let visibility := Data.orDefault .everyone (rules.keyword? Visibility.all Visibility.keyword)
  let constructor ← visibility (field "constructor")
  let destructor ← visibility (field "destructor")
  let properties ← Data.orDefault [] (Data.listOf (Property.ofData? rules)) (field "properties")
  let methods ← Data.orDefault [] (Data.listOf (Method.ofData? rules)) (field "methods")
  let events ← Data.orDefault [] (Data.listOf (Event.ofData? rules)) (field "events")
  let fields ← Data.orDefault [] (Data.listOf (Field.ofData? rules)) (field "fields")
  let variants ← Data.orDefault [] (Data.listOf (Variant.ofData? rules)) (field "variants")
  return { name, kind, isAbstract, flags, managedServer, base, constructor, destructor, properties,
           methods, events, fields, variants }

def toData (t : ApiType) : Data :=
  .record ([("name", .text t.name), ("kind", .text t.kind.keyword),
      ("abstract", .boolean t.isAbstract), ("flags", .boolean t.flags),
      ("managed_server", .boolean t.managedServer)] ++
    (t.base.map fun b => ("base", .text b)).toList ++
    [("constructor", .text t.constructor.keyword), ("destructor", .text t.destructor.keyword),
      ("properties", .list (t.properties.map Property.toData)),
      ("methods", .list (t.methods.map Method.toData)),
      ("events", .list (t.events.map Event.toData)),
      ("fields", .list (t.fields.map Field.toData)),
      ("variants", .list (t.variants.map Variant.toData))])

end ApiType

namespace Schema

def ofData? (rules : FormatRules) (d : Data) : Option Schema := do
  let field ← rules.fields? ["types"] d
  let types ← Data.orDefault [] (Data.listOf (ApiType.ofData? rules)) (field "types")
  return { types }

def toData (s : Schema) : Data := .record [("types", .list (s.types.map ApiType.toData))]

def readData : Format → String → Option Data
  | .json, text => Json.read text
  | .toml, text => Toml.read text

def parse (format : Format) (text : String) : Except SchemaError Schema :=
  match (readData format text).bind (ofData? (.ofFormat format)) with
  | some s => .ok s
  | none => .error (.malformed format)

def load (format : Format) (text : String) : Except SchemaError Schema :=
  parse format text >>= fun s => ofTypes s.types

end Schema

end InteropGen
