import InteropGen.Config.Basic
import InteropGen.Schema.Document
import InteropGen.Toml.Writer

set_option autoImplicit false

/-!
# Configurations as documents

A configuration is read from a document under the same rules as a schema, and written with all of
its settings spelled out.
-/

namespace InteropGen

namespace Data

def path? (d : Data) : Option Path := d.text?.map Path.mk

def size? (d : Data) : Option Nat :=
  d.integer?.bind fun i => if 0 ≤ i && i ≤ 18446744073709551615 then some i.toNat else none

end Data

namespace ManagedSettings

def ofData? (rules : FormatRules) (d : Data) : Option ManagedSettings := do
  let field ← rules.fields? ["dir", "namespace", "native_module", "object_class"] d
  let default : ManagedSettings := {}
  let dir ← Data.orDefault default.dir Data.path? (field "dir")
  let «namespace» ← Data.orDefault default.namespace Data.text? (field "namespace")
  let nativeModule ← Data.orDefault default.nativeModule Data.text? (field "native_module")
  let objectClass ← Data.orDefault default.objectClass Data.text? (field "object_class")
  return { dir, «namespace», nativeModule, objectClass }

def toFields (s : ManagedSettings) : Toml.Fields :=
  [("dir", .text s.dir.text), ("namespace", .text s.namespace),
    ("native_module", .text s.nativeModule), ("object_class", .text s.objectClass)]

end ManagedSettings

namespace NativeSettings

def ofData? (rules : FormatRules) (d : Data) : Option NativeSettings := do
  let field ← rules.fields? ["dir", "calling_convention"] d
  let default : NativeSettings := {}
  let dir ← Data.orDefault default.dir Data.path? (field "dir")
  let convention ←
    Data.orDefault default.convention
      (rules.keyword? CallingConvention.all CallingConvention.keyword) (field "calling_convention")
  return { dir, convention }

def toFields (s : NativeSettings) : Toml.Fields :=
  [("dir", .text s.dir.text), ("calling_convention", .text s.convention.keyword)]

end NativeSettings

namespace OutputSettings

def ofData? (rules : FormatRules) (d : Data) : Option OutputSettings := do
  let field ← rules.fields? ["header", "indent"] d
  let default : OutputSettings := {}
  let header ← Data.orDefault default.header Data.text? (field "header")
  let indent ← Data.orDefault default.indent Data.size? (field "indent")
  return { header, indent }

def toFields (s : OutputSettings) : Toml.Fields :=
  [("header", .text s.header), ("indent", .integer s.indent)]

end OutputSettings

namespace Config

def ofData? (rules : FormatRules) (d : Data) : Option Config := do
  let field ← rules.fields? ["schema", "managed", "native", "output"] d
  let default : Config := {}
  let schema ← Data.orDefault default.schema Data.path? (field "schema")
  let managed ← Data.orDefault {} (ManagedSettings.ofData? rules) (field "managed")
  let native ← Data.orDefault {} (NativeSettings.ofData? rules) (field "native")
  let output ← Data.orDefault {} (OutputSettings.ofData? rules) (field "output")
  return { schema, managed, native, output }

def toDocument (c : Config) : Toml.Document where
  root := [("schema", .text c.schema.text)]
  tables :=
    [("managed", c.managed.toFields), ("native", c.native.toFields), ("output", c.output.toFields)]

def write (c : Config) : String := c.toDocument.write

def parse (text : String) : Except ConfigError Config :=
  match (Toml.read text).bind (ofData? .toml) with
  | none => .error .malformed
  | some c => c.validate.map fun _ => c

end Config

end InteropGen
