import InteropGen.Schema.TypeRef

set_option autoImplicit false

/-!
# What is wrong with a schema

Each cause has one wording.
-/

namespace InteropGen

inductive Format where
  | json
  | toml
  deriving DecidableEq, Repr

inductive Violation where
  | duplicateName (name : String)
  | classShape (name : String)
  | structShape (name : String)
  | enumShape (name : String)
  | flagsOutsideEnum (name : String)
  | variantOverflow (enum variant : String)
  | inheritanceCycle (name : String)
  deriving DecidableEq, Repr

def Violation.describe : Violation → String
  | duplicateName name => name
  | classShape name => "Class " ++ name ++ " cannot declare fields or variants"
  | structShape name => "Struct " ++ name ++ " may only declare fields"
  | enumShape name => "Enum " ++ name ++ " may only declare variants"
  | flagsOutsideEnum name => "Only enums can be flags: " ++ name
  | variantOverflow enum variant =>
    "Enum " ++ enum ++ " member " ++ variant ++ " overflows a 64-bit value"
  | inheritanceCycle name => "Inheritance cycle through " ++ name

inductive SchemaError where
  | unreadable
  | malformed (format : Format)
  | unsupportedFormat (path : String)
  | invalidTypeRef (text reason : String)
  | duplicateType (name : String)
  | invalid (rule : String)
  deriving DecidableEq, Repr

namespace SchemaError

def ofViolation : Violation → SchemaError
  | .duplicateName name => duplicateType name
  | v => invalid v.describe

def ofMalformed (m : TypeRef.Malformed) : SchemaError := invalidTypeRef m.text m.fault.reason

def message : SchemaError → String
  | unreadable => "Failed to read schema file:"
  | malformed _ => "Failed to parse schema:"
  | unsupportedFormat path => "Unsupported schema format: " ++ path ++ " (expected .toml or .json)"
  | invalidTypeRef text reason => "Invalid type reference '" ++ text ++ "': " ++ reason
  | duplicateType name => "Duplicate API type: " ++ name
  | invalid rule => "Invalid schema: " ++ rule

end SchemaError

end InteropGen
