import InteropGen.Disk.Path
import InteropGen.Text.Blank
import InteropGen.Text.Identifier

set_option autoImplicit false

/-!
# Configuration

A configuration says where the schema is, where the two halves of the generated code go, and how
that code is dressed.  Every setting has a default.
-/

namespace InteropGen

/-- The calling convention of every exported function and function pointer. -/
inductive CallingConvention where
  | cdecl
  | stdcall
  deriving DecidableEq, Repr

namespace CallingConvention

def all : List CallingConvention := [cdecl, stdcall]

def keyword : CallingConvention → String
  | cdecl => "cdecl"
  | stdcall => "stdcall"

def managed : CallingConvention → String
  | cdecl => "CallingConvention.Cdecl"
  | stdcall => "CallingConvention.StdCall"

def native : CallingConvention → String
  | cdecl => "__cdecl"
  | stdcall => "__stdcall"

end CallingConvention

structure ManagedSettings where
  dir : Path := ⟨"managed"⟩
  «namespace» : String := "Native"
  /-- The library that imports name. -/
  nativeModule : String := "NativeApi"
  /-- The base class of wrappers that have no other. -/
  objectClass : String := "NativeObject"
  deriving DecidableEq, Repr

structure NativeSettings where
  dir : Path := ⟨"native"⟩
  convention : CallingConvention := .cdecl
  deriving DecidableEq, Repr

structure OutputSettings where
  /-- The comment at the top of every generated file. -/
  header : String :=
    "<auto-generated> Generated by apigen. DO NOT MODIFY MANUALLY. </auto-generated>"
  /-- The blanks of one level of indentation. -/
  indent : Nat := 4
  deriving DecidableEq, Repr

structure Config where
  schema : Path := ⟨"api.toml"⟩
  managed : ManagedSettings := {}
  native : NativeSettings := {}
  output : OutputSettings := {}
  deriving DecidableEq, Repr

inductive ConfigFault where
  | managedNamespace (name : String)
  | emptyModule
  | objectClass (name : String)
  | indent (width : Nat)
  deriving DecidableEq, Repr

def ConfigFault.describe : ConfigFault → String
  | managedNamespace name =>
    "Invalid managed namespace: " ++ name ++ ". Must be dot-separated identifiers"
  | emptyModule => "Native module name cannot be empty"
  | objectClass name => "Invalid object class name: " ++ name
  | indent width => "Indent must be between 1 and 8 spaces, got " ++ toString width

inductive ConfigError where
  | io
  | malformed
  | invalid (fault : ConfigFault)
  deriving DecidableEq, Repr

def ConfigError.message : ConfigError → String
  | io => "Failed to read config file:"
  | malformed => "Failed to parse config:"
  | invalid fault => "Invalid config: " ++ fault.describe

namespace Config

def fault? (c : Config) : Option ConfigFault :=
  if !Text.isDottedName c.managed.namespace.toList then
    some (.managedNamespace c.managed.namespace)
  else if Text.allBlank c.managed.nativeModule then some .emptyModule
  else if !Text.isName c.managed.objectClass.toList then some (.objectClass c.managed.objectClass)
  else if c.output.indent = 0 || 8 < c.output.indent then some (.indent c.output.indent)
  else none

def validate (c : Config) : Except ConfigError Unit :=
  match c.fault? with
  | none => .ok ()
  | some fault => .error (.invalid fault)

/-- The configuration as seen from a directory: relative paths start there. -/
def rebase (c : Config) (base : Path) : Config :=
  { c with
    schema := base.join c.schema
    managed := { c.managed with dir := base.join c.managed.dir }
    native := { c.native with dir := base.join c.native.dir } }

def indentUnit (c : Config) : String := String.ofList (List.replicate c.output.indent ' ')

def headerLines (c : Config) : List String := Text.lines c.output.header

end Config

end InteropGen
