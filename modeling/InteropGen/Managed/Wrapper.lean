import InteropGen.Managed.Call
import InteropGen.Managed.Event
import InteropGen.Managed.Imports

set_option autoImplicit false

/-!
# The wrapper of a class

The wrapper is the class that managed code works with.  Its properties and methods forward to the
imports nested in it.  An instance of a managed server attaches a handle to itself while its native
object is alive, so that native code can call it back.
-/

namespace InteropGen

inductive GetterBody where
  | call (body : CallBody)
  | array (body : ArrayBody)
  deriving DecidableEq, Repr

def GetterBody.code (objectClass : String) : GetterBody → Code
  | call body => body.code objectClass
  | array body => body.code objectClass

structure WrappedProperty where
  name : String
  isStatic : Bool
  type : Spelling
  getter : Option GetterBody
  setter : Option CallBody
  deriving DecidableEq, Repr

structure WrappedMethod where
  name : String
  isStatic : Bool
  result : Spelling
  parameters : List Declared
  body : CallBody
  deriving DecidableEq, Repr

/-- Members of a managed server can be overridden. -/
def modifiers (isServer isStatic : Bool) : String :=
  if isStatic then "public static" else if isServer then "public virtual" else "public"

namespace WrappedProperty

def callBody (s : Schema) (t : ApiType) (exports : ExportTable) (m : Member) :
    Except Failure (Option CallBody) :=
  (exports.find? (.member m)).mapM fun e => CallBody.ofMember s t m e.name

def getterOf (s : Schema) (t : ApiType) (exports : ExportTable) (index : Nat) (p : Property) :
    Except Failure (Option GetterBody) := do
  match ← callBody s t exports (.getter index) with
  | some body => return some (.call body)
  | none =>
    match p.get, p.type with
    | true, .array element =>
      return some (.array (← ArrayBody.ofProperty s exports index p element))
    | _, _ => return none

def ofProperty (s : Schema) (t : ApiType) (exports : ExportTable) (index : Nat) (p : Property) :
    Except Failure WrappedProperty := do
  let type ← s.resolve .managed .result p.type
  let getter ← getterOf s t exports index p
  let setter ← callBody s t exports (.setter index)
  return ⟨p.name, p.isStatic, type, getter, setter⟩

def ofProperties (s : Schema) (t : ApiType) (exports : ExportTable) :
    Nat → List Property → Except Failure (List WrappedProperty)
  | _, [] => .ok []
  | index, p :: ps => do
    let w ← ofProperty s t exports index p
    let ws ← ofProperties s t exports (index + 1) ps
    return w :: ws

def headline (isServer : Bool) (p : WrappedProperty) : String :=
  modifiers isServer p.isStatic ++ " " ++ p.type.literal ++ " " ++ p.name

def code (objectClass : String) (isServer : Bool) (p : WrappedProperty) : Code :=
  Code.blank ++
    Code.block (p.headline isServer)
      ((p.getter.map fun body => Code.block "get" (body.code objectClass)).getD [] ++
        (p.setter.map fun body => Code.block "set" (body.code objectClass)).getD [])

end WrappedProperty

namespace WrappedMethod

/-- A method without an export has no wrapper. -/
def ofMethod (s : Schema) (t : ApiType) (exports : ExportTable) (index : Nat) (m : Method) :
    Except Failure (Option WrappedMethod) :=
  (exports.find? (.member (.method index))).mapM fun e => do
    let result ← s.resolve .managed .result m.returns
    let parameters ← s.declareAll .managed m.parameters
    let body ← CallBody.ofMember s t (.method index) e.name
    return ⟨m.name, m.isStatic, result, parameters, body⟩

def ofMethods (s : Schema) (t : ApiType) (exports : ExportTable) :
    Nat → List Method → Except Failure (List WrappedMethod)
  | _, [] => .ok []
  | index, m :: ms => do
    let w ← ofMethod s t exports index m
    let ws ← ofMethods s t exports (index + 1) ms
    return w.toList ++ ws

def headline (isServer : Bool) (m : WrappedMethod) : String :=
  modifiers isServer m.isStatic ++ " " ++ m.result.literal ++ " " ++ m.name ++ "(" ++
    Declared.join m.parameters ++ ")"

def code (objectClass : String) (isServer : Bool) (m : WrappedMethod) : Code :=
  Code.blank ++ Code.block (m.headline isServer) (m.body.code objectClass)

end WrappedMethod

structure Wrapper where
  type : ApiType
  base : Option ApiType
  /-- Instances carry a handle to themselves. -/
  hasHandle : Bool
  ownsHandle : Bool
  create : Option NativeCall
  destroy : Option NativeCall
  /-- The import that stores the handle. -/
  handleSymbol : Option String
  properties : List WrappedProperty
  methods : List WrappedMethod
  events : Option WrappedEvents
  dispatch : Option Dispatch
  imports : Imports
  deriving DecidableEq, Repr

namespace Wrapper

def ofClass (s : Schema) (t : ApiType) (exports : ExportTable) (table : Option SlotTable) :
    Except Failure Wrapper := do
  let properties ← WrappedProperty.ofProperties s t exports 0 t.properties
  let methods ← WrappedMethod.ofMethods s t exports 0 t.methods
  let events ← WrappedEvents.ofClass? s t
  let dispatch ← table.mapM (Dispatch.ofTable s t)
  let imports ← Imports.ofClass s t exports table
  return {
    type := t
    base := s.baseOf t
    hasHandle := s.hasHandle t
    ownsHandle := s.ownsHandle t
    create := (exports.find? .create).map fun e => ⟨e.name, []⟩
    destroy := (exports.find? .destroy).map fun e => ⟨e.name, [.self]⟩
    handleSymbol := (exports.find? .setManagedHandle).map Export.name
    properties, methods, events, dispatch, imports }

def slotOrder? (w : Wrapper) : Option (List String) := w.imports.slotOrder?

def armOrder? (w : Wrapper) : Option (List String) := w.dispatch.map Dispatch.arms

def symbols (w : Wrapper) : List String := w.imports.symbols

def attachCall (symbol : String) : NativeCall :=
  ⟨symbol, [.self, .asIs "GCHandle.ToIntPtr(managedHandle)"]⟩

def detachCall (symbol : String) : NativeCall := ⟨symbol, [.self, .asIs "IntPtr.Zero"]⟩

def registrations (t : ApiType) : List String :=
  (if t.hasEvents then ["SetEventCallback();"] else []) ++
    (if t.managedServer then ["SetTrampolineLocator();"] else [])

def staticConstructor (w : Wrapper) : Code :=
  Code.given (!(registrations w.type).isEmpty)
    (Code.block ("static " ++ w.type.name ++ "()") (Code.lines (registrations w.type)) ++
      Code.blank)

def attachment (w : Wrapper) : Code := Code.given w.hasHandle (Code.line "AttachManagedHandle();")

def plainConstructor (w : Wrapper) : Code :=
  let chain := if w.base.isSome then " : base(IntPtr.Zero)" else ""
  match w.create with
  | some call =>
    Code.block ("public " ++ w.type.name ++ "()" ++ chain)
      (Code.line ("SetNativePointer(" ++ call.text ++ ");") ++ w.attachment)
  | none => Code.block ("protected " ++ w.type.name ++ "()" ++ chain) []

def constructors (w : Wrapper) : Code :=
  w.staticConstructor ++ w.plainConstructor ++ Code.blank ++
    Code.block ("public " ++ w.type.name ++ "(IntPtr nativePointer) : base(nativePointer)")
      w.attachment

/-- The storage of the handle of an instance, which keeps the instance alive. -/
def handleCode (symbol : String) : Code :=
  Code.line "GCHandle managedHandle;" ++ Code.blank ++
    Code.block "protected void AttachManagedHandle()"
      (Code.line "if (NativePointer == IntPtr.Zero || managedHandle.IsAllocated)" ++
        Code.nest (Code.line "return;") ++
        Code.lines ["managedHandle = GCHandle.Alloc(this);", (attachCall symbol).statement]) ++
    Code.blank ++
    Code.block "protected void ReleaseManagedHandle()"
      (Code.line "if (!managedHandle.IsAllocated)" ++
        Code.nest (Code.line "return;") ++
        Code.line "if (NativePointer != IntPtr.Zero)" ++
        Code.nest (Code.line (detachCall symbol).statement) ++
        Code.line "managedHandle.Free();")

/-- How the native object is destroyed, if that is not inherited. -/
def destruction (w : Wrapper) : Code :=
  let headline := "protected override void DestroyNativeObject()"
  match w.destroy with
  | some call =>
    Code.blank ++
      Code.block headline
        (Code.given w.hasHandle (Code.line "ReleaseManagedHandle();") ++
          Code.line "if (NativePointer == IntPtr.Zero)" ++
          Code.nest (Code.line "return;") ++
          Code.lines [call.statement, "SetNativePointer(IntPtr.Zero);"])
  | none =>
    Code.given w.ownsHandle
      (Code.blank ++
        Code.block headline (Code.lines ["ReleaseManagedHandle();", "base.DestroyNativeObject();"]))

def body (c : Config) (w : Wrapper) : Code :=
  let objectClass := c.managed.objectClass
  let isServer := w.type.managedServer
  w.constructors ++
    w.properties.flatMap (WrappedProperty.code objectClass isServer) ++
    w.methods.flatMap (WrappedMethod.code objectClass isServer) ++
    (w.handleSymbol.map fun symbol => Code.blank ++ handleCode symbol).getD [] ++
    w.destruction ++
    (w.events.map (WrappedEvents.code objectClass)).getD [] ++
    (w.dispatch.map fun d => Code.blank ++ d.code objectClass).getD [] ++
    Code.blank ++ w.imports.code c

def usings (w : Wrapper) : List String :=
  let server := w.dispatch.isSome
  ["using System;"] ++
    (if server then ["using System.Collections.Concurrent;"] else []) ++
    ["using System.ComponentModel;", "using System.Runtime.InteropServices;",
      "using System.Security;"] ++
    (if server then ["using System.Threading;"] else [])

def classLine (c : Config) (w : Wrapper) : String :=
  "internal " ++ (if w.type.isAbstract then "abstract " else "") ++ "partial class " ++
    w.type.name ++ " : " ++ (w.base.map ApiType.name).getD c.managed.objectClass

def code (c : Config) (w : Wrapper) : Code :=
  Code.lines ["#nullable enable", "#pragma warning disable", ""] ++
    Code.lines w.usings ++ Code.blank ++
    Code.block ("namespace " ++ c.managed.namespace) (Code.block (w.classLine c) (w.body c))

end Wrapper

end InteropGen
