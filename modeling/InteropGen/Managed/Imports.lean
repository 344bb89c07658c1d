import InteropGen.Managed.Trampoline
import InteropGen.Surface.ExportTable

set_option autoImplicit false

/-!
# Imports of a class

Nested in the wrapper of a class is another class that declares an import for each entry of the
export table, and the types of the events and trampolines that those imports mention.
-/

namespace InteropGen

structure Import where
  name : String
  /-- How the result is marshalled. -/
  marshalling : Option String
  result : Spelling
  parameters : List Declared
  deriving DecidableEq, Repr

namespace Import

def symbol (i : Import) : String := symbolText i.name i.parameters.length

def line (i : Import) : String :=
  "public static extern " ++ i.result.literal ++ " " ++ i.name ++ "(" ++
    Declared.join i.parameters ++ ");"

def libraryAttribute (c : Config) : String :=
  "[DllImport(NativeModuleName, CallingConvention = " ++ c.native.convention.managed ++ ")]"

def code (c : Config) (i : Import) : Code :=
  Code.blank ++ Code.line (libraryAttribute c) ++ Code.lines i.marshalling.toList ++
    Code.line i.line

def ofMember (s : Schema) (t : ApiType) (name : String) (m : Member) : Except Failure Import := do
  let signature := t.signature m
  let parameters ← s.declareFlat .binding signature.parameters
  let result ← s.resolve .binding .result signature.returns
  let marshalling ← s.returnAttribute signature.returns
  return ⟨name, marshalling, result, handleOf signature.isStatic ++ parameters⟩

def ofArrayStep (s : Schema) (t : ApiType) (name : String) (index : Nat) (step : ArrayStep) :
    Except Failure Import := do
  let p := t.property index
  let self := handleOf p.isStatic
  let array := Declared.plain "IntPtr" "array"
  match step with
  | .openArray => return ⟨name, none, ⟨"IntPtr", none⟩, self⟩
  | .countItems => return ⟨name, none, ⟨"int", none⟩, self ++ [array]⟩
  | .itemAt =>
    match p.type with
    | .array element =>
      let result ← s.resolve .binding .result element
      let marshalling ← s.returnAttribute element
      return ⟨name, marshalling, result, self ++ [array, .plain "int" "index"]⟩
    | other => throw (.unsupportedType .binding "array accessors" other.display)
  | .closeArray => return ⟨name, none, ⟨"void", none⟩, self ++ [array]⟩

def ofExport (s : Schema) (t : ApiType) (e : Export) : Except Failure Import :=
  match e.kind with
  | .create => .ok ⟨e.name, none, ⟨"IntPtr", none⟩, []⟩
  | .destroy => .ok ⟨e.name, none, ⟨"void", none⟩, [handleParameter]⟩
  | .member m => ofMember s t e.name m
  | .arrayAccess index step => ofArrayStep s t e.name index step
  | .setEventCallback =>
    .ok ⟨e.name, none, ⟨"void", none⟩, [.plain (t.name ++ "EventCallbackType") "callback"]⟩
  | .setTrampolineLocator =>
    .ok ⟨e.name, none, ⟨"void", none⟩, [.plain (t.name ++ "TrampolineLocatorCallback") "callback"]⟩
  | .setManagedHandle =>
    .ok ⟨e.name, none, ⟨"void", none⟩, [handleParameter, .plain "IntPtr" "handle"]⟩

def ofExports (s : Schema) (t : ApiType) : List Export → Except Failure (List Import)
  | [] => .ok []
  | e :: es => do
    let i ← ofExport s t e
    let is ← ofExports s t es
    return i :: is

end Import

structure Imports where
  typeName : String
  /-- The wrapper has a base with imports of its own. -/
  hidesBase : Bool
  /-- The names of the events, if there are any. -/
  events : List String
  delegates : Option SlotDelegates
  imports : List Import
  deriving DecidableEq, Repr

namespace Imports

def ofClass (s : Schema) (t : ApiType) (exports : ExportTable) (table : Option SlotTable) :
    Except Failure Imports := do
  let delegates ← table.mapM (SlotDelegates.ofTable s t)
  let imports ← Import.ofExports s t exports.entries
  return ⟨t.name, (s.baseOf t).isSome, t.events.map Event.name, delegates, imports⟩

def symbols (i : Imports) : List String := i.imports.map Import.symbol

def slotOrder? (i : Imports) : Option (List String) := i.delegates.map SlotDelegates.enumerators

def eventTypes (c : Config) (i : Imports) : Code :=
  Code.blank ++ Code.line (callbackAttribute c) ++
    Code.line ("public delegate IntPtr " ++ i.typeName ++ "EventCallbackType(IntPtr obj, " ++
      i.typeName ++ "Event e, IntPtr parameter);") ++
    Code.blank ++
    Code.block ("public enum " ++ i.typeName ++ "Event") (Code.lines (i.events.map (· ++ ",")))

def headline (i : Imports) : String :=
  if i.hidesBase then "public new class NativeApi" else "public class NativeApi"

def moduleName (c : Config) : String :=
  "private const string NativeModuleName = \"" ++ c.managed.nativeModule ++ "\";"

def code (c : Config) (i : Imports) : Code :=
  Code.line "[SuppressUnmanagedCodeSecurity]" ++
    Code.block i.headline
      (Code.line (moduleName c) ++
        Code.given (!i.events.isEmpty) (i.eventTypes c) ++
        (i.delegates.map fun d => Code.blank ++ d.code c).getD [] ++
        i.imports.flatMap (Import.code c))

end Imports

end InteropGen
