import InteropGen.Code.Header
import InteropGen.Dialect.Declared
import InteropGen.Dialect.Includes
import InteropGen.Surface.ExportTable

set_option autoImplicit false

/-!
# The shim of a class

The shim holds one flat function for each entry of the export table.  Such a function converts its
arguments to what the native class takes, makes the call, and converts the result back.  An array
property is read through a snapshot on the heap.
-/

namespace InteropGen

namespace Shim

/-- What a flat function is called on. -/
inductive Receiver where
  | object
  | type (name : String)
  deriving DecidableEq, Repr

def Receiver.text : Receiver → String
  | .object => "obj->"
  | .type name => name ++ "::"

inductive Argument where
  | asIs (name : String)
  | dereferenced (name : String)
  | decoded (name : String)
  /-- A native vector of the given type, made of a pointer and a count. -/
  | gathered (vector name : String)
  deriving DecidableEq, Repr

def Argument.text : Argument → String
  | .asIs name => name
  | .dereferenced name => "*" ++ name
  | .decoded name => "FromInteropString(" ++ name ++ ")"
  | .gathered vector name => vector ++ "(" ++ name ++ ", " ++ name ++ " + " ++ name ++ "Count)"

inductive Answer where
  | dropped
  | asIs
  | addressed
  | encoded
  deriving DecidableEq, Repr

def Answer.statement (call : String) : Answer → String
  | .dropped => call ++ ";"
  | .asIs => "return " ++ call ++ ";"
  | .addressed => "return &" ++ call ++ ";"
  | .encoded => "return AllocInteropString(" ++ call ++ ");"

inductive Body where
  | construct (type : String)
  | delete
  | call (answer : Answer) (receiver : Receiver) (member : String) (arguments : List Argument)
  /-- Copies an array property to a snapshot. -/
  | openArray (vector : String) (receiver : Receiver) (property : String)
  | countItems (vector : String)
  | itemAt (vector : String) (answer : Answer)
  | closeArray (vector : String)
  | setEventCallback (type : String)
  | setTrampolineLocator (type : String)
  | setManagedHandle
  deriving DecidableEq, Repr

/-- The opened array as the vector that it is. -/
def snapshot (vector : String) : String := "static_cast<" ++ vector ++ "*>(array)"

def callText (receiver : Receiver) (member : String) (arguments : List Argument) : String :=
  receiver.text ++ member ++ "(" ++ ", ".intercalate (arguments.map Argument.text) ++ ")"

def Body.statement : Body → String
  | .construct type => "return new " ++ type ++ "();"
  | .delete => "delete obj;"
  | .call answer receiver member arguments => answer.statement (callText receiver member arguments)
  | .openArray vector receiver property =>
    "return new " ++ vector ++ "(" ++ receiver.text ++ "Get" ++ property ++ "());"
  | .countItems vector => "return static_cast<int>(" ++ snapshot vector ++ "->size());"
  | .itemAt vector answer => answer.statement ("(*" ++ snapshot vector ++ ")[index]")
  | .closeArray vector => "delete " ++ snapshot vector ++ ";"
  | .setEventCallback type => type ++ "::SetEventCallback(callback);"
  | .setTrampolineLocator type => type ++ "::Managed::SetTrampolineLocatorCallback(callback);"
  | .setManagedHandle => "obj->SetManagedHandle(handle);"

structure Function where
  name : String
  result : Spelling
  parameters : List Declared
  body : Body
  deriving DecidableEq, Repr

namespace Function

def symbol (f : Function) : String := symbolText f.name f.parameters.length

def signatureLine (f : Function) : String :=
  "NATIVE_API " ++ f.result.literal ++ " NATIVE_API_CALL " ++ f.name ++ "(" ++
    Declared.join f.parameters ++ ")"

def code (f : Function) : Code :=
  Code.blank ++ Code.block f.signatureLine (Code.line f.body.statement)

def includes (f : Function) : List String :=
  f.parameters.flatMap (·.spelling.include.toList) ++ f.result.include.toList

end Function

def self (t : ApiType) : Declared := .plain (t.name ++ "*") "obj"

def selfOf (t : ApiType) (isStatic : Bool) : List Declared := if isStatic then [] else [self t]

def receiverOf (t : ApiType) (isStatic : Bool) : Receiver :=
  if isStatic then .type t.name else .object

/-- The native spelling of an array as a result, which is the type of its snapshots. -/
def vectorOf (s : Schema) (type : TypeRef) : Except Failure String := s.literal .native .result type

def argumentOf (s : Schema) (p : Parameter) : Except Failure Argument := do
  match ← s.shape .flat p.type with
  | .text _ => return .decoded p.name
  | .class _ false => return .dereferenced p.name
  | .array _ => return .gathered (← vectorOf s p.type) p.name
  | _ => return .asIs p.name

def argumentsOf (s : Schema) : List Parameter → Except Failure (List Argument)
  | [] => .ok []
  | p :: ps => do
    let a ← argumentOf s p
    let as ← argumentsOf s ps
    return a :: as

def answerOf : Shape → Answer
  | .void => .dropped
  | .text _ => .encoded
  | .class _ false => .addressed
  | _ => .asIs

/-- An item of a snapshot holds classes by pointer already. -/
def itemAnswerOf : Shape → Answer
  | .text _ => .encoded
  | _ => .asIs

def memberFunction (s : Schema) (t : ApiType) (name : String) (m : Member) :
    Except Failure Function := do
  let signature := t.signature m
  let parameters ← s.declareFlat .flat signature.parameters
  let result ← s.resolve .flat .result signature.returns
  let arguments ← argumentsOf s signature.parameters
  let answer ← (s.shape .flat signature.returns).map answerOf
  let receiver := receiverOf t signature.isStatic
  return ⟨name, result, selfOf t signature.isStatic ++ parameters,
    .call answer receiver signature.name arguments⟩

def arrayFunction (s : Schema) (t : ApiType) (name : String) (index : Nat) (step : ArrayStep) :
    Except Failure Function := do
  let p := t.property index
  match p.type with
  | .array element =>
    let vector ← vectorOf s p.type
    let self := selfOf t p.isStatic
    let array := Declared.plain "void*" "array"
    match step with
    | .openArray =>
      return ⟨name, ⟨"void*", none⟩, self, .openArray vector (receiverOf t p.isStatic) p.name⟩
    | .countItems => return ⟨name, ⟨"int", none⟩, self ++ [array], .countItems vector⟩
    | .itemAt =>
      let result ← s.resolve .flat .result element
      let answer ← (s.shape .flat element).map itemAnswerOf
      return ⟨name, result, self ++ [array, .plain "int" "index"], .itemAt vector answer⟩
    | .closeArray => return ⟨name, ⟨"void", none⟩, self ++ [array], .closeArray vector⟩
  | other => throw (.unsupportedType .flat "array accessors" other.display)

def functionOf (s : Schema) (t : ApiType) (e : Export) : Except Failure Function :=
  match e.kind with
  | .create => .ok ⟨e.name, ⟨t.name ++ "*", none⟩, [], .construct t.name⟩
  | .destroy => .ok ⟨e.name, ⟨"void", none⟩, [self t], .delete⟩
  | .member m => memberFunction s t e.name m
  | .arrayAccess index step => arrayFunction s t e.name index step
  | .setEventCallback =>
    let callback := .plain (t.name ++ "::" ++ t.name ++ "EventCallbackType") "callback"
    .ok ⟨e.name, ⟨"void", none⟩, [callback], .setEventCallback t.name⟩
  | .setTrampolineLocator =>
    let callback := .plain (t.name ++ "::Managed::TTrampolineLocatorCallback") "callback"
    .ok ⟨e.name, ⟨"void", none⟩, [callback], .setTrampolineLocator t.name⟩
  | .setManagedHandle =>
    .ok ⟨e.name, ⟨"void", none⟩, [self t, .plain "void*" "handle"], .setManagedHandle⟩

def functionsOf (s : Schema) (t : ApiType) : List Export → Except Failure (List Function)
  | [] => .ok []
  | e :: es => do
    let f ← functionOf s t e
    let fs ← functionsOf s t es
    return f :: fs

end Shim

structure Shim where
  type : ApiType
  functions : List Shim.Function
  deriving DecidableEq, Repr

namespace Shim

def ofClass (s : Schema) (t : ApiType) (exports : ExportTable) : Except Failure Shim :=
  (functionsOf s t exports.entries).map (Shim.mk t)

def symbols (shim : Shim) : List String := shim.functions.map Function.symbol

def includes (shim : Shim) : IncludeSet :=
  (IncludeSet.ofList (shim.functions.flatMap Function.includes)).remove shim.type.header

def preamble (shim : Shim) : List String :=
  ["#pragma once", "", Code.includeLine ("../" ++ shim.type.header),
      Code.includeLine "ApiSupport.h"] ++
    shim.includes.entries.map fun header => Code.includeLine ("../" ++ header)

def code (shim : Shim) : Code := Code.lines shim.preamble ++ shim.functions.flatMap Function.code

end Shim

end InteropGen
