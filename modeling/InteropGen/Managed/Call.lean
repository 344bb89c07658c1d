import InteropGen.Code.Line
import InteropGen.Dialect.Declared
import InteropGen.Managed.Expression
import InteropGen.Surface.ExportTable

set_option autoImplicit false

/-!
# Calls of imports

The members of a wrapper call imports.  A wrapper object is handed over as its handle, an array as
its items and their number, and a handle that comes back is looked up as a wrapper object.
-/

namespace InteropGen

inductive Operand where
  | asIs (expression : String)
  /-- The handle of a wrapper object. -/
  | handle (isNullable : Bool) (name : String)
  /-- The handles of the wrapper objects in an array. -/
  | handles (type name : String)
  deriving DecidableEq, Repr

namespace Operand

def text : Operand → String
  | asIs expression => expression
  | handle isNullable name => Managed.unwrap isNullable name
  | handles type name =>
    "Array.ConvertAll<" ++ type ++ ", IntPtr>(" ++ name ++ ", x => x.NativePointer)"

def self : Operand := asIs "NativePointer"

def selfOf (isStatic : Bool) : List Operand := if isStatic then [] else [self]

/-- The length of an array goes with its items. -/
def lengths (p : Parameter) : List Operand :=
  if p.type.isArray then [asIs (p.name ++ ".Length")] else []

def ofShape (name : String) : Shape → Operand
  | .class _ isNullable => handle isNullable name
  | .array (.class t _) => handles t.name name
  | _ => asIs name

def ofParameter (s : Schema) (p : Parameter) : Except Failure Operand :=
  (s.shape .managed p.type).map (ofShape p.name)

def ofParameters (s : Schema) : List Parameter → Except Failure (List Operand)
  | [] => .ok []
  | p :: ps => do
    let o ← ofParameter s p
    let os ← ofParameters s ps
    return o :: (lengths p ++ os)

end Operand

structure NativeCall where
  symbol : String
  operands : List Operand
  deriving DecidableEq, Repr

namespace NativeCall

def text (c : NativeCall) : String :=
  "NativeApi." ++ c.symbol ++ "(" ++ ", ".intercalate (c.operands.map Operand.text) ++ ")"

def statement (c : NativeCall) : String := c.text ++ ";"

end NativeCall

inductive Outcome where
  | dropped
  | returned
  /-- The result is a handle, which the member releases after the lookup. -/
  | wrapped (type : ApiType) (isNullable : Bool)
  deriving DecidableEq, Repr

def Outcome.ofShape : Shape → Outcome
  | .void => .dropped
  | .class t isNullable => .wrapped t isNullable
  | _ => .returned

def Outcome.lines (objectClass : String) (call : NativeCall) : Outcome → List String
  | .dropped => [call.statement]
  | .returned => ["return " ++ call.statement]
  | .wrapped t isNullable =>
    ["var _handle = " ++ call.statement,
      "var _result = " ++ Managed.wrap objectClass t isNullable "_handle" ++ ";",
      "ReleaseNativeObjectPointer(_handle);", "return _result;"]

/-- What an instance member does once its native object is gone. -/
def guardCode (isStatic isVoid : Bool) : Code :=
  if isStatic then []
  else
    Code.line "if (IsNativeObjectDestroyed)" ++
      Code.nest (Code.line (if isVoid then "return;" else "return default!;"))

structure CallBody where
  isStatic : Bool
  isVoid : Bool
  call : NativeCall
  outcome : Outcome
  deriving DecidableEq, Repr

namespace CallBody

def ofMember (s : Schema) (t : ApiType) (m : Member) (symbol : String) :
    Except Failure CallBody := do
  let signature := t.signature m
  let operands ← Operand.ofParameters s signature.parameters
  let outcome ← (s.shape .managed signature.returns).map Outcome.ofShape
  return ⟨signature.isStatic, signature.returns.isVoid,
    ⟨symbol, Operand.selfOf signature.isStatic ++ operands⟩, outcome⟩

def code (objectClass : String) (b : CallBody) : Code :=
  guardCode b.isStatic b.isVoid ++ Code.lines (b.outcome.lines objectClass b.call)

end CallBody

structure ArrayBody where
  isStatic : Bool
  element : Spelling
  /-- The class of the items, which arrive as handles. -/
  wraps : Option ApiType
  openCall : NativeCall
  countCall : NativeCall
  itemCall : NativeCall
  closeCall : NativeCall
  deriving DecidableEq, Repr

namespace ArrayBody

def operands (isStatic : Bool) : ArrayStep → List Operand
  | .openArray => Operand.selfOf isStatic
  | .countItems => Operand.selfOf isStatic ++ [.asIs "array"]
  | .itemAt => Operand.selfOf isStatic ++ [.asIs "array", .asIs "i"]
  | .closeArray => Operand.selfOf isStatic ++ [.asIs "array"]

def stepCall (exports : ExportTable) (index : Nat) (p : Property) (step : ArrayStep) :
    Except Failure NativeCall :=
  match exports.find? (.arrayAccess index step) with
  | some e => .ok ⟨e.name, operands p.isStatic step⟩
  | none => .error (.unsupportedType .managed "array accessors" p.type.display)

def itemClass : Shape → Option ApiType
  | .class t _ => some t
  | _ => none

def ofProperty (s : Schema) (exports : ExportTable) (index : Nat) (p : Property)
    (element : TypeRef) : Except Failure ArrayBody := do
  let spelling ← s.resolve .managed .result element
  let openCall ← stepCall exports index p .openArray
  let countCall ← stepCall exports index p .countItems
  let itemCall ← stepCall exports index p .itemAt
  let closeCall ← stepCall exports index p .closeArray
  let wraps ← (s.shape .managed element).map itemClass
  return ⟨p.isStatic, spelling, wraps, openCall, countCall, itemCall, closeCall⟩

def itemLines (objectClass : String) (b : ArrayBody) : List String :=
  match b.wraps with
  | some t =>
    ["var item = " ++ Managed.wrap objectClass t false "n" ++ ";",
      "ReleaseNativeObjectPointer(n);", "result.Add(item);"]
  | none => ["result.Add(n);"]

def reading (objectClass : String) (b : ArrayBody) : Code :=
  Code.lines
      ["var count = " ++ b.countCall.statement,
        "var result = new System.Collections.Generic.List<" ++ b.element.literal ++ ">(count);"] ++
    Code.block "for (int i = 0; i < count; i++)"
      (Code.line ("var n = " ++ b.itemCall.statement) ++ Code.lines (b.itemLines objectClass)) ++
    Code.line "return result.ToArray();"

def code (objectClass : String) (b : ArrayBody) : Code :=
  guardCode b.isStatic false ++
    Code.line ("var array = " ++ b.openCall.statement) ++
    Code.block "try" (b.reading objectClass) ++
    Code.block "finally" (Code.line b.closeCall.statement)

/-- The calls in the order in which they are made. -/
def calls (b : ArrayBody) : List NativeCall := [b.openCall, b.countCall, b.itemCall, b.closeCall]

end ArrayBody

end InteropGen
