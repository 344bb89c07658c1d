import InteropGen.Code.Header
import InteropGen.Managed.Call
import InteropGen.Surface.SlotTable

set_option autoImplicit false

/-!
# Trampolines, managed half

The imports of a managed server enumerate its slots and declare a delegate type for each.  Its
wrapper pins a delegate when native code first asks for a slot, and has one function for each slot
that finds the instance and calls the member.
-/

namespace InteropGen

def handleParameter : Declared := .plain "IntPtr" "obj"

def handleOf (isStatic : Bool) : List Declared := if isStatic then [] else [handleParameter]

def callbackAttribute (c : Config) : String :=
  "[UnmanagedFunctionPointer(" ++ c.native.convention.managed ++ ")]"

structure SlotDelegate where
  slot : String
  /-- How the result is marshalled. -/
  marshalling : Option String
  result : Spelling
  parameters : List Declared
  deriving DecidableEq, Repr

namespace SlotDelegate

def ofSlot (s : Schema) (t : ApiType) (slot : Slot) : Except Failure SlotDelegate := do
  let signature := t.signature slot.member
  let parameters ← s.declareAll .binding signature.parameters
  let result ← s.resolve .binding .result signature.returns
  let marshalling ← s.returnAttribute signature.returns
  return ⟨slot.name, marshalling, result, handleOf signature.isStatic ++ parameters⟩

def ofSlots (s : Schema) (t : ApiType) : List Slot → Except Failure (List SlotDelegate)
  | [] => .ok []
  | slot :: slots => do
    let d ← ofSlot s t slot
    let ds ← ofSlots s t slots
    return d :: ds

def line (typeName : String) (d : SlotDelegate) : String :=
  "public delegate " ++ d.result.literal ++ " " ++ typeName ++ d.slot ++ "Trampoline(" ++
    Declared.join d.parameters ++ ");"

def code (c : Config) (typeName : String) (d : SlotDelegate) : Code :=
  Code.blank ++ Code.line (callbackAttribute c) ++ Code.lines d.marshalling.toList ++
    Code.line (d.line typeName)

end SlotDelegate

structure SlotDelegates where
  typeName : String
  delegates : List SlotDelegate
  deriving DecidableEq, Repr

namespace SlotDelegates

def ofTable (s : Schema) (t : ApiType) (table : SlotTable) : Except Failure SlotDelegates :=
  (SlotDelegate.ofSlots s t table.slots).map (SlotDelegates.mk t.name)

def enumerators (d : SlotDelegates) : List String := d.delegates.map SlotDelegate.slot

def locatorLine (d : SlotDelegates) : String :=
  "public delegate IntPtr " ++ d.typeName ++ "TrampolineLocatorCallback(" ++ d.typeName ++
    "Trampoline trampoline);"

def code (c : Config) (d : SlotDelegates) : Code :=
  Code.block ("public enum " ++ d.typeName ++ "Trampoline")
      (Code.lines (d.enumerators.map (· ++ ","))) ++
    Code.blank ++ Code.line (callbackAttribute c) ++ Code.line d.locatorLine ++
    d.delegates.flatMap (SlotDelegate.code c d.typeName)

end SlotDelegates

/-- How a slot hands an argument to the member. -/
inductive Handed where
  | asIs (name : String)
  /-- The wrapper of a handle. -/
  | wrapped (type : ApiType) (isNullable : Bool) (name : String)
  deriving DecidableEq, Repr

def Handed.text (objectClass : String) : Handed → String
  | .asIs name => name
  | .wrapped type isNullable name => Managed.wrap objectClass type isNullable name

inductive Access where
  | read (property : String)
  | assign (property : String)
  | call (method : String)
  deriving DecidableEq, Repr

def Access.text (target arguments : String) : Access → String
  | .read property => target ++ "." ++ property
  | .assign property => target ++ "." ++ property ++ " = " ++ arguments
  | .call method => target ++ "." ++ method ++ "(" ++ arguments ++ ")"

inductive Returned where
  | nothing
  | asIs
  /-- The handle of a wrapper. -/
  | unwrapped (isNullable : Bool)
  deriving DecidableEq, Repr

def Returned.statement (invocation : String) : Returned → String
  | .nothing => invocation ++ ";"
  | .asIs => "return " ++ invocation ++ ";"
  | .unwrapped isNullable => "return " ++ Managed.unwrap isNullable invocation ++ ";"

structure SlotHandler where
  slot : String
  isStatic : Bool
  result : Spelling
  parameters : List Declared
  access : Access
  arguments : List Handed
  returned : Returned
  deriving DecidableEq, Repr

namespace SlotHandler

/-- A parameter without marshalling attributes, and how the member gets it. -/
def parameterOf (s : Schema) (p : Parameter) : Except Failure (Declared × Handed) := do
  let spelling ← s.resolve .binding .result p.type
  let shape ← s.shape .managed p.type
  let handed := match shape with
    | .class type isNullable => Handed.wrapped type isNullable p.name
    | _ => .asIs p.name
  return (⟨spelling, p.name⟩, handed)

def parametersOf (s : Schema) : List Parameter → Except Failure (List (Declared × Handed))
  | [] => .ok []
  | p :: ps => do
    let d ← parameterOf s p
    let ds ← parametersOf s ps
    return d :: ds

def accessOf (t : ApiType) : Member → Access
  | .getter i => .read (t.property i).name
  | .setter i => .assign (t.property i).name
  | .method i => .call (t.method i).name

def returnedOf : Shape → Returned
  | .void => .nothing
  | .class _ isNullable => .unwrapped isNullable
  | _ => .asIs

def ofSlot (s : Schema) (t : ApiType) (slot : Slot) : Except Failure SlotHandler := do
  let signature := t.signature slot.member
  let parameters ← parametersOf s signature.parameters
  let result ← s.resolve .binding .result signature.returns
  let returned ← (s.shape .managed signature.returns).map returnedOf
  return ⟨slot.name, signature.isStatic, result,
    handleOf signature.isStatic ++ parameters.map Prod.fst, accessOf t slot.member,
    parameters.map Prod.snd, returned⟩

def ofSlots (s : Schema) (t : ApiType) : List Slot → Except Failure (List SlotHandler)
  | [] => .ok []
  | slot :: slots => do
    let h ← ofSlot s t slot
    let hs ← ofSlots s t slots
    return h :: hs

def signatureLine (h : SlotHandler) : String :=
  "static " ++ h.result.literal ++ " Trampoline" ++ h.slot ++ "(" ++
    Declared.join h.parameters ++ ")"

def invocation (objectClass typeName : String) (h : SlotHandler) : String :=
  h.access.text (if h.isStatic then typeName else "target")
    (", ".intercalate (h.arguments.map (Handed.text objectClass)))

def code (objectClass typeName : String) (h : SlotHandler) : Code :=
  Code.blank ++
    Code.block h.signatureLine
      (Code.given (!h.isStatic)
          (Code.line ("var target = (" ++ typeName ++ ")GCHandle.FromIntPtr(obj).Target!;")) ++
        Code.line (h.returned.statement (h.invocation objectClass typeName)))

end SlotHandler

structure Dispatch where
  typeName : String
  handlers : List SlotHandler
  deriving DecidableEq, Repr

namespace Dispatch

def ofTable (s : Schema) (t : ApiType) (table : SlotTable) : Except Failure Dispatch :=
  (SlotHandler.ofSlots s t table.slots).map (Dispatch.mk t.name)

/-- The slots that can be pinned, in order. -/
def arms (d : Dispatch) : List String := d.handlers.map SlotHandler.slot

def slotEnum (d : Dispatch) : String := "NativeApi." ++ d.typeName ++ "Trampoline"

def storage (d : Dispatch) : Code :=
  Code.lines
    ["static readonly ConcurrentDictionary<" ++ d.slotEnum ++
        ", Lazy<(GCHandle Pin, IntPtr Pointer)>> trampolines = new();",
      "static readonly NativeApi." ++ d.typeName ++
        "TrampolineLocatorCallback trampolineLocator = LocateTrampoline;",
      "static int trampolineLocatorRegistered;"]

def registrationCall (d : Dispatch) : NativeCall :=
  ⟨d.typeName ++ "_SetTrampolineLocatorCallback", [.asIs "trampolineLocator"]⟩

def registration (d : Dispatch) : Code :=
  Code.block "static void SetTrampolineLocator()" <|
    Code.line "if (Interlocked.Exchange(ref trampolineLocatorRegistered, 1) != 0)" ++
      Code.nest (Code.line "return;") ++
      Code.line d.registrationCall.statement

def locate (d : Dispatch) : Code :=
  Code.block ("static IntPtr LocateTrampoline(" ++ d.slotEnum ++ " trampoline)") <|
    Code.line ("if (!Enum.IsDefined(typeof(" ++ d.slotEnum ++ "), trampoline))") ++
      Code.nest (Code.line "return IntPtr.Zero;") ++
      Code.line "return trampolines.GetOrAdd(" ++
      Code.nest
        (Code.lines
          ["trampoline,",
            "slot => new Lazy<(GCHandle Pin, IntPtr Pointer)>(() => " ++
              "PinTrampoline(slot))).Value.Pointer;"])

def arm (d : Dispatch) (slot : String) : String :=
  d.slotEnum ++ "." ++ slot ++ " => new NativeApi." ++ d.typeName ++ slot ++
    "Trampoline(Trampoline" ++ slot ++ "),"

def pin (d : Dispatch) : Code :=
  Code.block
      ("static (GCHandle Pin, IntPtr Pointer) PinTrampoline(" ++ d.slotEnum ++ " trampoline)") <|
    Code.blockEnding "Delegate callable = trampoline switch" ";"
        (Code.lines (d.arms.map d.arm) ++
          Code.line "_ => throw new ArgumentOutOfRangeException(nameof(trampoline)),") ++
      Code.lines
        ["var pin = GCHandle.Alloc(callable);",
          "return (pin, Marshal.GetFunctionPointerForDelegate(callable));"]

def code (objectClass : String) (d : Dispatch) : Code :=
  d.storage ++ Code.blank ++ d.registration ++ Code.blank ++ d.locate ++ Code.blank ++ d.pin ++
    d.handlers.flatMap (SlotHandler.code objectClass d.typeName)

end Dispatch

end InteropGen
