import InteropGen.Code.Line
import InteropGen.Dialect.Declared
import InteropGen.Surface.SlotTable

set_option autoImplicit false

/-!
# Trampolines, native half

The native class of a managed server holds a nested structure that enumerates the slots, keeps the
locator that is installed once, and has one typed wrapper for each slot.  A wrapper asks the locator
for the entry point of its slot and calls it.
-/

namespace InteropGen

structure SlotWrapper where
  slot : String
  result : Spelling
  /-- The result is void. -/
  isVoid : Bool
  parameters : List Declared
  deriving DecidableEq, Repr

namespace SlotWrapper

def selfOf (isStatic : Bool) : List Declared := if isStatic then [] else [.plain "void*" "obj"]

def ofSlot (s : Schema) (t : ApiType) (slot : Slot) : Except Failure SlotWrapper := do
  let signature := t.signature slot.member
  let result ← s.resolve .flat .result signature.returns
  let parameters ← s.declareAll .flat signature.parameters
  return ⟨slot.name, result, signature.returns.isVoid, selfOf signature.isStatic ++ parameters⟩

def ofSlots (s : Schema) (t : ApiType) : List Slot → Except Failure (List SlotWrapper)
  | [] => .ok []
  | slot :: slots => do
    let w ← ofSlot s t slot
    let ws ← ofSlots s t slots
    return w :: ws

def call (w : SlotWrapper) : String :=
  "reinterpret_cast<T" ++ w.slot ++ ">(Locate(Trampoline::" ++ w.slot ++ "))(" ++
    ", ".intercalate (w.parameters.map Declared.name) ++ ")"

def typedefLine (w : SlotWrapper) : String :=
  "typedef " ++ w.result.literal ++ " (NATIVE_CALLBACK_CALL* T" ++ w.slot ++ ")(" ++
    Declared.join w.parameters ++ ");"

def signatureLine (w : SlotWrapper) : String :=
  "static " ++ w.result.literal ++ " " ++ w.slot ++ "(" ++ Declared.join w.parameters ++ ")"

def statement (w : SlotWrapper) : String :=
  if w.isVoid then w.call ++ ";" else "return " ++ w.call ++ ";"

def code (w : SlotWrapper) : Code :=
  Code.blank ++ Code.line w.typedefLine ++
    Code.blank ++ Code.block w.signatureLine (Code.line w.statement)

end SlotWrapper

structure NativeTrampolines where
  typeName : String
  wrappers : List SlotWrapper
  deriving DecidableEq, Repr

namespace NativeTrampolines

def ofTable (s : Schema) (t : ApiType) (table : SlotTable) : Except Failure NativeTrampolines :=
  (SlotWrapper.ofSlots s t table.slots).map (NativeTrampolines.mk t.name)

def enumerators (n : NativeTrampolines) : List String := n.wrappers.map SlotWrapper.slot

def setter : Code :=
  Code.block "static void SetTrampolineLocatorCallback(TTrampolineLocatorCallback value)" <|
    Code.lines
      ["TTrampolineLocatorCallback expected = nullptr;",
        "Locator().compare_exchange_strong(expected, value);"]

def locator : Code :=
  Code.block "static std::atomic<TTrampolineLocatorCallback>& Locator()" <|
    Code.lines
      ["static std::atomic<TTrampolineLocatorCallback> locator\x7bnullptr\x7d;", "return locator;"]

def locate (n : NativeTrampolines) : Code :=
  Code.block "static void* Locate(Trampoline trampoline)" <|
    Code.lines
        ["TTrampolineLocatorCallback callback = Locator().load();", "if (callback == nullptr)"] ++
      Code.nest
        (Code.line ("throw TrampolineLocatorNotSetException(\"" ++ n.typeName ++ "\");")) ++
      Code.lines ["void* entry = callback(trampoline);", "if (entry == nullptr)"] ++
      Code.nest
        (Code.line ("throw UnknownTrampolineException(\"" ++ n.typeName ++
          "\", static_cast<int>(trampoline));")) ++
      Code.line "return entry;"

def locatorType : String :=
  "typedef void* (NATIVE_CALLBACK_CALL* TTrampolineLocatorCallback)(Trampoline trampoline);"

def body (n : NativeTrampolines) : Code :=
  Code.blockEnding "enum class Trampoline" ";" (Code.lines (n.enumerators.map (· ++ ","))) ++
    Code.blank ++ Code.line locatorType ++
    Code.blank ++ setter ++
    n.wrappers.flatMap SlotWrapper.code ++
    Code.blank ++ Code.line "private:" ++ locator ++
    Code.blank ++ n.locate

def code (n : NativeTrampolines) : Code :=
  Code.line "public:" ++ Code.nest (Code.blockEnding "struct Managed" ";" n.body)

end NativeTrampolines

end InteropGen
