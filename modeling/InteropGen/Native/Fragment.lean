import InteropGen.Code.Header
import InteropGen.Native.Trampoline
import InteropGen.Surface.Lifecycle

set_option autoImplicit false

/-!
# The generated part of a native class

The fragment stands at the top of a class that is otherwise written by hand.  It declares all that
the shim calls: the members, the plumbing of events and trampolines, and the storage of the managed
handle.
-/

namespace InteropGen

structure NativeMember where
  member : Member
  name : String
  isStatic : Bool
  result : Spelling
  /-- The result is void. -/
  isVoid : Bool
  parameters : List Declared
  deriving DecidableEq, Repr

namespace NativeMember

def ofMember (s : Schema) (t : ApiType) (m : Member) : Except Failure NativeMember := do
  let signature := t.signature m
  let result ← s.resolve .native .result signature.returns
  let parameters ← s.declareAll .native signature.parameters
  return ⟨m, signature.name, signature.isStatic, result, signature.returns.isVoid, parameters⟩

def ofMembers (s : Schema) (t : ApiType) : List Member → Except Failure (List NativeMember)
  | [] => .ok []
  | m :: ms => do
    let n ← ofMember s t m
    let ns ← ofMembers s t ms
    return n :: ns

def ofClass (s : Schema) (t : ApiType) : Except Failure (List NativeMember) :=
  ofMembers s t t.members

def declaration (n : NativeMember) : String :=
  (if n.isStatic then "static " else "") ++ n.result.literal ++ " " ++ n.name ++ "(" ++
    Declared.join n.parameters ++ ");"

end NativeMember

structure NativeEvents where
  typeName : String
  names : List String
  /-- A base whose own function for raising events would be hidden. -/
  hiddenBase : Option String
  deriving DecidableEq, Repr

namespace NativeEvents

def ofClass (s : Schema) (t : ApiType) : NativeEvents :=
  ⟨t.name, t.events.map Event.name, ((s.baseOf t).filter ApiType.hasEvents).map ApiType.name⟩

def callbackType (e : NativeEvents) : String := e.typeName ++ "EventCallbackType"

def typedefLine (e : NativeEvents) : String :=
  "typedef void* (NATIVE_CALLBACK_CALL* " ++ e.callbackType ++ ")(" ++ e.typeName ++ "* obj, " ++
    e.typeName ++ "Event event, void* parameter);"

def callbackSetter (e : NativeEvents) : Code :=
  Code.block ("static void SetEventCallback(" ++ e.callbackType ++ " value)")
    (Code.line "EventCallback() = value;")

def raise (e : NativeEvents) : Code :=
  Code.block ("void* RaiseEvent(" ++ e.typeName ++ "Event event, void* parameter = nullptr)") <|
    Code.lines [e.callbackType ++ " callback = EventCallback();", "if (callback == nullptr)"] ++
      Code.nest (Code.line "return nullptr;") ++
      Code.line "return callback(this, event, parameter);"

def storage (e : NativeEvents) : Code :=
  Code.block ("static " ++ e.callbackType ++ "& EventCallback()") <|
    Code.lines ["static " ++ e.callbackType ++ " callback = nullptr;", "return callback;"]

def revealed (e : NativeEvents) : Code :=
  match e.hiddenBase with
  | none => []
  | some base => Code.line ("using " ++ base ++ "::RaiseEvent;") ++ Code.blank

def code (e : NativeEvents) : Code :=
  Code.line "public:" ++
    Code.nest
      (Code.blockEnding ("enum class " ++ e.typeName ++ "Event") ";"
          (Code.lines (e.names.map (· ++ ","))) ++
        Code.blank ++ Code.line e.typedefLine ++
        Code.blank ++ e.callbackSetter) ++
    Code.blank ++ Code.line "protected:" ++ Code.nest (e.revealed ++ e.raise) ++
    Code.blank ++ Code.line "private:" ++ Code.nest e.storage

end NativeEvents

structure Fragment where
  type : ApiType
  members : List NativeMember
  events : Option NativeEvents
  trampolines : Option NativeTrampolines
  ownsHandle : Bool
  deriving DecidableEq, Repr

namespace Fragment

def ofClass (s : Schema) (t : ApiType) (table : Option SlotTable) : Except Failure Fragment := do
  let members ← NativeMember.ofClass s t
  let trampolines ← table.mapM (NativeTrampolines.ofTable s t)
  let events := if t.hasEvents then some (NativeEvents.ofClass s t) else none
  return ⟨t, members, events, trampolines, s.ownsHandle t⟩

def slotOrder? (f : Fragment) : Option (List String) :=
  f.trampolines.map NativeTrampolines.enumerators

def constructorLine (t : ApiType) : String := t.name ++ "();"

def destructorLine (t : ApiType) : String := "virtual ~" ++ t.name ++ "();"

/-- The constructor and destructor that the condition selects by their visibility. -/
def lifecycle (t : ApiType) (selects : Visibility → Bool) : Code :=
  Code.given (selects t.constructor) (Code.line (constructorLine t)) ++
    Code.given (selects t.destructor) (Code.line (destructorLine t))

def publicPart (f : Fragment) : Code :=
  Code.line "public:" ++
    Code.nest
      (lifecycle f.type Visibility.isPublic ++
        Code.apart (Code.lines (f.members.map NativeMember.declaration)))

def handlePart : Code :=
  Code.line "public:" ++
    Code.nest
      (Code.block "void SetManagedHandle(void* value)" (Code.line "managedHandle = value;") ++
        Code.block "void* GetManagedHandle() const" (Code.line "return managedHandle;")) ++
    Code.blank ++ Code.line "private:" ++
    Code.nest (Code.line "void* managedHandle = nullptr;")

def isHidden (v : Visibility) : Bool := !v.isPublic

def privatePart (t : ApiType) : Code := Code.line "private:" ++ Code.nest (lifecycle t isHidden)

def code (f : Fragment) : Code :=
  f.publicPart ++
    (f.events.map fun e => Code.blank ++ e.code).getD [] ++
    (f.trampolines.map fun n => Code.blank ++ n.code).getD [] ++
    Code.given f.ownsHandle (Code.blank ++ handlePart) ++
    Code.given (isHidden f.type.constructor || isHidden f.type.destructor)
      (Code.blank ++ privatePart f.type)

end Fragment

end InteropGen
