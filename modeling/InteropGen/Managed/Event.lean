import InteropGen.Managed.Call

set_option autoImplicit false

/-!
# Events of a wrapper

Native code raises all events of a class through one callback.  The wrapper finds the instance and
raises the event that the number stands for, with the struct that the event carries, with a chance
to cancel, or with nothing.
-/

namespace InteropGen

inductive EventKind where
  /-- The event carries a struct. -/
  | payload (struct : String)
  | cancellable
  | plain
  deriving DecidableEq, Repr

structure WrappedEvent where
  name : String
  kind : EventKind
  deriving DecidableEq, Repr

namespace WrappedEvent

def ofEvent (s : Schema) (e : Event) : Except Failure WrappedEvent :=
  match e.data with
  | none => .ok ⟨e.name, if e.cancellable then .cancellable else .plain⟩
  | some type =>
    s.shape .managed type >>= fun
      | .struct t => .ok ⟨e.name, .payload t.name⟩
      | _ => .error (.unsupportedType .managed "non-struct event payloads" type.display)

def ofEvents (s : Schema) : List Event → Except Failure (List WrappedEvent)
  | [] => .ok []
  | e :: es => do
    let w ← ofEvent s e
    let ws ← ofEvents s es
    return w :: ws

def raising (e : WrappedEvent) : List String :=
  match e.kind with
  | .payload struct =>
    ["var ea = new NativeEventArgs<" ++ struct ++ ">(Marshal.PtrToStructure<" ++ struct ++
        ">(parameter));",
      e.name ++ "?.Invoke(this, ea); return ea.Result;"]
  | .cancellable =>
    ["var cea = new CancelEventArgs();", e.name ++ "?.Invoke(this, cea);",
      "return cea.Cancel ? new IntPtr(1) : IntPtr.Zero;"]
  | .plain => [e.name ++ "?.Invoke(); return IntPtr.Zero;"]

def declaration (e : WrappedEvent) : String :=
  match e.kind with
  | .payload struct => "public event NativeEventHandler<" ++ struct ++ ">? " ++ e.name ++ ";"
  | .cancellable => "public event EventHandler<CancelEventArgs>? " ++ e.name ++ ";"
  | .plain => "public Action? " ++ e.name ++ ";"

def caseLine (typeName : String) (e : WrappedEvent) : String :=
  "case NativeApi." ++ typeName ++ "Event." ++ e.name ++ ":"

def code (typeName : String) (e : WrappedEvent) : Code :=
  Code.block (e.caseLine typeName) (Code.lines e.raising)

end WrappedEvent

structure WrappedEvents where
  type : ApiType
  events : List WrappedEvent
  deriving DecidableEq, Repr

namespace WrappedEvents

def ofClass (s : Schema) (t : ApiType) : Except Failure WrappedEvents :=
  (WrappedEvent.ofEvents s t.events).map (WrappedEvents.mk t)

def ofClass? (s : Schema) (t : ApiType) : Except Failure (Option WrappedEvents) :=
  if t.hasEvents then (ofClass s t).map some else .ok none

def names (w : WrappedEvents) : List String := w.events.map WrappedEvent.name

def registrationCall (w : WrappedEvents) : NativeCall :=
  ⟨w.type.name ++ "_SetEventCallback", [.asIs "sink"]⟩

def sink (objectClass : String) (w : WrappedEvents) : Code :=
  Code.lines
    ["var w = " ++ Managed.lookup objectClass w.type "obj" ++ ";",
      "if (w == null) return IntPtr.Zero;", "return w.OnEvent(e, parameter);"]

def registration (objectClass : String) (w : WrappedEvents) : Code :=
  Code.block "static void SetEventCallback()" <|
    Code.block "if (!eventCallbackGCHandle.IsAllocated)" <|
      Code.line
          ("var sink = new NativeApi." ++ w.type.name ++
            "EventCallbackType((obj, e, parameter) =>") ++
        Code.braces (w.sink objectClass) ++
        Code.lines
          [");", "eventCallbackGCHandle = GCHandle.Alloc(sink);",
            w.registrationCall.statement]

def dispatch (w : WrappedEvents) : Code :=
  Code.block ("IntPtr OnEvent(NativeApi." ++ w.type.name ++ "Event e, IntPtr parameter)") <|
    Code.block "switch (e)" <|
      w.events.flatMap (WrappedEvent.code w.type.name) ++
        Code.line
          ("default: throw new Exception(\"Unexpected " ++ w.type.name ++ "Event value: \" + e);")

def code (objectClass : String) (w : WrappedEvents) : Code :=
  Code.blank ++ Code.line "static GCHandle eventCallbackGCHandle;" ++
    Code.blank ++ w.registration objectClass ++
    Code.blank ++ w.dispatch ++
    Code.blank ++ Code.lines (w.events.map WrappedEvent.declaration)

end WrappedEvents

end InteropGen
