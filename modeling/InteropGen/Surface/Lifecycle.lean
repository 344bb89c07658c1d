import InteropGen.Schema.Basic

set_option autoImplicit false

/-!
# Life of an instance

Instances are created and destroyed from the managed side where the declared visibility allows it.
An instance of a managed server carries a handle to its managed half; the first server of a chain of
bases declares the storage, and the types below it inherit it.
-/

namespace InteropGen

namespace ApiType

def isCreatable (t : ApiType) : Bool := t.constructor.isPublic && !t.isAbstract

def isDestroyable (t : ApiType) : Bool := t.destructor.isPublic

def hasEvents (t : ApiType) : Bool := !t.events.isEmpty

end ApiType

namespace Schema

/-- The nearest proper ancestor that is a managed server. -/
def serverBase (s : Schema) (t : ApiType) : Option ApiType :=
  (s.ancestors t).find? ApiType.managedServer

def hasHandle (s : Schema) (t : ApiType) : Bool := t.managedServer || (s.serverBase t).isSome

/-- The type declares the storage of the handle. -/
def ownsHandle (s : Schema) (t : ApiType) : Bool := t.managedServer && (s.serverBase t).isNone

end Schema

end InteropGen
