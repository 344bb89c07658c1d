import InteropGen.Schema.Basic

set_option autoImplicit false

/-!
# Handles and wrappers in managed code

On the boundary an instance is a handle.  Managed code looks its wrapper up, making one where there
is none yet, and takes the handle out of a wrapper to hand it over.
-/

namespace InteropGen

namespace Managed

/-- How a missing wrapper is made; abstract classes have no wrappers of their own. -/
def factory (t : ApiType) : String :=
  if t.isAbstract then "null" else "p => new " ++ t.name ++ "(p)"

def lookup (objectClass : String) (t : ApiType) (handle : String) : String :=
  objectClass ++ ".GetFromNativePointer<" ++ t.name ++ ">(" ++ handle ++ ", " ++ factory t ++ ")"

def wrap (objectClass : String) (t : ApiType) (isNullable : Bool) (handle : String) : String :=
  lookup objectClass t handle ++ (if isNullable then "" else "!")

def unwrap (isNullable : Bool) (wrapper : String) : String :=
  if isNullable then wrapper ++ "?.NativePointer ?? IntPtr.Zero" else wrapper ++ ".NativePointer"

end Managed

end InteropGen
