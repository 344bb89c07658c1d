import InteropGen.Text.Quoted

set_option autoImplicit false

/-!
# Errors of the bridge

Each cause has one wording.
-/

namespace InteropGen

inductive BridgeError where
  | locatorNotRegistered (type : String)
  | unknownSlot (type : String) (raw : Int)
  | staleHandle (id : UInt64)
  deriving DecidableEq, Repr

def BridgeError.message : BridgeError → String
  | locatorNotRegistered type => "Trampoline locator is not set for " ++ type
  | unknownSlot type raw => "Unknown trampoline " ++ toString raw ++ " in " ++ type
  | staleHandle id => "Stale instance handle 0x" ++ Text.hex id.toNat

end InteropGen
