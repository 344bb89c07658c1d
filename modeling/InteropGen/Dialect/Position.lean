set_option autoImplicit false

/-!
# Where a type stands

A type is spelled differently as a parameter, as a result and as a declared thing.  A usage may
carry several marks; the declaration mark outweighs the argument mark, and that one the result mark.
-/

namespace InteropGen

inductive Position where
  | declaration
  | argument
  | result
  deriving DecidableEq, Repr

structure Usage where
  isStatic : Bool
  isArgument : Bool
  isResult : Bool
  deriving DecidableEq, Repr

namespace Usage

def ofBits (n : Nat) : Usage := ⟨n.testBit 0, n.testBit 1, n.testBit 2⟩

/-- An unmarked usage is a declaration. -/
def position (u : Usage) : Position :=
  if u.isStatic || (!u.isArgument && !u.isResult) then .declaration
  else if u.isArgument then .argument
  else .result

end Usage

end InteropGen
