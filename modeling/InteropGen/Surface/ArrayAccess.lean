set_option autoImplicit false

/-!
# Reading an array property

An array does not cross the boundary in one piece.  The reader opens a snapshot, asks for the number
of items, fetches them one by one, and closes the snapshot.
-/

namespace InteropGen

inductive ArrayStep where
  | openArray
  | countItems
  | itemAt
  | closeArray
  deriving DecidableEq, Repr

namespace ArrayStep

def all : List ArrayStep := [openArray, countItems, itemAt, closeArray]

def memberName (property : String) : ArrayStep → String
  | openArray => "Open" ++ property ++ "Array"
  | countItems => "Get" ++ property ++ "ItemCount"
  | itemAt => "Get" ++ property ++ "ItemAt"
  | closeArray => "Close" ++ property ++ "Array"

def arity : ArrayStep → Nat
  | openArray => 0
  | countItems => 1
  | itemAt => 2
  | closeArray => 1

end ArrayStep

end InteropGen
