import InteropGen.Dialect.Spelling

set_option autoImplicit false

/-!
# Declared parameters

A declared parameter is a spelled type and a name.  Flat functions and their imports take an array
as two parameters, a pointer and a count.
-/

namespace InteropGen

structure Declared where
  spelling : Spelling
  name : String
  deriving DecidableEq, Repr

namespace Declared

def plain (type name : String) : Declared := ⟨⟨type, none⟩, name⟩

def text (d : Declared) : String := d.spelling.literal ++ " " ++ d.name

def countName (array : String) : String := array ++ "Count"

/-- The parameters that follow the one of a parameter. -/
def counts (p : Parameter) : List Declared :=
  if p.type.isArray then [plain "int" (countName p.name)] else []

def join (ds : List Declared) : String := ", ".intercalate (ds.map text)

end Declared

namespace Schema

def declare (s : Schema) (dialect : Dialect) (p : Parameter) : Except Failure Declared :=
  (s.resolve dialect .argument p.type).map fun spelling => ⟨spelling, p.name⟩

def declareAll (s : Schema) (dialect : Dialect) : List Parameter → Except Failure (List Declared)
  | [] => .ok []
  | p :: ps => do
    let d ← s.declare dialect p
    let ds ← s.declareAll dialect ps
    return d :: ds

def declareFlat (s : Schema) (dialect : Dialect) : List Parameter → Except Failure (List Declared)
  | [] => .ok []
  | p :: ps => do
    let d ← s.declare dialect p
    let ds ← s.declareFlat dialect ps
    return d :: (Declared.counts p ++ ds)

end Schema

end InteropGen
