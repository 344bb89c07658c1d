import InteropGen.Schema.Fault
import InteropGen.Text.Quoted

set_option autoImplicit false

/-!
# Why nothing could be generated

A run has one outcome: every artifact, or the first failure.  Each cause has one wording.
-/

namespace InteropGen

/-- The four spellings of the API: managed wrapper classes, managed import declarations, native
class bodies, and the flat functions between them. -/
inductive Dialect where
  | managed
  | binding
  | native
  | flat
  deriving DecidableEq, Repr

namespace Dialect

def all : List Dialect := [managed, binding, native, flat]

def display : Dialect → String
  | managed => "managed"
  | binding => "native-call binding"
  | native => "native"
  | flat => "C ABI"

end Dialect

inductive Failure where
  /-- A type that a dialect has no spelling for. -/
  | unsupportedType (dialect : Dialect) (feature type : String)
  | unknownType (name context : String)
  | duplicateSymbol (type symbol : String)
  | duplicateSlot (type slot : String)
  | symbolMismatch (type : String) (exported imported : List String)
  | slotMismatch (type artifact : String) (expected emitted : List String)
  | schema (e : SchemaError)
  | io
  | format
  deriving DecidableEq, Repr

namespace Failure

def message : Failure → String
  | unsupportedType dialect feature type =>
    dialect.display ++ " dialect does not implement " ++ feature ++ " (type '" ++ type ++ "')"
  | unknownType name context => "Unknown type '" ++ name ++ "' referenced from " ++ context
  | duplicateSymbol type symbol => "Duplicate exported symbol " ++ symbol ++ " in " ++ type
  | duplicateSlot type slot => "Duplicate trampoline slot " ++ slot ++ " in " ++ type
  | symbolMismatch type exported imported =>
    "Symbol parity mismatch in " ++ type ++ ": C ABI exports " ++ Text.quoteList exported ++
      ", bindings declare " ++ Text.quoteList imported
  | slotMismatch type artifact expected emitted =>
    "Trampoline order mismatch in " ++ type ++ " (" ++ artifact ++ "): expected " ++
      Text.quoteList expected ++ ", emitted " ++ Text.quoteList emitted
  | schema e => e.message
  | io => "IO error:"
  | format => "Formatting error"

end Failure

end InteropGen
