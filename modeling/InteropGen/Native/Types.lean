import InteropGen.Code.Header
import InteropGen.ValueTypes.Declaration

set_option autoImplicit false

/-!
# The header of types

One native header declares all enums and structs and names all classes.  Every other native file
includes it.
-/

namespace InteropGen

structure NativeTypes where
  classes : List String
  enums : List ValueEnum
  structs : List ValueStruct
  deriving DecidableEq, Repr

namespace NativeTypes

def ofSchema (s : Schema) : Except Failure NativeTypes := do
  let enums ← ValueEnum.ofTypes s.enums
  let order ← s.structOrder
  let structs ← ValueStruct.ofTypes s .flat order
  return ⟨s.classes.map ApiType.name, enums, structs⟩

def enumCode (e : ValueEnum) : Code :=
  Code.blank ++
    Code.blockEnding ("enum class " ++ e.name ++ " : " ++ (if e.isWide then "int64_t" else "int"))
      ";" (Code.lines e.lines) ++
    Code.given e.flags (Code.line ("APIGEN_FLAGS_OPERATORS(" ++ e.name ++ ")"))

def fieldLine (f : ValueField) : String := f.spelling.literal ++ " " ++ f.name ++ ";"

def structCode (v : ValueStruct) : Code :=
  Code.blank ++
    Code.blockEnding ("struct " ++ v.name) ";" (Code.lines (v.fields.map fieldLine))

def classLine (name : String) : String := "class " ++ name ++ ";"

def code (n : NativeTypes) : Code :=
  Code.lines ["#pragma once", "", Code.includeLine "ApiSupport.h"] ++
    Code.apart (Code.lines (n.classes.map classLine)) ++
    n.enums.flatMap enumCode ++ n.structs.flatMap structCode

end NativeTypes

/-- The file that pulls every shim into one unit of compilation. -/
def aggregateCode (s : Schema) : Code :=
  Code.lines (s.classes.map fun t => Code.includeLine ("Api/" ++ t.name ++ ".Api.h"))

end InteropGen
