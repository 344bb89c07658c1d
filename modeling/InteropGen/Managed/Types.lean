import InteropGen.Code.Header
import InteropGen.ValueTypes.Declaration

set_option autoImplicit false

/-!
# Managed value types

One managed file declares the enums and structs with the layout that they have natively.
-/

namespace InteropGen

structure ManagedTypes where
  enums : List ValueEnum
  structs : List ValueStruct
  deriving DecidableEq, Repr

namespace ManagedTypes

def ofSchema (s : Schema) : Except Failure ManagedTypes := do
  let order ← s.structOrder
  let enums ← ValueEnum.ofTypes s.enums
  let structs ← ValueStruct.ofTypes s .managed order
  return ⟨enums, structs⟩

def enumCode (e : ValueEnum) : Code :=
  Code.given e.flags (Code.line "[Flags]") ++
    Code.block ("public enum " ++ e.name ++ " : " ++ (if e.isWide then "long" else "int"))
      (Code.lines e.lines)

def fieldCode (f : ValueField) : Code :=
  Code.given f.isBool (Code.line "[MarshalAs(UnmanagedType.I1)]") ++
    Code.line ("public " ++ f.spelling.literal ++ " " ++ f.name ++ ";")

def structCode (v : ValueStruct) : Code :=
  Code.line "[StructLayout(LayoutKind.Sequential)]" ++
    Code.block ("public struct " ++ v.name) (v.fields.flatMap fieldCode)

def code (c : Config) (m : ManagedTypes) : Code :=
  Code.lines ["using System;", "using System.Runtime.InteropServices;", ""] ++
    Code.block ("namespace " ++ c.managed.namespace)
      (Code.separated (m.enums.map enumCode ++ m.structs.map structCode))

end ManagedTypes

end InteropGen
