import InteropGen.Native.Fragment

set_option autoImplicit false

/-!
# Scaffolds

A scaffold is written once and then belongs to its reader: the header of a native class, which
includes the fragment, and a source file with a definition for every declared member.  The instance
members of a managed server are defined to forward to their trampolines.
-/

namespace InteropGen

structure Definition where
  declared : NativeMember
  /-- The slot that the member forwards to. -/
  forward : Option String
  deriving DecidableEq, Repr

namespace Definition

def slotOf? (table : SlotTable) (m : Member) : Option Slot :=
  table.slots.find? fun slot => slot.member = m && !slot.isStatic

def ofMember (table : Option SlotTable) (n : NativeMember) : Definition :=
  ⟨n, (table.bind fun table => slotOf? table n.member).map Slot.name⟩

def forwardCall (slot : String) (n : NativeMember) : String :=
  slot ++ "(" ++ ", ".intercalate ("GetManagedHandle()" :: n.parameters.map Declared.name) ++ ")"

def body (typeName : String) (d : Definition) : Code :=
  match d.forward with
  | some slot =>
    let call := forwardCall slot d.declared
    Code.line (if d.declared.isVoid then call ++ ";" else "return " ++ call ++ ";")
  | none =>
    Code.given (!d.declared.isVoid)
      (Code.line ("throw std::logic_error(\"" ++ typeName ++ "::" ++ d.declared.name ++
        " is not implemented\");"))

def headline (typeName : String) (n : NativeMember) : String :=
  n.result.literal ++ " " ++ typeName ++ "::" ++ n.name ++ "(" ++ Declared.join n.parameters ++ ")"

def code (typeName : String) (d : Definition) : Code :=
  Code.blank ++ Code.block (headline typeName d.declared) (d.body typeName)

end Definition

namespace Scaffold

def classLine (t : ApiType) : Option ApiType → String
  | none => "class " ++ t.name
  | some base => "class " ++ t.name ++ " : public " ++ base.name

def header (s : Schema) (t : ApiType) : Code :=
  let base := s.baseOf t
  Code.lines ["#pragma once", "", Code.includeLine "Api/ApiTypes.h"] ++
    Code.lines (base.map fun b => Code.includeLine b.header).toList ++
    Code.lines
      ["", classLine t base, "\x7b", Code.includeLine ("Api/" ++ t.name ++ ".inc"), "\x7d;"]

def definitions (s : Schema) (t : ApiType) : Except Failure (List Definition) := do
  let table ← t.slotTable
  let members ← NativeMember.ofClass s t
  return members.map (Definition.ofMember table)

def sourceCode (t : ApiType) (definitions : List Definition) : Code :=
  Code.lines [Code.includeLine t.header, "", "#include <stdexcept>", ""] ++
    Code.block (t.name ++ "::" ++ t.name ++ "()") [] ++
    Code.blank ++ Code.block (t.name ++ "::~" ++ t.name ++ "()") [] ++
    definitions.flatMap (Definition.code t.name)

def source (s : Schema) (t : ApiType) : Except Failure Code :=
  (definitions s t).map (sourceCode t)

end Scaffold

end InteropGen
