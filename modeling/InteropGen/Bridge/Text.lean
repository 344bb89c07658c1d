import InteropGen.Text.Units16

set_option autoImplicit false

/-!
# Text at the boundary

A text crosses the boundary as 16-bit units with a zero at the end.  Whoever receives it finds its
length by looking for the zero, so there is none before.
-/

namespace InteropGen

structure BoundaryText where
  /-- All units, the terminator included. -/
  buffer : List UInt16
  deriving DecidableEq, Repr

namespace BoundaryText

def untilZero (units : List UInt16) : List UInt16 := units.takeWhile (· ≠ 0)

/-- The part of a text before its first zero. -/
def ofString (s : String) : BoundaryText := ⟨untilZero (Text.units s.toList) ++ [0]⟩

def units (t : BoundaryText) : List UInt16 := t.buffer.dropLast

def toString (t : BoundaryText) : String := String.ofList (Text.ofUnits t.units)

/-- The memory that the other side sees. -/
def release (t : BoundaryText) : List UInt16 := t.buffer

def reclaim (memory : List UInt16) : BoundaryText := ⟨untilZero memory ++ [0]⟩

/-- Copies a text from memory; the null pointer is the empty text. -/
def read : Option (List UInt16) → String
  | none => ""
  | some memory => String.ofList (Text.ofUnits (untilZero memory))

end BoundaryText

end InteropGen
