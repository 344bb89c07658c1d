import InteropGen.Schema.Basic

set_option autoImplicit false

/-!
# Values of enum variants

A variant without a value of its own continues from the one before: one more for a plain enum, twice
as much for a flags enum.  `Variants.expected` says what the values are over all integers, and
`ApiType.variantValues` computes them in words of 64 bits, for as long as they fit.
-/

namespace InteropGen

def minInt64 : Int := -9223372036854775808

def maxInt64 : Int := 9223372036854775807

def fitsInt64 (i : Int) : Bool := minInt64 ≤ i && i ≤ maxInt64

def fitsInt32 (i : Int) : Bool := -2147483648 ≤ i && i ≤ 2147483647

namespace Variants

/-- The value a variant without one takes after `previous`.  Flags restart at one after a value that
is not positive. -/
def continuation (flags : Bool) : Option Int → Int
  | none => if flags then 1 else 0
  | some previous => if flags then (if previous ≤ 0 then 1 else previous * 2) else previous + 1

def next (flags : Bool) (previous : Option Int) (v : Variant) : Int :=
  v.value.getD (continuation flags previous)

def expected (flags : Bool) : Option Int → List Variant → List (String × Int)
  | _, [] => []
  | previous, v :: vs =>
    (v.name, next flags previous v) :: expected flags (some (next flags previous v)) vs

/-- The word of a value that fits. -/
def word? (i : Int) : Option Int64 := if fitsInt64 i then some (.ofInt i) else none

def plus? (a b : Int64) : Option Int64 :=
  if a.toBitVec.saddOverflow b.toBitVec then none else some (a + b)

def times? (a b : Int64) : Option Int64 :=
  if a.toBitVec.smulOverflow b.toBitVec then none else some (a * b)

/-- The continuation within 64 bits. -/
def continued? (flags : Bool) : Option Int64 → Option Int64
  | none => some (if flags then 1 else 0)
  | some previous =>
    if flags then (if previous ≤ 0 then some 1 else times? previous 2) else plus? previous 1

def value? (flags : Bool) (previous : Option Int64) (v : Variant) : Option Int64 :=
  match v.value with
  | some value => word? value
  | none => continued? flags previous

/-- The values one after the other; the error names the first variant without room for its value. -/
def resolve (flags : Bool) : Option Int64 → List Variant → Except String (List (String × Int))
  | _, [] => .ok []
  | previous, v :: vs =>
    match value? flags previous v with
    | some value => (resolve flags (some value) vs).map fun rest => (v.name, value.toInt) :: rest
    | none => .error v.name

end Variants

namespace ApiType

def variantValues (t : ApiType) : Except String (List (String × Int)) :=
  Variants.resolve t.flags none t.variants

end ApiType

end InteropGen
