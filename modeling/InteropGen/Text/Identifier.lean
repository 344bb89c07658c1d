import InteropGen.Text.Alphabetic
import InteropGen.Text.Lines
import InteropGen.Text.Numeric

set_option autoImplicit false

/-!
# Identifiers and names

Type references are made of ASCII identifiers.  The generated managed code also admits names with
letters and digits of any script, so a configured namespace or class name is checked against the
Unicode properties.
-/

namespace InteropGen.Text

def isIdentifierStart (c : Char) : Bool := c.isAlpha || c == '_'

def isIdentifierPart (c : Char) : Bool := c.isAlphanum || c == '_'

/-- An ASCII letter or underscore, then ASCII letters, digits and underscores. -/
def isIdentifier : List Char → Bool
  | [] => false
  | c :: cs => isIdentifierStart c && cs.all isIdentifierPart

def inRanges (ranges : List (Nat × Nat)) (c : Char) : Bool :=
  ranges.any fun (low, high) => low ≤ c.toNat && c.toNat ≤ high

def isLetter (c : Char) : Bool :=
  c.isAlpha || (128 ≤ c.toNat && inRanges alphabeticRanges c)

def isNumber (c : Char) : Bool :=
  c.isDigit || (128 ≤ c.toNat && inRanges numericRanges c)

def isNamePart (c : Char) : Bool := isLetter c || isNumber c || c == '_'

/-- A letter or underscore, then letters, numbers and underscores of any script. -/
def isName : List Char → Bool
  | [] => false
  | c :: cs => (isLetter c || c == '_') && cs.all isNamePart

def isDottedName (cs : List Char) : Bool := (pieces '.' cs).all isName

theorem isIdentifierPart_of_start {c : Char} (h : isIdentifierStart c = true) :
    isIdentifierPart c = true := by
  simp only [isIdentifierStart, isIdentifierPart, Char.isAlphanum, Bool.or_eq_true] at h ⊢
  exact h.elim (fun h => .inl (.inl h)) .inr

theorem isIdentifier_cons {c : Char} {cs : List Char} :
    isIdentifier (c :: cs) = (isIdentifierStart c && cs.all isIdentifierPart) := rfl

end InteropGen.Text
