import InteropGen.Text.Blank

set_option autoImplicit false

/-!
# Code as lines

Generated code is a list of lines, each with the depth at which it stands.  Blocks put their braces
on lines of their own.  The text of the code depends on the indent unit only through `Line.lead`, so
two renderings differ in leading blanks and in nothing else.
-/

namespace InteropGen

structure Line where
  depth : Nat
  text : String
  /-- The line starts at the margin, whatever its depth. -/
  pinned : Bool := false
  deriving DecidableEq, Repr

abbrev Code := List Line

namespace Line

/-- The blanks in front of a line: none on a blank line. -/
def lead (unit : String) (l : Line) : String :=
  if l.pinned || Text.allBlank l.text then "" else String.join (List.replicate l.depth unit)

def render (unit : String) (l : Line) : String := l.lead unit ++ l.text ++ "\n"

end Line

namespace Code

def line (text : String) : Code := [⟨0, text, false⟩]

def lines (texts : List String) : Code := texts.map fun text => ⟨0, text, false⟩

def blank : Code := [⟨0, "", false⟩]

def unindented (texts : List String) : Code := texts.map fun text => ⟨0, text, true⟩

def nest (c : Code) : Code := c.map fun l => { l with depth := l.depth + 1 }

def bracesEnding (suffix : String) (body : Code) : Code :=
  line "\x7b" ++ nest body ++ line ("\x7d" ++ suffix)

def braces (body : Code) : Code := bracesEnding "" body

def block (header : String) (body : Code) : Code := line header ++ braces body

def blockEnding (header suffix : String) (body : Code) : Code :=
  line header ++ bracesEnding suffix body

/-- A blank line in front, unless there is no code. -/
def apart (c : Code) : Code := if c.isEmpty then [] else blank ++ c

def spaced (pieces : List Code) : Code := pieces.flatMap fun c => blank ++ c

def separated : List Code → Code
  | [] => []
  | c :: rest => c ++ spaced rest

def given (condition : Bool) (c : Code) : Code := if condition then c else []

def render (unit : String) (c : Code) : String := String.join (c.map (Line.render unit))

theorem render_append (unit : String) (c d : Code) :
    render unit (c ++ d) = render unit c ++ render unit d := by
  simp [render, String.join_append]

@[simp] theorem nest_append (c d : Code) : nest (c ++ d) = nest c ++ nest d := List.map_append

end Code

end InteropGen
