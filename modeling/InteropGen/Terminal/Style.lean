set_option autoImplicit false

/-!
# Styled text

Output is a sequence of pieces, some of them in a style.  Where colours are off a piece is its bare
text; where they are on, a styled piece is put between a reset with the codes of its style and
another reset.
-/

namespace InteropGen

inductive Colour where
  | red
  | green
  | yellow
  | blue
  | magenta
  | cyan
  | white
  deriving DecidableEq, Repr

def Colour.digit : Colour → String
  | red => "1"
  | green => "2"
  | yellow => "3"
  | blue => "4"
  | magenta => "5"
  | cyan => "6"
  | white => "7"

structure Style where
  colour : Option Colour := none
  bold : Bool := false
  faint : Bool := false
  slanted : Bool := false
  deriving DecidableEq, Repr

namespace Style

def success : Style := { colour := some .green, bold := true }

def failure : Style := { colour := some .red, bold := true }

def warning : Style := { colour := some .yellow, bold := true }

def info : Style := { colour := some .cyan }

def dim : Style := { colour := some .white }

def strong : Style := { bold := true }

def escape (code : String) : String := "\x1b[" ++ code ++ "m"

def reset : String := escape "0"

def codes (s : Style) : String :=
  (if s.bold then escape "1" else "") ++ (if s.faint then escape "2" else "") ++
    (if s.slanted then escape "3" else "") ++
      match s.colour with
      | none => ""
      | some colour => escape ("3" ++ colour.digit)

end Style

structure Piece where
  text : String
  style : Option Style := none
  deriving DecidableEq, Repr

namespace Piece

def plain (text : String) : Piece := ⟨text, none⟩

def newline : Piece := plain "\n"

def render (coloured : Bool) (p : Piece) : String :=
  match coloured, p.style with
  | true, some style => Style.reset ++ style.codes ++ p.text ++ Style.reset
  | _, _ => p.text

def renderAll (coloured : Bool) (pieces : List Piece) : String :=
  String.join (pieces.map (render coloured))

end Piece

inductive ColourMode where
  | auto
  | always
  | never
  deriving DecidableEq, Repr

namespace ColourMode

def all : List ColourMode := [auto, always, never]

def keyword : ColourMode → String
  | auto => "auto"
  | always => "always"
  | never => "never"

def parse? (text : String) : Option ColourMode := all.find? fun mode => mode.keyword = text

end ColourMode

end InteropGen
