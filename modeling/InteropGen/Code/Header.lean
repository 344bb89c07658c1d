import InteropGen.Code.Line
import InteropGen.Config.Basic

set_option autoImplicit false

/-!
# The header of generated files

Every generated file begins with the configured comment, one comment line for each of its lines.
Files that are handed over for editing carry no header.
-/

namespace InteropGen

namespace Code

def includeLine (path : String) : String := "#include \"" ++ path ++ "\""

end Code

namespace Config

def commentLine (text : String) : String := if text.isEmpty then "//" else "// " ++ text

def header (c : Config) : Code := Code.lines (c.headerLines.map commentLine)

def generatedFile (c : Config) (body : Code) : String := (c.header ++ body).render c.indentUnit

/-- A file that is handed over for editing carries no header. -/
def scaffoldFile (c : Config) (body : Code) : String := body.render c.indentUnit

end Config

end InteropGen
