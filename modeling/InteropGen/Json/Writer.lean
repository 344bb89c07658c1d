import InteropGen.Data
import InteropGen.Text.Quoted

set_option autoImplicit false

/-!
# Writing JSON

The compact form: no blanks between tokens, and no character escaped that need not be.
-/

namespace InteropGen.Json

def escapeChar (c : Char) : List Char :=
  if c = '"' || c = '\\' then ['\\', c]
  else if c = '\n' then ['\\', 'n']
  else if c = '\r' then ['\\', 'r']
  else if c = '\t' then ['\\', 't']
  else if c.toNat < 0x20 then
    ['\\', 'u', '0', '0', Text.hexDigit (c.toNat / 16), Text.hexDigit (c.toNat % 16)]
  else [c]

def writeText (s : String) : String :=
  "\"" ++ String.ofList (s.toList.flatMap escapeChar) ++ "\""

mutual

def write : Data → String
  | .absent => "null"
  | .boolean b => if b then "true" else "false"
  | .integer i => toString i
  | .text s => writeText s
  | .list items => "[" ++ ",".intercalate (writeItems items) ++ "]"
  | .record entries => "\x7b" ++ ",".intercalate (writeEntries entries) ++ "\x7d"
  | .other => "null"

def writeItems : List Data → List String
  | [] => []
  | item :: items => write item :: writeItems items

def writeEntries : List (String × Data) → List String
  | [] => []
  | (key, value) :: entries => (writeText key ++ ":" ++ write value) :: writeEntries entries

end

end InteropGen.Json
