import InteropGen.Config.Document
import InteropGen.Disk.Access

set_option autoImplicit false

/-!
# Configuration and schema files

A configuration that is read from a file is seen from the directory of that file.  What notation a
schema file is in is told by its extension.
-/

namespace InteropGen

def Format.ofExtension? : Option String → Option Format
  | some "toml" => some .toml
  | some "json" => some .json
  | _ => none

variable {m : Type → Type} [Monad m]

namespace Config

/-- The configuration seen from the directory of its file. -/
def anchor (c : Config) (file : Path) : Config :=
  match file.parent? with
  | none => c
  | some dir => c.rebase dir

def load (disk : Disk m) (file : Path) : m (Except ConfigError Config) := do
  match ← disk.readText file with
  | none => return .error .io
  | some text => return (parse text).map (·.anchor file)

def save (disk : Disk m) (c : Config) (file : Path) : m (Except ConfigError Unit) := do
  return if ← disk.writeText file c.write then .ok () else .error .io

end Config

namespace Schema

def ofFile (file : Path) (text : String) : Except SchemaError Schema :=
  match Format.ofExtension? file.extension? with
  | some format => load format text
  | none => .error (.unsupportedFormat file.text)

def loadFile (disk : Disk m) (file : Path) : m (Except SchemaError Schema) := do
  match ← disk.readText file with
  | none => return .error .unreadable
  | some text => return ofFile file text

end Schema

end InteropGen
