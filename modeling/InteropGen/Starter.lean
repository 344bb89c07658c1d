import InteropGen.Config.File

set_option autoImplicit false

/-!
# Starter projects

A starter project is a configuration with all settings spelled out and a small schema to begin with.
A directory that has a configuration is left alone, and a schema that is there is kept.
-/

namespace InteropGen

inductive StarterError where
  | alreadyExists (dir : Path)
  | io
  | config (e : ConfigError)
  deriving DecidableEq, Repr

def StarterError.message : StarterError → String
  | alreadyExists dir => "Project already exists: apigen.toml found in " ++ dir.text
  | io => "IO error:"
  | config e => "Config error: " ++ e.message

namespace Starter

def sampleLines : List String :=
  ["# API surface exposed across the native boundary.", "", "[[types]]", "name = \"PointI\"",
    "kind = \"struct\"", "fields = [", "    \x7b name = \"X\", type = \"int\" \x7d,",
    "    \x7b name = \"Y\", type = \"int\" \x7d,", "]", "", "[[types]]", "name = \"Widget\"",
    "managed_server = true", "", "[[types.properties]]", "name = \"Text\"", "type = \"string\"",
    "set = true", "", "[[types.methods]]", "name = \"MoveTo\"",
    "parameters = [\x7b name = \"position\", type = \"PointI\" \x7d]", "", "[[types.events]]",
    "name = \"Click\""]

def sampleSchema : String := String.join (sampleLines.map (· ++ "\n"))

variable {m : Type → Type} [Monad m]

def writeSchema (disk : Disk m) (file : Path) : m (Except StarterError (List Path)) := do
  if ← disk.holds file then return .ok []
  else if ← disk.writeText file sampleSchema then return .ok [file]
  else return .error .io

def create (disk : Disk m) (dir : Path) : m (Except StarterError (List Path)) := do
  let config := dir.child "apigen.toml"
  if ← disk.holds config then return .error (.alreadyExists dir)
  else if ← disk.makeDirectories dir then
    match ← Config.save disk {} config with
    | .error e => return .error (.config e)
    | .ok () => return (← writeSchema disk (dir.child "api.toml")).map (config :: ·)
  else return .error .io

end Starter

end InteropGen
