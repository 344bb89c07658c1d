import InteropGen.CommandLine.Run

set_option autoImplicit false

/-!
# The command line

The program gives the commands access to the real file system and shows what they answer.
-/

namespace InteropGen

def obstacleOf : IO.Error → Obstacle
  | .noFileOrDirectory .. => .missing
  | _ => .blocked

def succeeds (action : IO Unit) : IO Bool := do
  match ← EIO.toBaseIO action with
  | .ok () => return true
  | .error _ => return false

def opens (p : Path) : IO Bool := succeeds (discard (IO.FS.Handle.mk p.text .read))

def makeAll (p : Path) : IO Bool :=
  if p.text.isEmpty then pure true else succeeds (IO.FS.createDirAll p.text)

def realDisk : Disk IO where
  read p := do
    match ← EIO.toBaseIO (IO.FS.readBinFile p.text) with
    | .ok content => return .ok content
    | .error e => return .error (obstacleOf e)
  holds := opens
  write p content := succeeds (IO.FS.writeBinFile p.text content)
  makeDirectories p := do
    if p.text.isEmpty then return true
    let made ← makeAll p.makeable
    let there ← opens (p.child ".")
    return made && there

def readEnvironment : IO CommandLine.Environment := do
  let names := ["NO_COLOR", "TERM", "APIGEN_LOG"]
  let values ← names.mapM fun name => do
    return (← IO.getEnv name).map fun value => (name, value)
  return values.filterMap id

def showScreen (screen : CommandLine.Screen) : IO UInt32 := do
  for line in screen.log do
    IO.eprintln line
  IO.print screen.stdout
  (← IO.getStdout).flush
  if let some error := screen.error then
    IO.eprintln error
  if screen.exitCode = 2 then
    IO.eprint CommandLine.usageText
  return UInt32.ofNat screen.exitCode

end InteropGen

open InteropGen in
def main (arguments : List String) : IO UInt32 := do
  showScreen (← CommandLine.invoke realDisk (← readEnvironment) arguments)
