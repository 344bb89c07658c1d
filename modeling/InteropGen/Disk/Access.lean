import InteropGen.Disk.FileTree

set_option autoImplicit false

/-!
# Access to files

What the generator asks of a file system.  On a file tree the answers are computed; the command line
asks the real one.
-/

namespace InteropGen

structure Disk (m : Type → Type) where
  read : Path → m (Except Obstacle ByteArray)
  /-- Something is there. -/
  holds : Path → m Bool
  /-- Tells whether the file was written. -/
  write : Path → ByteArray → m Bool
  /-- Tells whether the directory is there in the end. -/
  makeDirectories : Path → m Bool

namespace Disk

/-- The text of a file, unless it cannot be read or is not text. -/
def readText {m : Type → Type} [Monad m] (disk : Disk m) (p : Path) : m (Option String) := do
  match ← disk.read p with
  | .ok content => return String.fromUTF8? content
  | .error _ => return none

def writeText {m : Type → Type} (disk : Disk m) (p : Path) (text : String) : m Bool :=
  disk.write p text.toUTF8

end Disk

namespace FileTree

def tryWrite (t : FileTree) (p : Path) (content : ByteArray) : Bool × FileTree :=
  match t.write p content with
  | some t => (true, t)
  | none => (false, t)

def disk : Disk (StateM FileTree) where
  read p := fun t => (t.read p, t)
  holds p := fun t => (t.holds p, t)
  write p content := fun t => t.tryWrite p content
  makeDirectories p := fun t => t.makeDirectories p

end FileTree

end InteropGen
