import InteropGen.Disk.Access
import InteropGen.Generation.Plan
import InteropGen.Generation.Report

set_option autoImplicit false

/-!
# Runs

A run plans everything and then applies the plan file by file.  Generated files are written again
when their content differs; scaffolds are created when nothing is there.  A failure to plan leaves
the disk alone; a failure to apply stops the run.
-/

namespace InteropGen

namespace PlannedFile

def bytes (f : PlannedFile) : ByteArray := f.content.toUTF8

/-- What is to be done with a generated file, by what was read in its place. -/
def statusOfRead (f : PlannedFile) : Except Obstacle ByteArray → Except Failure FileStatus
  | .ok existing => .ok (if existing.data = f.bytes.data then .unchanged else .written)
  | .error .missing => .ok .written
  | .error .blocked => .error .io

variable {m : Type → Type} [Monad m]

def status (disk : Disk m) (f : PlannedFile) : m (Except Failure FileStatus) := do
  match f.kind with
  | .scaffold => return .ok (if ← disk.holds f.path then .preserved else .created)
  | .generated => return f.statusOfRead (← disk.read f.path)

def makeParent (disk : Disk m) (f : PlannedFile) : m Bool :=
  match f.path.parent? with
  | none => pure true
  | some parent => disk.makeDirectories parent

/-- Writes the file; tells whether that was possible. -/
def store (disk : Disk m) (f : PlannedFile) : m Bool := do
  if ← f.makeParent disk then disk.write f.path f.bytes else return false

def apply (disk : Disk m) (dryRun : Bool) (f : PlannedFile) : m (Except Failure FileStatus) := do
  match ← f.status disk with
  | .error e => return .error e
  | .ok status =>
    if dryRun || !status.isChange then return .ok status
    else return if ← f.store disk then .ok status else .error .io

end PlannedFile

structure Progress where
  applied : List (Path × FileStatus)
  failure : Option Failure
  deriving DecidableEq, Repr

namespace Progress

variable {m : Type → Type} [Monad m]

/-- Applies the files one after the other, up to the first failure. -/
def ofPlan (disk : Disk m) (dryRun : Bool) : List PlannedFile → m Progress
  | [] => return ⟨[], none⟩
  | f :: fs => do
    match ← f.apply disk dryRun with
    | .error e => return ⟨[], some e⟩
    | .ok status =>
      let rest ← ofPlan disk dryRun fs
      return ⟨(f.path, status) :: rest.applied, rest.failure⟩

def report (p : Progress) (dryRun : Bool) : Except Failure Report :=
  match p.failure with
  | some e => .error e
  | none => .ok ⟨p.applied, dryRun⟩

def events (p : Progress) : List LogEvent :=
  p.applied.map fun (path, status) =>
    ⟨.debug, "Applied", [("path", path.text), ("status", status.label)]⟩

end Progress

def Report.event (r : Report) : LogEvent :=
  let counted (status : FileStatus) : String × String := (status.label, toString (r.count status))
  ⟨.info, "Generation finished",
    [counted .written, counted .created, counted .unchanged, counted .preserved,
      ("dry_run", toString r.dryRun)]⟩

namespace Run

variable {m : Type → Type} [Monad m]

/-- Plans and applies, and tells what was logged on the way. -/
def generate (disk : Disk m) (dryRun : Bool) (c : Config) (s : Schema) :
    m (List LogEvent × Except Failure Report) := do
  match Plan.build c s with
  | .error e => return (Plan.events s, .error e)
  | .ok files =>
    let progress ← Progress.ofPlan disk dryRun files
    let report := progress.report dryRun
    let finished := match report with
      | .ok r => [r.event]
      | .error _ => []
    return (Plan.events s ++ progress.events ++ finished, report)

end Run

end InteropGen
